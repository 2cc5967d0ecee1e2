import PromptDraw.Proofs.Prompt.Pieces
import PromptDraw.Block.Writing
import PromptDraw.Host.FileTree
import PromptDraw.Json.Reader
import PromptDraw.Main
import PromptDraw.Prompt.Leftmost
import PromptDraw.Text.Encodings
import PromptDraw.Proofs.Prompt.Leftmost
import PromptDraw.Proofs.Prompt.Splice
import PromptDraw.Proofs.Block.Items
import PromptDraw.Proofs.Block.Writing
import PromptDraw.Proofs.Prompt.RoundTrip
import PromptDraw.Proofs.Draw.Shuffle
import PromptDraw.Proofs.Prompt.Draws
import PromptDraw.Proofs.Prompt.Concatenation
import PromptDraw.Proofs.Block.Overlap
import PromptDraw.Proofs.Prompt.Notes
import PromptDraw.Proofs.Prompt.Replacement
import PromptDraw.Proofs.Prompt.Positions
import PromptDraw.Proofs.Block.Size
import PromptDraw.Proofs.Prompt.Changed
import PromptDraw.Proofs.Draw.Uniform
import PromptDraw.Proofs.Prompt.Cursor
import PromptDraw.Proofs.Program.Batch
import PromptDraw.Proofs.Config.Location
import PromptDraw.Proofs.Program.Failures
import PromptDraw.Proofs.Config.Source
import PromptDraw.Proofs.Program.Renderings
import PromptDraw.Proofs.Prompt.ByteSearch
import PromptDraw.Proofs.Config.Lines
import PromptDraw.Proofs.Config.Writing
import PromptDraw.Proofs.Program.PromptLimit
import PromptDraw.Proofs.Block.Layout
import PromptDraw.Proofs.Prompt.Layout
import PromptDraw.Proofs.Block.Division
import PromptDraw.Proofs.Program.BatchText
import PromptDraw.Proofs.Prompt.SearchLog
import PromptDraw.Proofs.Text.DecodingParts
import PromptDraw.Proofs.Block.ContentEnd
import PromptDraw.Proofs.Program.Flags
import PromptDraw.Proofs.Program.ReportLines
import PromptDraw.Proofs.Config.Documents
