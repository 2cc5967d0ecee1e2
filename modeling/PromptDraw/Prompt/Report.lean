import PromptDraw.Prompt.Pieces

/-!
Reports say of each block of a prompt where it stands, what it stands for and
what would become of it, without drawing anything.
-/

namespace PromptDraw

/-- What is known of one block of a prompt. -/
structure Report where
  start : Nat
  stop : Nat
  text : Text
  count : Nat
  candidates : List Text
  separator : Text
  outcome : Outcome
deriving DecidableEq, Repr

def Occurrence.report (o : Occurrence) : Report :=
  { start := o.start
    stop := o.stop
    text := o.block.text
    count := o.block.count
    candidates := o.block.candidates
    separator := o.block.separator
    outcome := o.block.outcome }

/-- Reports every block of a prompt, from left to right. -/
def Text.reports (s : Text) : List Report :=
  s.occurrences.map Occurrence.report

end PromptDraw
