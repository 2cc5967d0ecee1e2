import PromptDraw.Config.Basic
import PromptDraw.Json
import PromptDraw.Prompt.Report
import PromptDraw.Prompt.Resolve

/-!
How the results of a run are printed. Text and JSON forms hold the same results.
-/

namespace PromptDraw

namespace Resolution

def divider : Text := ['\n', '-', '-', '-', '\n']

def json (e : Resolution) : Json :=
  .object [
    ("changed".toList, .bool e.changed),
    ("original".toList, .string e.prompt),
    ("resolved".toList, .string e.resolved)]

def render (format : OutputFormat) (e : Resolution) : Text :=
  match format with
  | .text => e.resolved
  | .json => e.json.compact

def renderBatch (format : OutputFormat) (records : List Resolution) : Text :=
  match format with
  | .text => divider.intercalate (records.map resolved)
  | .json => (Json.array (records.map json)).compact

end Resolution

namespace Outcome

def name : Outcome → Text
  | substituted => "substituted".toList
  | empty => "empty".toList
  | unchanged => "unchanged".toList

/-- The outcome in a report for readers. -/
def remark : Outcome → Text
  | substituted => "substituted".toList
  | empty => "empty (count is 0)".toList
  | unchanged => "unchanged (no items)".toList

end Outcome

namespace Report

def json (report : Report) : Json :=
  .object [
    ("span".toList, .object [
      ("start".toList, .number report.start),
      ("end".toList, .number report.stop)]),
    ("text".toList, .string report.text),
    ("count".toList, .number report.count),
    ("candidates".toList, .array (report.candidates.map .string)),
    ("separator".toList, .string report.separator),
    ("outcome".toList, .string report.outcome.name)]

/-- A character as it stands in a line: breaks and tabs are written as escapes. -/
def lineChar (c : Char) : Text :=
  if c = '\n' then ['\\', 'n']
  else if c = '\r' then ['\\', 'r']
  else if c = '\t' then ['\\', 't']
  else [c]

/-- The three lines on one block, which is the block of the given number. -/
def lines (number : Nat) (report : Report) : List Text :=
  [ "  ".toList ++ Text.ofNat number ++ ". [".toList ++ Text.ofNat report.start ++ "..".toList ++
      Text.ofNat report.stop ++ "] ".toList ++ report.text.flatMap lineChar ++ " - ".toList ++
      report.outcome.remark,
    "     count: ".toList ++ Text.ofNat report.count ++ "  separator: ".toList ++
      report.separator.quoted,
    "     items: ".toList ++ Text.quotedList report.candidates ]

/-- The lines on some blocks, the first of which is the block of the given
number. -/
def allLines (number : Nat) : List Report → List Text
  | [] => []
  | report :: rest => report.lines number ++ allLines (number + 1) rest

def renderAll (format : OutputFormat) (reports : List Report) : Text :=
  match format with
  | .json => (Json.array (reports.map json)).pretty 0
  | .text =>
    if reports = [] then "No tokens found.".toList
    else
      ['\n'].intercalate
        (("Tokens (".toList ++ Text.ofNat reports.length ++ "):".toList) :: allLines 1 reports)

end Report

end PromptDraw
