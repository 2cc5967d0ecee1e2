import PromptDraw.Failure
import PromptDraw.Text.Quoted

/-!
The settings of a run, their defaults, the limits on their values and the
document that they are written as.
-/

namespace PromptDraw

/-- How prompts and reports are printed. -/
inductive OutputFormat where
  | text
  | json
deriving DecidableEq, Repr

namespace OutputFormat

def name : OutputFormat → Text
  | text => "text".toList
  | json => "json".toList

def ofName? (name : Text) : Option OutputFormat :=
  if name = text.name then some text
  else if name = json.name then some json
  else none

end OutputFormat

structure Config where
  /-- Fixes what `expand` draws. Without it every run draws anew. -/
  seed : Option UInt64 := none
  batch : UInt32 := 1
  format : OutputFormat := .text
  /-- Longer prompts are refused. -/
  maxInputBytes : UInt64 := 1048576
deriving DecidableEq, Repr

namespace Config

def fileName : String := "gacha.yaml"

def check (config : Config) : Except ConfigFault Unit :=
  if config.batch = 0 then .error .batchZero
  else if config.maxInputBytes = 0 then .error .maxInputBytesZero
  else .ok ()

/-- One line of a document: a key and its value. -/
def documentLine (key : String) (value : Text) : Text :=
  key.toList ++ [':', ' '] ++ value ++ ['\n']

/-- The document that holds some settings. A seed that is not set is left out. -/
def document (config : Config) : Text :=
  (match config.seed with
    | some seed => documentLine "seed" (Text.ofNat seed.toNat)
    | none => []) ++
  documentLine "batch" (Text.ofNat config.batch.toNat) ++
  documentLine "format" config.format.name ++
  documentLine "max_input_bytes" (Text.ofNat config.maxInputBytes.toNat)

end Config

end PromptDraw
