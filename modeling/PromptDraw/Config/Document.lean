import PromptDraw.Config.Basic
import PromptDraw.Yaml.Node

/-!
Reading settings from a YAML document. The document is a mapping; keys that it
leaves out take their defaults, keys that mean nothing here are passed over, and
a key of these settings may stand only once. A document without a value gives
the defaults.
-/

namespace PromptDraw

namespace Config

inductive Key where
  | seed
  | batch
  | format
  | maxInputBytes
deriving DecidableEq, Repr

namespace Key

def name : Key → String
  | seed => "seed"
  | batch => "batch"
  | format => "format"
  | maxInputBytes => "max_input_bytes"

def all : List Key := [seed, batch, format, maxInputBytes]

def ofName? (name : Text) : Option Key :=
  all.find? fun key => key.name.toList = name

end Key

/-- Whether a plain scalar stands for no value. -/
def isNull (text : Text) : Bool :=
  text.isEmpty || text == ['~'] || text == "null".toList || text == "Null".toList ||
    text == "NULL".toList

/-- A number below `limit`, which is written without quotes. -/
def number? (limit : Nat) : Yaml.Node → Option Nat
  | .scalar true text => do
    let value ← Yaml.Numeral.value? text
    if value < limit then return value else none
  | _ => none

def set? (config : Config) (key : Key) (value : Yaml.Node) : Option Config :=
  match key with
  | .seed =>
    match value with
    | .scalar true text =>
      if isNull text then some { config with seed := none }
      else (number? UInt64.size value).map fun n => { config with seed := some (UInt64.ofNat n) }
    | _ => none
  | .batch => (number? UInt32.size value).map fun n => { config with batch := UInt32.ofNat n }
  | .format =>
    match value with
    | .scalar _ text => (OutputFormat.ofName? text).map fun format => { config with format }
    | _ => none
  | .maxInputBytes =>
    (number? UInt64.size value).map fun n => { config with maxInputBytes := UInt64.ofNat n }

/-- Reads the entries of a document into settings of which the keys in `done`
are already set. -/
def setAll? (config : Config) (done : List Key) : List (Yaml.Node × Yaml.Node) → Option Config
  | [] => some config
  | (.scalar _ name, value) :: entries =>
    match Key.ofName? name with
    | none => setAll? config done entries
    | some key => do
      if key ∈ done then none
      let config ← config.set? key value
      setAll? config (key :: done) entries
  | _ :: _ => none

def ofNode? : Option Yaml.Node → Option Config
  | none | some (.scalar true []) => some {}
  | some (.mapping entries) => setAll? {} [] entries
  | some _ => none

def ofDocument (document : Text) : Except ConfigFault Config :=
  if document.all Text.isBlank then .ok {}
  else
    match (Yaml.read? document).bind ofNode? with
    | none => .error .malformed
    | some config =>
      match config.check with
      | .error fault => .error fault
      | .ok () => .ok config

end Config

end PromptDraw
