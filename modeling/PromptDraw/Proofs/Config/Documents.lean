import PromptDraw.Proofs.Config.Lines

/-!
What a document of settings comes to, said of its entries without reading them one after
the other. Under each key the settings have the value that stands there, or their default if
none does. Where no settings have all the values, be it that one is out of range, the document
is refused; otherwise it is the settings that are checked.
-/

namespace PromptDraw

namespace Config

namespace Key

theorem ofName?_name (key : Key) : ofName? key.name.toList = some key := by
  cases key <;> decide

end Key

/-- What stands for a seed that is not set. -/
def nulls : List Text :=
  [[], ['~'], "null".toList, "Null".toList, "NULL".toList]

/-- The settings have, under a key, what a value of a document stands for. Numbers are written
without quotes, and no settings have a number that is out of range. -/
inductive HasValue (config : Config) : Key → Yaml.Node → Prop where
  | noSeed {text : Text} (null : text ∈ nulls) (seed : config.seed = none) :
      HasValue config .seed (.scalar true text)
  | seed {text : Text} {n : UInt64} (number : Yaml.Numeral.value? text = some n.toNat)
      (seed : config.seed = some n) : HasValue config .seed (.scalar true text)
  | batch {text : Text} (number : Yaml.Numeral.value? text = some config.batch.toNat) :
      HasValue config .batch (.scalar true text)
  | format (plain : Bool) : HasValue config .format (.scalar plain config.format.name)
  | maxInputBytes {text : Text}
      (number : Yaml.Numeral.value? text = some config.maxInputBytes.toNat) :
      HasValue config .maxInputBytes (.scalar true text)

/-- Two settings have the same under a key. -/
def AgreesAt (config other : Config) : Key → Prop
  | .seed => config.seed = other.seed
  | .batch => config.batch = other.batch
  | .format => config.format = other.format
  | .maxInputBytes => config.maxInputBytes = other.maxInputBytes

/-- A node of a document is the name of a key. -/
def Names (node : Yaml.Node) (key : Key) : Prop :=
  ∃ plain, node = .scalar plain key.name.toList

/-- No entry of a document is for a key. -/
def LeavesOut (entries : List (Yaml.Node × Yaml.Node)) (key : Key) : Prop :=
  ∀ entry ∈ entries, ¬Names entry.1 key

/-- What entries give, where settings that no entry is about stay as those of `base`. Names that
mean nothing here are passed over, but they have to be scalars. -/
structure Gives (base : Config) (entries : List (Yaml.Node × Yaml.Node)) (config : Config) :
    Prop where
  scalars : ∀ entry ∈ entries, ∃ plain name, entry.1 = .scalar plain name
  once : entries.Pairwise fun entry later => ∀ key, Names entry.1 key → ¬Names later.1 key
  has : ∀ entry ∈ entries, ∀ key, Names entry.1 key → config.HasValue key entry.2
  keeps : ∀ key, LeavesOut entries key → config.AgreesAt base key

/-- The settings that a document holds. One without a value holds the defaults. -/
inductive Holds (document : Text) : Config → Prop where
  | comments (read : Yaml.read? document = some none) : Holds document {}
  | absent (read : Yaml.read? document = some (some .absent)) : Holds document {}
  | entries {entries : List (Yaml.Node × Yaml.Node)} {config : Config}
      (read : Yaml.read? document = some (some (.mapping entries))) (gives : Gives {} entries config) :
      Holds document config

/-- What a document comes to. Only a blank one, which is not read at all, and one that holds
settings that a run can use give settings; every other one is refused. -/
inductive Meaning (document : Text) : Except ConfigFault Config → Prop where
  | blank (blank : ∀ c ∈ document, Text.isBlank c = true) : Meaning document (.ok {})
  | malformed (written : ∃ c ∈ document, Text.isBlank c = false)
      (malformed : ∀ config, ¬Holds document config) : Meaning document (.error .malformed)
  | batchZero {config : Config} (written : ∃ c ∈ document, Text.isBlank c = false)
      (holds : Holds document config) (zero : config.batch = 0) :
      Meaning document (.error .batchZero)
  | maxInputBytesZero {config : Config} (written : ∃ c ∈ document, Text.isBlank c = false)
      (holds : Holds document config) (batch : config.batch ≠ 0)
      (zero : config.maxInputBytes = 0) : Meaning document (.error .maxInputBytesZero)
  | usable {config : Config} (written : ∃ c ∈ document, Text.isBlank c = false)
      (holds : Holds document config) (usable : config.Usable) : Meaning document (.ok config)

section Values

variable {config other : Config} {key : Key} {value : Yaml.Node}

theorem AgreesAt.symm (h : config.AgreesAt other key) : other.AgreesAt config key := by
  cases key <;> exact Eq.symm h

theorem AgreesAt.trans {third : Config} (h : config.AgreesAt other key)
    (h' : other.AgreesAt third key) : config.AgreesAt third key := by
  cases key <;> exact Eq.trans h h'

theorem HasValue.congr (h : other.HasValue key value) (hagrees : config.AgreesAt other key) :
    config.HasValue key value := by
  cases h with
  | noSeed null seed => exact .noSeed null (Eq.trans hagrees seed)
  | seed number seed => exact .seed number (Eq.trans hagrees seed)
  | batch number =>
      rw [← show config.batch = other.batch from hagrees] at number
      exact .batch number
  | format plain =>
      rw [← show config.format = other.format from hagrees]
      exact .format plain
  | maxInputBytes number =>
      rw [← show config.maxInputBytes = other.maxInputBytes from hagrees] at number
      exact .maxInputBytes number

/-- The settings with what others have under a key. -/
def take (config other : Config) : Key → Config
  | .seed => { config with seed := other.seed }
  | .batch => { config with batch := other.batch }
  | .format => { config with format := other.format }
  | .maxInputBytes => { config with maxInputBytes := other.maxInputBytes }

variable {base : Config}

end Values

section Entries

variable {base config : Config} {done : List Key} {entries : List (Yaml.Node × Yaml.Node)}

section Scalar

variable {plain : Bool} {name : Text} {value : Yaml.Node}

end Scalar

end Entries

section Document

variable {document : Text} {config : Config}

end Document

end Config

end PromptDraw
