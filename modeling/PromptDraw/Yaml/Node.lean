import PromptDraw.Yaml.Token

/-!
YAML documents as trees. Reading gives nothing for a malformed document; more
than one document counts as malformed.
-/

namespace PromptDraw

namespace Yaml

/-- A value in a document. Comments and the style of collections are not kept. -/
inductive Node where
  /-- A scalar, `plain` if it is written without quotes. -/
  | scalar (plain : Bool) (text : Text)
  | sequence (items : List Node)
  | mapping (entries : List (Node × Node))

namespace Node

def absent : Node := .scalar true []

/-- What a reader of tokens gives: a value and the tokens after it. -/
abbrev Reader (α : Type) := List Token → Option (α × List Token)

/-- Whether a list of tokens is at its end or starts with one of the given. -/
def startsWith (ends : List Token) : List Token → Bool
  | [] => true
  | token :: _ => ends.contains token

mutual

/-- Reads a value. Collections in block style are allowed where `block` holds,
and a sequence that is not indented where `flush` holds too. -/
def read? (block flush : Bool) : (fuel : Nat) → Reader Node
  | 0, _ => none
  | _ + 1, [] => none
  | fuel + 1, token :: rest =>
    match token with
    | .scalar plain text => some (.scalar plain text, rest)
    | .flowSequenceStart => (flowItems? true fuel rest).map fun (items, rest) => (.sequence items, rest)
    | .flowMappingStart =>
      (flowEntries? true fuel rest).map fun (entries, rest) => (.mapping entries, rest)
    | .blockSequenceStart =>
      if block then (blockItems? fuel rest).map fun (items, rest) => (.sequence items, rest)
      else none
    | .blockMappingStart =>
      if block then (blockEntries? fuel rest).map fun (entries, rest) => (.mapping entries, rest)
      else none
    | .blockEntry =>
      if flush then
        (flushItems? fuel (token :: rest)).map fun (items, rest) => (.sequence items, rest)
      else none
    | _ => none

/-- Reads a value, or takes it as absent before one of the given tokens. -/
def optional? (block flush : Bool) (ends : List Token) : (fuel : Nat) → Reader Node
  | 0, _ => none
  | fuel + 1, tokens =>
    if startsWith ends tokens then some (absent, tokens) else read? block flush fuel tokens

def blockItems? : (fuel : Nat) → Reader (List Node)
  | 0, _ => none
  | fuel + 1, .blockEntry :: rest => do
    let (item, rest) ← optional? true false [.blockEntry, .blockEnd] fuel rest
    let (items, rest) ← blockItems? fuel rest
    return (item :: items, rest)
  | _ + 1, .blockEnd :: rest => some ([], rest)
  | _ + 1, _ => none

/-- Reads the items of a sequence that is not indented. -/
def flushItems? : (fuel : Nat) → Reader (List Node)
  | 0, _ => none
  | fuel + 1, .blockEntry :: rest => do
    let (item, rest) ← optional? true false [.blockEntry, .key, .value, .blockEnd] fuel rest
    let (items, rest) ← flushItems? fuel rest
    return (item :: items, rest)
  | _ + 1, rest => some ([], rest)

/-- Reads the value of an entry, which is absent where no colon stands. -/
def entryValue? (block : Bool) (ends : List Token) : (fuel : Nat) → Reader Node
  | 0, _ => none
  | fuel + 1, .value :: rest => optional? block block ends fuel rest
  | _ + 1, rest => some (absent, rest)

def blockEntries? : (fuel : Nat) → Reader (List (Node × Node))
  | 0, _ => none
  | fuel + 1, .key :: rest => do
    let (key, rest) ← optional? true true [.key, .value, .blockEnd] fuel rest
    let (value, rest) ← entryValue? true [.key, .value, .blockEnd] fuel rest
    let (entries, rest) ← blockEntries? fuel rest
    return ((key, value) :: entries, rest)
  | _ + 1, .blockEnd :: rest => some ([], rest)
  | _ + 1, _ => none

/-- Reads the items of a sequence in flow style. An item with a colon is a
mapping of one entry. -/
def flowItems? (first : Bool) : (fuel : Nat) → Reader (List Node)
  | 0, _ => none
  | _ + 1, .flowSequenceEnd :: rest => some ([], rest)
  | fuel + 1, tokens => do
    let tokens ←
      if first then some tokens
      else match tokens with
        | .flowEntry :: rest => some rest
        | _ => none
    match tokens with
    | .flowSequenceEnd :: rest => return ([], rest)
    | .key :: rest =>
      let (key, rest) ← optional? false false [.value, .flowEntry, .flowSequenceEnd] fuel rest
      let (value, rest) ← entryValue? false [.flowEntry, .flowSequenceEnd] fuel rest
      let (items, rest) ← flowItems? false fuel rest
      return (.mapping [(key, value)] :: items, rest)
    | tokens =>
      let (item, rest) ← read? false false fuel tokens
      let (items, rest) ← flowItems? false fuel rest
      return (item :: items, rest)

def flowEntries? (first : Bool) : (fuel : Nat) → Reader (List (Node × Node))
  | 0, _ => none
  | _ + 1, .flowMappingEnd :: rest => some ([], rest)
  | fuel + 1, tokens => do
    let tokens ←
      if first then some tokens
      else match tokens with
        | .flowEntry :: rest => some rest
        | _ => none
    match tokens with
    | .flowMappingEnd :: rest => return ([], rest)
    | .key :: rest =>
      let (key, rest) ← optional? false false [.value, .flowEntry, .flowMappingEnd] fuel rest
      let (value, rest) ← entryValue? false [.flowEntry, .flowMappingEnd] fuel rest
      let (entries, rest) ← flowEntries? false fuel rest
      return ((key, value) :: entries, rest)
    | tokens =>
      let (key, rest) ← read? false false fuel tokens
      let (entries, rest) ← flowEntries? false fuel rest
      return ((key, absent) :: entries, rest)

end

def document? (fuel : Nat) (tokens : List Token) : Option (Node × List Token) :=
  optional? true false [.documentStart, .documentEnd] fuel tokens

/-- The value of a document that some tokens make up; the inner option is empty
if there is no document. -/
def ofTokens? (tokens : List Token) : Option (Option Node) := do
  let fuel := 3 * tokens.length + 3
  match tokens with
  | [] => return none
  | .documentStart :: rest =>
    let (node, rest) ← document? fuel rest
    if rest.all (· == .documentEnd) then return some node else none
  | tokens =>
    let (node, rest) ← read? true false fuel tokens
    if rest.all (· == .documentEnd) then return some node else none

end Node

/-- Reads a document. The inner option is empty if it holds nothing but
comments. -/
def read? (s : Text) : Option (Option Node) := do
  let tokens ← tokens? s
  Node.ofTokens? tokens

end Yaml

end PromptDraw
