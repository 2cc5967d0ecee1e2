import PromptDraw.CommandLine.Basic

/-!
Reading a command line. Words are read from left to right. An option whose value
is a word of its own waits for it, and even then takes effect only when the next
argument does, so that of two faults the one that a word shows by itself is
reported first. Behind `--` every word is a prompt file.

The options of the whole program may stand before or behind the command; behind
it they replace what was said before it.
-/

namespace PromptDraw

/-- What a word or a part of a word can give. -/
inductive Argument where
  | config
  | verbose
  | file
  | text
  | json
  | seed
  | batch
  | help
  | version
deriving DecidableEq, Repr

namespace Argument

def all : List Argument :=
  [config, verbose, file, text, json, seed, batch, help, version]

/-- The name behind two dashes. The prompt file has none. -/
def long? : Argument → Option String
  | config => some "config"
  | verbose => some "verbose"
  | file => none
  | text => some "text"
  | json => some "json"
  | seed => some "seed"
  | batch => some "batch"
  | help => some "help"
  | version => some "version"

/-- The letter behind one dash. -/
def short? : Argument → Option Char
  | verbose => some 'v'
  | text => some 't'
  | batch => some 'n'
  | help => some 'h'
  | version => some 'V'
  | config | file | json | seed => none

def takesValue : Argument → Bool
  | config | file | text | seed | batch => true
  | verbose | json | help | version => false

/-- Whether an argument is known behind a command, or before any command. -/
def isKnown (command : Option CommandName) : Argument → Bool
  | config | verbose | help | version => true
  | file | text | json => command.isSome
  | seed | batch => command == some .expand

def ofLong? (command : Option CommandName) (name : String) : Option Argument :=
  all.find? fun argument => argument.isKnown command && argument.long? == some name

def ofShort? (command : Option CommandName) (letter : Char) : Option Argument :=
  all.find? fun argument => argument.isKnown command && argument.short? == some letter

end Argument

/-- What the words before a command, or those behind it, give. -/
structure Given where
  config : Option String := none
  verbose : Option Nat := none
  file : Option String := none
  text : Option String := none
  json : Bool := false
  seed : Option UInt64 := none
  batch : Option UInt32 := none
deriving DecidableEq, Repr

namespace Given

def decimal? (digits : List Char) : Option Nat :=
  if digits ≠ [] ∧ digits.all Char.isDigit then some (Nat.ofDigitChars 10 digits 0) else none

/-- A number below `limit` that may have a plus sign and leading zeros. -/
def unsigned? (limit : Nat) (value : String) : Option Nat :=
  let digits :=
    match value.toList with
    | '+' :: digits => digits
    | digits => digits
  (decimal? digits).filter (· < limit)

/-- A number below `limit` as `unsigned?` reads it, or zero behind a minus sign. -/
def signed? (limit : Nat) (value : String) : Option Nat :=
  match value.toList with
  | '-' :: digits => (decimal? digits).filter (· = 0)
  | _ => unsigned? limit value

/-- A value that may be given once and is then read. -/
def once {α : Type} (before : Option α) (value : Option String)
    (read : String → Except Usage α) : Except Usage (Option α) :=
  match value with
  | none => .error .missingValue
  | some value => if before.isSome then .error .conflict else (read value).map some

def path (value : String) : Except Usage String :=
  if value.isEmpty then .error .missingValue else .ok value

def add (command : Option CommandName) (given : Given) (argument : Argument)
    (value : Option String) : Except Usage Given :=
  match argument with
  | .config => (once given.config value path).map fun config => { given with config }
  | .verbose => .ok { given with verbose := some (given.verbose.getD 0 + 1) }
  | .file => (once given.file value path).map fun file => { given with file }
  | .text => (once given.text value .ok).map fun text => { given with text }
  | .json => if given.json then .error .conflict else .ok { given with json := true }
  | .seed =>
    (once given.seed value fun value =>
      match unsigned? UInt64.size value with
      | some n => .ok (UInt64.ofNat n)
      | none => .error .malformedValue).map fun seed => { given with seed }
  | .batch =>
    (once given.batch value fun value =>
      match signed? UInt32.size value with
      | some n => .ok (UInt32.ofNat n)
      | none => .error .malformedValue).map fun batch => { given with batch }
  | .help => .error .help
  | .version => .error (.version command)

end Given

/-- The state of reading the words before a command, or those behind it. -/
structure Reading where
  given : Given := {}
  /-- The argument that has not taken effect yet, with its value if it has come. -/
  pending : Option (Argument × Option String) := none
  trailing : Bool := false

namespace Reading

variable (command : Option CommandName)

/-- Whether the next word may be the value of an option. -/
def isWaiting (r : Reading) : Bool :=
  match r.pending with
  | some (_, none) => true
  | _ => false

def hasFile (r : Reading) : Bool :=
  r.given.file.isSome || r.pending.any (·.1 == .file)

/-- Lets the pending argument take effect. -/
def settle (r : Reading) : Except Usage Reading :=
  match r.pending with
  | none => .ok r
  | some (argument, value) => do
    let given ← r.given.add command argument value
    return { r with given, pending := none }

/-- Lets an argument take effect at once. -/
def give (r : Reading) (argument : Argument) (value : Option String) : Except Usage Reading := do
  let r ← r.settle command
  let given ← r.given.add command argument value
  return { r with given }

/-- Keeps an argument until the next one takes effect. -/
def hold (r : Reading) (argument : Argument) (value : Option String) : Except Usage Reading := do
  let r ← r.settle command
  return { r with pending := some (argument, value) }

def long (r : Reading) (body : List Char) : Except Usage Reading :=
  let name := String.ofList (body.takeWhile (· ≠ '='))
  let value :=
    match body.dropWhile (· ≠ '=') with
    | [] => none
    | _ :: value => some (String.ofList value)
  match Argument.ofLong? command name with
  | none => .error .unknownArgument
  | some argument =>
    if argument.takesValue then
      match value with
      | some value => r.give command argument (some value)
      | none => r.hold command argument none
    else
      match value with
      | some _ => .error .unwantedValue
      | none => r.give command argument none

/-- Reads the letters behind one dash. The first that takes a value takes the
letters after it, with or without an equals sign between. -/
def short (r : Reading) : List Char → Except Usage Reading
  | [] => .ok r
  | letter :: rest =>
    match Argument.ofShort? command letter with
    | none => .error .unknownArgument
    | some argument =>
      if argument.takesValue then
        match rest with
        | [] => r.hold command argument none
        | '=' :: value => r.give command argument (some (String.ofList value))
        | value => r.give command argument (some (String.ofList value))
      else do
        let r ← r.give command argument none
        short r rest

/-- The words that choose a command or ask for help about one. -/
def isCommandWord (word : String) : Bool :=
  word = "help" || (CommandName.ofName? word).isSome

/-- Reads a word that is neither an option nor the value of one. -/
def positional (r : Reading) (word : String) : Except Usage Reading :=
  if command.isSome then
    if r.hasFile then .error .unknownArgument
    else r.hold command .file (some word)
  else if r.trailing && isCommandWord word then .error .unknownArgument
  else .error .unknownCommand

def word (r : Reading) (word : String) : Except Usage Reading :=
  if r.trailing then r.positional command word
  else
    match word.toList with
    | ['-', '-'] => .ok { r with trailing := true }
    | '-' :: '-' :: body => r.long command body
    | '-' :: letter :: letters => r.short command (letter :: letters)
    | _ =>
      match r.pending with
      | some (argument, none) => .ok { r with pending := some (argument, some word) }
      | _ => r.positional command word

def finish (r : Reading) : Except Usage Given := do
  let r ← r.settle command
  if r.given.text.isSome && r.given.file.isSome then .error .conflict
  return r.given

end Reading

namespace Invocation

/-- Reads the words behind `help`: nothing, or the one word whose help is asked
for. -/
def readHelp : List String → Usage
  | [] => .help
  | [word] => if Reading.isCommandWord word then .help else .unknownCommand
  | _ => .unknownCommand

/-- What a command asks for, given what stands before it and behind it. -/
def ofGiven (outer : Given) (command : CommandName) (inner : Given) : Invocation :=
  let prompt : PromptRequest := ⟨inner.file, inner.text, inner.json⟩
  { config := inner.config <|> outer.config
    verbosity := min 255 ((inner.verbose <|> outer.verbose).getD 0)
    command :=
      match command with
      | .expand => .expand prompt inner.seed inner.batch
      | .preview => .preview prompt
      | .tokens => .tokens prompt }

def readCommand (command : CommandName) (words : List String) : Except Usage Given := do
  let r ← words.foldlM (fun r word => Reading.word (some command) r word) {}
  r.finish (some command)

/-- Reads the words from a place before the command on. -/
def readFrom (r : Reading) : List String → Except Usage Invocation
  | [] => do
    let given ← r.finish none
    .error (if given = {} then .nothingGiven else .missingCommand)
  | word :: rest =>
    if r.trailing || r.isWaiting then do
      let r ← r.word none word
      readFrom r rest
    else if word = "help" then .error (readHelp rest)
    else
      match CommandName.ofName? word with
      | some command => do
        let inner ← readCommand command rest
        let outer ← r.finish none
        return ofGiven outer command inner
      | none => do
        let r ← r.word none word
        readFrom r rest

def ofWords (words : List String) : Except Usage Invocation :=
  readFrom {} words

end Invocation

end PromptDraw
