import PromptDraw.Proofs.Json.Reading
import PromptDraw.Proofs.Program.Batch

/-!
What is printed as JSON is what is printed as text. The records and the reports that a
command prints are taken out of the JSON again, by readers that know no more than the
keys of an object and take these in any order.
-/

namespace PromptDraw

namespace Json

/-- The values of an object that has exactly the given keys, in the order of these. -/
def values? (keys : List String) : Json → Option (List Json)
  | object entries =>
    if (entries.map Prod.fst).isPerm (keys.map String.toList) then
      keys.mapM fun key => (entries.find? fun entry => entry.1 == key.toList).map Prod.snd
    else none
  | _ => none

def listOf? {α : Type} (decode : Json → Option α) : Json → Option (List α)
  | array items => items.mapM decode
  | _ => none

def text? : Json → Option Text
  | string value => some value
  | _ => none

theorem listOf?_map {α β : Type} {decode : Json → Option α} {encode : β → Json} {value : β → α}
    (h : ∀ b, decode (encode b) = some (value b)) (items : List β) :
    listOf? decode (array (items.map encode)) = some (items.map value) := by
  rw [listOf?]
  induction items with
  | nil => rfl
  | cons item items ih =>
      rw [List.map_cons, List.mapM_cons, h, ih]
      rfl

end Json

namespace Resolution

/-- A record and what it says about whether its prompt changed. -/
def ofJson? (j : Json) : Option (Resolution × Bool) :=
  match j.values? ["original", "resolved", "changed"] with
  | some [.string original, .string resolved, .bool changed] => some (⟨original, resolved⟩, changed)
  | _ => none

theorem ofJson?_json (e : Resolution) : ofJson? e.json = some (e, e.changed) := rfl

theorem changed_eq (text resolved : Text) :
    changed ⟨text, resolved⟩ = decide (resolved ≠ text) := by
  simp only [changed, ne_comm]

end Resolution

def Outcome.ofName? (name : Text) : Option Outcome :=
  [substituted, empty, unchanged].find? fun outcome => outcome.name == name

namespace Report

def ofJson? (j : Json) : Option Report :=
  match j.values? ["span", "text", "count", "candidates", "separator", "outcome"] with
  | some [span, .string text, .number count, candidates, .string separator, .string outcome] =>
    match span.values? ["start", "end"] with
    | some [.number start, .number stop] => do
      let candidates ← Json.listOf? Json.text? candidates
      let outcome ← Outcome.ofName? outcome
      return { start, stop, text, count, candidates, separator, outcome }
    | _ => none
  | _ => none

theorem ofJson?_json (report : Report) : ofJson? report.json = some report := by
  have hcandidates : Json.listOf? Json.text? (.array (report.candidates.map .string)) =
      some report.candidates := by
    have hstring (t : Text) : Json.text? (.string t) = some (id t) := rfl
    rw [Json.listOf?_map hstring, List.map_id]
  have houtcome : Outcome.ofName? report.outcome.name = some report.outcome := by
    cases report.outcome <;> rfl
  change ((Json.listOf? Json.text? (.array (report.candidates.map .string))).bind fun candidates =>
    (Outcome.ofName? report.outcome.name).bind fun outcome =>
      some { report with candidates, outcome }) = some report
  rw [hcandidates, houtcome]
  rfl

end Report

/-- A run of a command that draws nothing, and that can read its prompt and write. -/
structure PlainRun (text : Text) where
  host : Host
  config : Config
  prompt : PromptRequest
  accepts : host.acceptsOutput = true
  reads : PromptInput.read host config.maxInputBytes.toNat prompt = .ok (String.ofList text)

namespace PlainRun

variable {text : Text}

def format (e : PlainRun text) : OutputFormat :=
  e.prompt.format e.config

def preview (e : PlainRun text) : Run Unit :=
  (Command.preview e.prompt).step e.host e.config

def tokens (e : PlainRun text) : Run Unit :=
  (Command.tokens e.prompt).step e.host e.config

theorem preview_eq (e : PlainRun text) :
    e.preview.result = .ok () ∧
      e.preview.output = (Resolution.preview text).render e.format ++ ['\n'] := by
  have hsome : ¬(Command.preview e.prompt).AsksForNone e.config := id
  obtain ⟨hresult, houtput⟩ := Command.step_of_read e.reads hsome
  rw [Host.write_of_accepts e.accepts, String.toList_ofList] at hresult houtput
  exact ⟨hresult, houtput⟩

theorem tokens_eq (e : PlainRun text) :
    e.tokens.result = .ok () ∧
      e.tokens.output = Report.renderAll e.format text.reports ++ ['\n'] := by
  have hsome : ¬(Command.tokens e.prompt).AsksForNone e.config := id
  obtain ⟨hresult, houtput⟩ := Command.step_of_read e.reads hsome
  rw [Host.write_of_accepts e.accepts, String.toList_ofList] at hresult houtput
  exact ⟨hresult, houtput⟩

end PlainRun

/-- A run of a command that draws nothing, on a host that has no files. -/
def PlainRun.inline (text : Text) (json : Bool)
    (h : (String.ofList text).utf8ByteSize ≤ PromptInput.maxRead) : PlainRun text where
  host := Host.bare
  config := { maxInputBytes := UInt64.ofNat PromptInput.maxRead }
  prompt := { text := some (String.ofList text), json }
  accepts := Host.accepts_bare
  reads := if_neg (Nat.not_lt_of_le h)

namespace Resolution

theorem decode_renderBatch (text : Text) (seed : UInt64) (n : Nat) :
    let records := ((batch text n).run (Generator.ofSeed seed)).1
    (Json.read? (renderBatch .json records)).bind (Json.listOf? ofJson?) =
      some ((records.map resolved).map fun resolved =>
        (⟨text, resolved⟩, decide (resolved ≠ text))) := by
  intro records
  have hprompt : ∀ record ∈ records, record.prompt = text := by
    intro record hrecord
    rw [show records = _ from congrArg Prod.fst (run_batch text n _)] at hrecord
    obtain ⟨number, -, rfl⟩ := List.mem_map.1 hrecord
    rfl
  rw [renderBatch, Json.read?_compact, Option.bind_some, Json.listOf?_map ofJson?_json,
    List.map_map]
  refine congrArg some (List.map_congr_left fun record hrecord => ?_)
  obtain rfl := hprompt record hrecord
  exact congrArg _ (changed_eq record.prompt record.resolved)

end Resolution

section Agreement

variable {text : Text} {seed : UInt64} {n : Nat}

/-- Text and JSON carry the same results. What `expand` prints as JSON is one line, from
which its records are read, one for each expansion: the prompt, what it was resolved to
and whether this differs. The same run prints as text what they were resolved to, with
dividers between. It is the same with `preview`, which prints one such record. What
`tokens` prints as JSON is read as the reports on the prompt. -/
theorem renderings_carry_the_same_results (hn : 1 ≤ n) (json plain : SeededRun text seed n)
    (hjson : json.format = .json) (hplain : plain.format = .text) (json' plain' : PlainRun text)
    (hjson' : json'.format = .json) (hplain' : plain'.format = .text) :
    (∃ (line : Text) (resolved : List Text), resolved.length = n ∧
      json.run.result = .ok () ∧ json.run.output = line ++ ['\n'] ∧ (∀ c ∈ line, ¬c < ' ') ∧
      (Json.read? line).bind (Json.listOf? Resolution.ofJson?) =
        some (resolved.map fun r => (⟨text, r⟩, decide (r ≠ text))) ∧
      plain.run.result = .ok () ∧
      plain.run.output = ['\n', '-', '-', '-', '\n'].intercalate resolved ++ ['\n']) ∧
    (∃ line resolved : Text,
      json'.preview.result = .ok () ∧ json'.preview.output = line ++ ['\n'] ∧
      (∀ c ∈ line, ¬c < ' ') ∧
      (Json.read? line).bind Resolution.ofJson? =
        some (⟨text, resolved⟩, decide (resolved ≠ text)) ∧
      plain'.preview.result = .ok () ∧ plain'.preview.output = resolved ++ ['\n']) ∧
    ∃ body : Text,
      json'.tokens.result = .ok () ∧ json'.tokens.output = body ++ ['\n'] ∧
      (Json.read? body).bind (Json.listOf? Report.ofJson?) = some text.reports := by
  refine ⟨?_, ?_, ?_⟩
  · obtain ⟨hresult, houtput⟩ := json.run_eq hn
    obtain ⟨hresult', houtput'⟩ := plain.run_eq hn
    rw [hjson] at houtput
    rw [hplain] at houtput'
    let records := ((Resolution.batch text n).run (Generator.ofSeed seed)).1
    have hlength : (records.map Resolution.resolved).length = n := by
      rw [List.length_map, Resolution.length_batch]
    exact ⟨Resolution.renderBatch .json records, records.map Resolution.resolved, hlength,
      hresult, houtput, fun _ => Json.not_control_of_mem_compact,
      Resolution.decode_renderBatch text seed n, hresult', houtput'⟩
  · obtain ⟨hresult, houtput⟩ := json'.preview_eq
    obtain ⟨hresult', houtput'⟩ := plain'.preview_eq
    rw [hjson'] at houtput
    rw [hplain'] at houtput'
    refine ⟨(Resolution.preview text).json.compact, text.preview, hresult, houtput,
      fun _ => Json.not_control_of_mem_compact, ?_, hresult', houtput'⟩
    rw [Json.read?_compact, Option.bind_some, Resolution.ofJson?_json]
    exact congrArg some (congrArg _ (Resolution.changed_eq text text.preview))
  · obtain ⟨hresult, houtput⟩ := json'.tokens_eq
    rw [hjson'] at houtput
    refine ⟨(Json.array (text.reports.map Report.json)).pretty 0, hresult, houtput, ?_⟩
    have hreport (report : Report) : Report.ofJson? report.json = some (id report) :=
      report.ofJson?_json
    rw [Json.read?_pretty, Option.bind_some, Json.listOf?_map hreport, List.map_id]

/-- A text with control characters and quotes, in a block and around it. -/
theorem renderings_carry_the_same_results_awkward_characters :
    let text : Text := ['\x00', '"'] ++ "{{a,b}}(2)".toList ++ ['\\', '\u2028']
    ∃ (json plain : SeededRun text 7 2) (json' plain' : PlainRun text),
      1 ≤ 2 ∧ json.format = .json ∧ plain.format = .text ∧ json'.format = .json ∧
      plain'.format = .text ∧ ∃ (line : Text) (resolved : List Text), resolved.length = 2 ∧
        json.run.output = line ++ ['\n'] ∧
        (Json.read? line).bind (Json.listOf? Resolution.ofJson?) =
          some (resolved.map fun r => (⟨text, r⟩, decide (r ≠ text))) := by
  intro text
  have hsize : (String.ofList text).utf8ByteSize ≤ PromptInput.maxRead := by decide +kernel
  let plain : SeededRun text 7 2 := SeededRun.inline text 7 2 hsize
  let json : SeededRun text 7 2 :=
    { plain with prompt := { plain.prompt with json := true }, reads := plain.reads }
  have hall := renderings_carry_the_same_results (by decide) json plain rfl rfl
    (PlainRun.inline text true hsize) (PlainRun.inline text false hsize) rfl rfl
  obtain ⟨line, resolved, hlength, -, houtput, -, hread, -⟩ := hall.1
  exact ⟨json, plain, PlainRun.inline text true hsize, PlainRun.inline text false hsize,
    by decide, rfl, rfl, rfl, rfl, line, resolved, hlength, houtput, hread⟩

end Agreement

end PromptDraw
