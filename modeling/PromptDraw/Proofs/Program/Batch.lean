import Mathlib.Logic.Function.Iterate
import PromptDraw.Proofs.Program.Steps
import PromptDraw.Proofs.Prompt.Positions

/-!
A batch is one stream of expansions. Each expansion starts from the state that the one
before it left, and how many are to follow makes no difference to it. So a larger batch
begins with every smaller one, in its records as in its printed text.
-/

namespace PromptDraw

variable {σ : Type} [IndexSource σ]

namespace Text

/-- The state that some expansions of a prompt, one after the other, leave behind. -/
def stateAfter (s : Text) (g : σ) (expansions : Nat) : σ :=
  (fun g => (s.expand.run g).2)^[expansions] g

theorem stateAfter_succ (s : Text) (g : σ) (expansions : Nat) :
    s.stateAfter g (expansions + 1) = s.stateAfter (s.expand.run g).2 expansions := rfl

theorem stateAfter_congr {s s' : Text} (h : s.candidateCounts = s'.candidateCounts) (g : σ)
    (expansions : Nat) : s.stateAfter g expansions = s'.stateAfter g expansions := by
  induction expansions generalizing g with
  | zero => rfl
  | succ expansions ih => rw [stateAfter_succ, stateAfter_succ, state_expand_congr h, ih]

end Text

namespace Resolution

/-- One of the successive expansions of a prompt, the first of which has number 0. -/
def numbered (s : Text) (g : σ) (number : Nat) : Resolution :=
  ⟨s, (s.expand.run (s.stateAfter g number)).1⟩

theorem run_batch (s : Text) (n : Nat) (g : σ) :
    (batch s n).run g = ((List.range n).map (numbered s g), s.stateAfter g n) := by
  induction n generalizing g with
  | zero => rfl
  | succ n ih =>
      -- The others are numbered anew from the state that the first one leaves.
      have hrest := ih (s.expand.run g).2
      have hnumbered : (List.range n).map (numbered s (s.expand.run g).2) =
          (List.range n).map (numbered s g ∘ Nat.succ) := rfl
      rw [batch, run_state_bind, random, run_state_bind, run_state_pure, run_state_bind,
        run_state_pure, hrest, List.range_succ_eq_map, List.map_cons, List.map_map, hnumbered]
      rfl

theorem take_batch (s : Text) (g : σ) {m n : Nat} (h : m ≤ n) :
    (((batch s n).run g).1).take m = ((batch s m).run g).1 := by
  rw [run_batch, run_batch, ← List.map_take, List.take_range, Nat.min_eq_left h]

theorem length_batch (s : Text) (g : σ) (n : Nat) : ((batch s n).run g).1.length = n := by
  rw [run_batch, List.length_map, List.length_range]

end Resolution

/-- Joining more texts goes on behind the separator. -/
theorem Text.intercalate_append (separator : Text) {texts others : List Text} (h : texts ≠ [])
    (h' : others ≠ []) :
    separator.intercalate (texts ++ others) =
      separator.intercalate texts ++ separator ++ separator.intercalate others := by
  induction texts with
  | nil => exact absurd rfl h
  | cons text rest ih =>
      cases rest with
      | nil =>
          rw [List.singleton_append, List.intercalate_cons_of_ne_nil h', List.intercalate_singleton,
            List.append_assoc]
      | cons next rest =>
          have hmore : next :: rest ++ others ≠ [] := by simp
          rw [List.cons_append, List.intercalate_cons_of_ne_nil hmore, ih (List.cons_ne_nil _ _),
            List.intercalate_cons_cons]
          simp only [List.append_assoc]

/-- Printed as text, a larger batch goes on behind a divider where a smaller one ends. -/
theorem Resolution.renderBatch_of_lt (s : Text) (g : σ) {m n : Nat} (hm : 1 ≤ m) (h : m < n) :
    renderBatch .text ((batch s n).run g).1 =
      renderBatch .text ((batch s m).run g).1 ++ divider ++
        renderBatch .text (((batch s n).run g).1.drop m) := by
  have hsplit : ((batch s n).run g).1 = ((batch s m).run g).1 ++ ((batch s n).run g).1.drop m := by
    rw [← take_batch s g (Nat.le_of_lt h), List.take_append_drop]
  have hfirst : ((batch s m).run g).1.map resolved ≠ [] := by
    intro hnil
    have hlength := length_batch s g m
    rw [List.map_eq_nil_iff.1 hnil, List.length_nil] at hlength
    omega
  have hothers : (((batch s n).run g).1.drop m).map resolved ≠ [] := by
    intro hnil
    have hlength := length_batch s g n
    have hdrop := List.drop_eq_nil_iff.1 (List.map_eq_nil_iff.1 hnil)
    omega
  calc renderBatch .text ((batch s n).run g).1
      = divider.intercalate (((batch s m).run g).1.map resolved ++
          (((batch s n).run g).1.drop m).map resolved) := by
        rw [← List.map_append, ← hsplit]
        rfl
    _ = _ := Text.intercalate_append divider hfirst hothers

/-- A run of `expand` that can read its prompt and write: it prints what `size` expansions
make of a text. -/
structure ExpandRun (text : Text) (size : Nat) where
  host : Host
  config : Config
  prompt : PromptRequest
  seedOption : Option UInt64
  batchOption : Option UInt32
  accepts : host.acceptsOutput = true
  reads : PromptInput.read host config.maxInputBytes.toNat prompt = .ok (String.ofList text)
  sized : (batchOption.getD config.batch).toNat = size

namespace ExpandRun

variable {text : Text} {size : Nat}

def command (e : ExpandRun text size) : Command :=
  .expand e.prompt e.seedOption e.batchOption

def run (e : ExpandRun text size) : Run Unit :=
  e.command.step e.host e.config

def format (e : ExpandRun text size) : OutputFormat :=
  e.prompt.format e.config

/-- The generator that the run draws from. -/
def source (e : ExpandRun text size) : Generator :=
  Command.source e.host (e.seedOption <|> e.config.seed)

theorem run_eq (e : ExpandRun text size) (hsize : 1 ≤ size) :
    e.run.result = .ok () ∧
      e.run.output =
        Resolution.renderBatch e.format ((Resolution.batch text size).run e.source).1 ++
          ['\n'] := by
  have hsome : ¬e.command.AsksForNone e.config := by
    intro hzero
    have hsized := e.sized
    rw [show e.batchOption.getD e.config.batch = 0 from hzero] at hsized
    exact absurd hsize (by rw [← hsized]; decide)
  obtain ⟨hresult, houtput⟩ := Command.step_of_read e.reads hsome
  have hreport : e.command.report e.host e.config text = Resolution.renderBatch e.format
      ((Resolution.batch text size).run e.source).1 := by
    rw [command, Command.report, e.sized]
    rfl
  rw [Host.write_of_accepts e.accepts, String.toList_ofList, hreport] at hresult houtput
  exact ⟨hresult, houtput⟩

/-- For every text that a word can measure, every generator and every size there is a run. -/
def inline (text : Text) (g : Generator) (batch : UInt32)
    (h : (String.ofList text).utf8ByteSize ≤ PromptInput.maxRead) :
    ExpandRun text batch.toNat where
  host := { Host.bare with entropy := g }
  config := { maxInputBytes := UInt64.ofNat PromptInput.maxRead }
  prompt := { text := some (String.ofList text) }
  seedOption := none
  batchOption := some batch
  accepts := Host.accepts_bare
  reads := PromptInput.read_argument _ false h
  sized := rfl

end ExpandRun

/-- A run of `expand` whose draws a seed governs. -/
structure SeededRun (text : Text) (seed : UInt64) (size : Nat) extends ExpandRun text size where
  seeded : (seedOption <|> config.seed) = some seed

namespace SeededRun

variable {text : Text} {seed : UInt64} {size : Nat}

theorem run_eq (e : SeededRun text seed size) (hsize : 1 ≤ size) :
    e.run.result = .ok () ∧
      e.run.output = Resolution.renderBatch e.format
        ((Resolution.batch text size).run (Generator.ofSeed seed)).1 ++ ['\n'] := by
  have hsource : e.toExpandRun.source = Generator.ofSeed seed := by
    rw [ExpandRun.source, e.seeded]
    rfl
  rw [← hsource]
  exact e.toExpandRun.run_eq hsize

/-- For every text that a word can measure, every seed and every size there is a run. -/
def inline (text : Text) (seed : UInt64) (batch : UInt32)
    (h : (String.ofList text).utf8ByteSize ≤ PromptInput.maxRead) :
    SeededRun text seed batch.toNat where
  host := Host.bare
  config := { seed := some seed, maxInputBytes := UInt64.ofNat PromptInput.maxRead }
  prompt := { text := some (String.ofList text) }
  seedOption := none
  batchOption := some batch
  accepts := rfl
  reads := if_neg (Nat.not_lt_of_le h)
  seeded := rfl
  sized := rfl

/-- A seeded batch is one stream, of which a smaller batch is the beginning. What a
command prints are the records of its batch; these are the successive expansions of the
text from one generator, which a seed fixes; a smaller batch has the first of them; and
printed as text it is what the larger one begins with, before a divider. The state that
an expansion starts from depends, besides the seed and the expansions before, on the
numbers of candidates alone. -/
theorem batch_is_one_stream {m n : Nat} (e : SeededRun text seed m) (e' : SeededRun text seed n)
    (hm : 1 ≤ m) (hmn : m ≤ n) :
    let g := Generator.ofSeed seed
    let records := fun size => ((Resolution.batch text size).run g).1
    (e'.run.result = .ok () ∧
      e'.run.output = Resolution.renderBatch e'.format (records n) ++ ['\n']) ∧
    records n = (List.range n).map
      (fun i => ⟨text, (text.expand.run (text.stateAfter g i)).1⟩) ∧
    records m = (records n).take m ∧
    (e.format = .text → e'.format = .text → ∃ body, e.run.output = body ++ ['\n'] ∧
      (m = n → e'.run.output = body ++ ['\n']) ∧
      (m < n → ∃ more, e'.run.output = body ++ ['\n', '-', '-', '-', '\n'] ++ more)) ∧
    ∀ text' : Text, text'.candidateCounts = text.candidateCounts → ∀ i,
      text'.stateAfter g i = text.stateAfter g i := by
  intro g records
  have htake : (records n).take m = records m := Resolution.take_batch text g hmn
  have hrecords : records n = (List.range n).map (Resolution.numbered text g) :=
    congrArg Prod.fst (Resolution.run_batch text n g)
  refine ⟨e'.run_eq (hm.trans hmn), hrecords, htake.symm, ?_, ?_⟩
  · intro hformat hformat'
    obtain ⟨-, houtput⟩ := e.run_eq hm
    obtain ⟨-, houtput'⟩ := e'.run_eq (hm.trans hmn)
    rw [hformat] at houtput
    rw [hformat'] at houtput'
    refine ⟨Resolution.renderBatch .text (records m), houtput, ?_, ?_⟩
    · rintro rfl
      exact houtput'
    · intro hlt
      refine ⟨Resolution.renderBatch .text ((records n).drop m) ++ ['\n'], ?_⟩
      rw [houtput', Resolution.renderBatch_of_lt text g hm hlt, List.append_assoc]
      rfl
  · intro text' hcounts i
    exact Text.stateAfter_congr hcounts g i

/-- One expansion and two of a text with two blocks, of which only one is drawn. -/
theorem batch_is_one_stream_once_and_twice :
    let text : Text := "{{a,b}}(1) {{c}}(0)".toList
    ∃ (e : SeededRun text 7 1) (e' : SeededRun text 7 2), 1 ≤ 1 ∧ 1 ≤ 2 ∧
      ∃ body more, e.run.output = body ++ ['\n'] ∧
        e'.run.output = body ++ ['\n', '-', '-', '-', '\n'] ++ more := by
  intro text
  have hsize : (String.ofList text).utf8ByteSize ≤ PromptInput.maxRead := by decide +kernel
  let e : SeededRun text 7 1 := inline text 7 1 hsize
  let e' : SeededRun text 7 2 := inline text 7 2 hsize
  obtain ⟨-, -, -, hprinted, -⟩ := batch_is_one_stream e e' (by decide) (by decide)
  obtain ⟨body, houtput, -, hmore⟩ := hprinted rfl rfl
  obtain ⟨more, houtput'⟩ := hmore (by decide)
  exact ⟨e, e', by decide, by decide, body, more, houtput, houtput'⟩

end SeededRun

end PromptDraw
