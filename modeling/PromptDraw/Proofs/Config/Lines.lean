import PromptDraw.Config.Document
import PromptDraw.Proofs.Config.Location
import PromptDraw.Proofs.Yaml.Lines
import PromptDraw.Proofs.Yaml.Numerals

/-!
Settings written as lines, each with a key and its value, or with a name that means
nothing here. The order of the lines does not matter, not even for which fault is
reported where several lines are at fault.
-/

namespace PromptDraw

theorem Text.utf8Size_replicate (n : Nat) (c : Char) :
    Text.utf8Size (List.replicate n c) = n * c.utf8Size := by
  induction n with
  | zero => rw [List.replicate_zero, Text.utf8Size_nil, Nat.zero_mul]
  | succ n ih => rw [List.replicate_succ, Text.utf8Size_cons, ih, Nat.succ_mul, Nat.add_comm]

namespace OutputFormat

theorem ofName?_name (format : OutputFormat) : ofName? format.name = some format := by
  cases format <;> rfl

theorem name_inj {format format' : OutputFormat} :
    format.name = format'.name ↔ format = format' := by
  refine ⟨fun h => ?_, congrArg name⟩
  exact Option.some.inj (by rw [← ofName?_name, h, ofName?_name])

end OutputFormat

namespace Config

/-- A line of a document. The numbers are written as decimal numerals. -/
inductive Line where
  | seed (n : Nat)
  | batch (n : Nat)
  | format (word : Text)
  | maxInputBytes (n : Nat)
  /-- Any other name, and the value behind it. -/
  | other (name value : Text)

namespace Line

def key? : Line → Option Key
  | seed _ => some .seed
  | batch _ => some .batch
  | format _ => some .format
  | maxInputBytes _ => some .maxInputBytes
  | other _ _ => none

def name : Line → Text
  | seed _ => Key.seed.name.toList
  | batch _ => Key.batch.name.toList
  | format _ => Key.format.name.toList
  | maxInputBytes _ => Key.maxInputBytes.name.toList
  | other name _ => name

def value : Line → Text
  | seed n => Text.ofNat n
  | batch n => Text.ofNat n
  | format word => word
  | maxInputBytes n => Text.ofNat n
  | other _ value => value

def entry (line : Line) : Yaml.Entry :=
  ⟨line.name, line.value⟩

/-- The document of some lines. A line break may stand behind the last one or not. -/
def document (ended : Bool) (lines : List Line) : Text :=
  Yaml.linesText ended (lines.map entry)

/-- Words and names are plain scalars, and what counts as another name is no key. -/
def WellFormed : Line → Prop
  | seed _ => True
  | batch _ => True
  | format word => Yaml.IsPlain [] word
  | maxInputBytes _ => True
  | other name value => Yaml.IsName name ∧ Key.ofName? name = none ∧ Yaml.IsPlain [] value

/-- The value is one of those that the key can have. -/
def InRange : Line → Prop
  | seed n => n < UInt64.size
  | batch n => n < UInt32.size
  | format word => word = OutputFormat.text.name ∨ word = OutputFormat.json.name
  | maxInputBytes n => n < UInt64.size
  | other _ _ => True

instance : (line : Line) → Decidable line.InRange
  | seed _ => inferInstanceAs (Decidable (_ < _))
  | batch _ => inferInstanceAs (Decidable (_ < _))
  | format _ => inferInstanceAs (Decidable (_ ∨ _))
  | maxInputBytes _ => inferInstanceAs (Decidable (_ < _))
  | other _ _ => inferInstanceAs (Decidable True)

/-- Nothing about the line keeps the document from being read. -/
def Fits (line : Line) : Prop :=
  line.entry.HasKey ∧ line.InRange

instance (line : Line) : Decidable line.Fits :=
  inferInstanceAs (Decidable (_ ∧ _))

/-- The settings with what a line says, if its value is in range. -/
def give (config : Config) : Line → Config
  | seed n => { config with seed := some (UInt64.ofNat n) }
  | batch n => { config with batch := UInt32.ofNat n }
  | format word => { config with format := (OutputFormat.ofName? word).getD config.format }
  | maxInputBytes n => { config with maxInputBytes := UInt64.ofNat n }
  | other _ _ => config

theorem name_of_key? {line : Line} {key : Key} (h : line.key? = some key) :
    line.name = key.name.toList := by
  cases line <;> cases h <;> rfl

theorem isName_key (key : Key) : Yaml.IsName key.name.toList := by
  cases key <;> exact ⟨Yaml.isPlain_of_word (by decide) (by decide) [':'], by decide, by decide⟩

theorem ofName?_name {line : Line} (h : line.WellFormed) : Key.ofName? line.name = line.key? := by
  cases line with
  | other name value => exact h.2.1
  | _ => rfl

theorem entry_wellFormed {line : Line} (h : line.WellFormed) : line.entry.WellFormed := by
  cases line with
  | seed n => exact ⟨isName_key .seed, Yaml.isPlain_ofNat n []⟩
  | batch n => exact ⟨isName_key .batch, Yaml.isPlain_ofNat n []⟩
  | format word => exact ⟨isName_key .format, h⟩
  | maxInputBytes n => exact ⟨isName_key .maxInputBytes, Yaml.isPlain_ofNat n []⟩
  | other name value => exact ⟨h.1, h.2.2⟩

end Line

section Reading

theorem isNull_ofNat (n : Nat) : isNull (Text.ofNat n) = false := by
  have hdigits : (Text.ofNat n).all Char.isDigit = true :=
    List.all_eq_true.2 fun c => Text.isDigit_of_mem_ofNat
  refine Bool.eq_false_iff.2 fun hnull => ?_
  simp only [isNull, Bool.or_eq_true, beq_iff_eq, List.isEmpty_iff] at hnull
  rcases hnull with (((hnull | hnull) | hnull) | hnull) | hnull
  · exact Text.ofNat_ne_nil n hnull
  all_goals rw [hnull] at hdigits; cases hdigits

theorem number?_ofNat (limit n : Nat) :
    number? limit (.scalar true (Text.ofNat n)) = if n < limit then some n else none := by
  rw [number?, Yaml.Numeral.value?_ofNat]
  rfl

theorem exists_name_of_inRange {word : Text} (h : (Line.format word).InRange) :
    ∃ format : OutputFormat, word = format.name := by
  rcases h with rfl | rfl
  · exact ⟨.text, rfl⟩
  · exact ⟨.json, rfl⟩

theorem set?_line (config : Config) {line : Line} {key : Key} (h : line.key? = some key) :
    config.set? key (.scalar true line.value) =
      if line.InRange then some (line.give config) else none := by
  cases line with
  | seed n =>
      cases h
      simp only [set?, Line.value, isNull_ofNat, number?_ofNat, Option.map_if]
      rfl
  | batch n =>
      cases h
      simp only [set?, Line.value, number?_ofNat, Option.map_if]
      rfl
  | format word =>
      cases h
      by_cases hrange : (Line.format word).InRange
      · obtain ⟨format, rfl⟩ := exists_name_of_inRange hrange
        simp [set?, Line.value, Line.give, OutputFormat.ofName?_name, hrange]
      · have hnone : OutputFormat.ofName? word = none := by
          rw [Line.InRange, not_or] at hrange
          rw [OutputFormat.ofName?, if_neg hrange.1, if_neg hrange.2]
        simp [set?, Line.value, hnone, hrange]
  | maxInputBytes n =>
      cases h
      simp only [set?, Line.value, number?_ofNat, Option.map_if]
      rfl
  | other name value => cases h

/-- A line whose key is not set yet is read on its own. -/
theorem setAll?_line {config : Config} {done : List Key} {line : Line} (h : line.WellFormed)
    (hdone : ∀ key ∈ line.key?, key ∉ done) (entries : List (Yaml.Node × Yaml.Node)) :
    setAll? config done (line.entry.node :: entries) =
      if line.InRange then setAll? (line.give config) (line.key?.toList ++ done) entries
      else none := by
  have hname : Key.ofName? line.entry.name = line.key? := Line.ofName?_name h
  rw [Yaml.Entry.node, setAll?, hname]
  cases hkey : line.key? with
  | none =>
      cases line with
      | other name value => rfl
      | _ => cases hkey
  | some key =>
      have hset : config.set? key (.scalar true line.entry.value) =
          if line.InRange then some (line.give config) else none := set?_line config hkey
      simp only [if_neg (hdone key hkey), hset]
      split <;> rfl

theorem setAll?_lines {config : Config} {done : List Key} {lines : List Line}
    (h : ∀ line ∈ lines, line.WellFormed) (hnames : (lines.map Line.name).Nodup)
    (hdone : ∀ key ∈ done, key.name.toList ∉ lines.map Line.name) :
    setAll? config done (lines.map fun line => line.entry.node) =
      if ∀ line ∈ lines, line.InRange then some (lines.foldl (fun c line => line.give c) config)
      else none := by
  induction lines generalizing config done with
  | nil => simp [setAll?]
  | cons line lines ih =>
      obtain ⟨hline, hlines⟩ := List.forall_mem_cons.1 h
      obtain ⟨hname, hnames⟩ := List.nodup_cons.1 hnames
      have hkey : ∀ key ∈ line.key?, key ∉ done := fun key hkey hmem =>
        hdone key hmem (Line.name_of_key? hkey ▸ List.mem_cons_self)
      have hdone' : ∀ key ∈ line.key?.toList ++ done, key.name.toList ∉ lines.map Line.name := by
        intro key hmem hlater
        rcases List.mem_append.1 hmem with hmem | hmem
        · rw [Option.mem_toList] at hmem
          exact hname (Line.name_of_key? hmem ▸ hlater)
        · exact hdone key hmem (List.mem_cons_of_mem _ hlater)
      rw [List.map_cons, setAll?_line hline hkey, ih hlines hnames hdone']
      by_cases hrange : line.InRange <;> simp [hrange]

end Reading

/-- A value that is given, or else its default. -/
structure IsGiven {α : Type} (given : α → Prop) (default value : α) : Prop where
  eq_given : ∀ a, given a → value = a
  eq_default : (∀ a, ¬given a) → value = default

namespace IsGiven

variable {α : Type} {given : α → Prop} {default value : α}

theorem unique {value' : α} (h : IsGiven given default value) (h' : IsGiven given default value') :
    value = value' := by
  by_cases hgiven : ∃ a, given a
  · obtain ⟨a, ha⟩ := hgiven
    exact (h.eq_given a ha).trans (h'.eq_given a ha).symm
  · have hnone := not_exists.1 hgiven
    exact (h.eq_default hnone).trans (h'.eq_default hnone).symm

theorem eq_iff {a : α} (h : IsGiven given default value) (ha : default ≠ a) :
    value = a ↔ given a := by
  refine ⟨fun hvalue => ?_, h.eq_given a⟩
  refine Classical.byContradiction fun hnot => ha ((h.eq_default fun b hb => ?_).symm.trans hvalue)
  obtain rfl : b = a := (h.eq_given b hb).symm.trans hvalue
  exact hnot hb

theorem congr {given' : α → Prop} (h : IsGiven given default value)
    (hgiven : ∀ a, given' a ↔ given a) : IsGiven given' default value where
  eq_given a ha := h.eq_given a ((hgiven a).1 ha)
  eq_default hnone := h.eq_default fun a ha => hnone a ((hgiven a).2 ha)

/-- A value that is given here and nowhere behind takes the place of the default. -/
theorem here {a : α} (h : IsGiven given a value) (hlater : ∀ b, ¬given b) :
    IsGiven (fun b => b = a ∨ given b) default value where
  eq_given b hb := by
    rcases hb with rfl | hb
    · exact h.eq_default hlater
    · exact absurd hb (hlater b)
  eq_default hnone := absurd (.inl rfl) (hnone a)

end IsGiven

namespace Line

/-- The settings that the lines give, where those of `base` stay as they are if no line
gives them. -/
structure Give (base : Config) (lines : List Line) (config : Config) : Prop where
  seed : IsGiven (fun seed => ∃ n, seed = some n ∧ .seed n ∈ lines) (base.seed.map UInt64.toNat)
    (config.seed.map UInt64.toNat)
  batch : IsGiven (fun n => .batch n ∈ lines) base.batch.toNat config.batch.toNat
  format : IsGiven (fun format => .format format.name ∈ lines) base.format config.format
  maxInputBytes : IsGiven (fun n => .maxInputBytes n ∈ lines) base.maxInputBytes.toNat
    config.maxInputBytes.toNat

theorem Give.unique {base config config' : Config} {lines : List Line}
    (h : Give base lines config) (h' : Give base lines config') : config = config' := by
  obtain ⟨seed, batch, format, maxInputBytes⟩ := config
  obtain ⟨seed', batch', format', maxInputBytes'⟩ := config'
  have hseed : seed = seed' :=
    Option.map_injective (fun _ _ => UInt64.toNat.inj) (h.seed.unique h'.seed)
  have hbatch : batch = batch' := UInt32.toNat.inj (h.batch.unique h'.batch)
  have hformat : format = format' := h.format.unique h'.format
  have hmax : maxInputBytes = maxInputBytes' :=
    UInt64.toNat.inj (h.maxInputBytes.unique h'.maxInputBytes)
  rw [hseed, hbatch, hformat, hmax]

theorem Give.cons {base config : Config} {line : Line} {lines : List Line}
    (h : Give (line.give base) lines config) (hrange : line.InRange)
    (hname : line.name ∉ lines.map Line.name) : Give base (line :: lines) config := by
  have hlater (other : Line) (hother : other.name = line.name) : other ∉ lines :=
    fun hmem => hname (hother ▸ List.mem_map_of_mem hmem)
  obtain ⟨hseed, hbatch, hformat, hmax⟩ := h
  -- Only the field that the line is about takes what the line says.
  cases line with
  | seed n =>
      have hn : (give base (.seed n)).seed.map UInt64.toNat = some n :=
        congrArg some (UInt64.toNat_ofNat_of_lt' hrange)
      have hnone : ∀ seed, ¬∃ k, seed = some k ∧ .seed k ∈ lines :=
        fun _ ⟨k, _, hk⟩ => hlater (.seed k) rfl hk
      rw [hn] at hseed
      refine ⟨(hseed.here hnone).congr fun seed => ?_, hbatch.congr (by simp),
        hformat.congr (by simp), hmax.congr (by simp)⟩
      simp [and_or_left, exists_or]
  | batch n =>
      have hn : (give base (.batch n)).batch.toNat = n := UInt32.toNat_ofNat_of_lt' hrange
      rw [hn] at hbatch
      exact ⟨hseed.congr (by simp), (hbatch.here fun k => hlater (.batch k) rfl).congr (by simp),
        hformat.congr (by simp), hmax.congr (by simp)⟩
  | format word =>
      obtain ⟨format, rfl⟩ := exists_name_of_inRange hrange
      have hf : (give base (.format format.name)).format = format := by
        simp [give, OutputFormat.ofName?_name]
      rw [hf] at hformat
      refine ⟨hseed.congr (by simp), hbatch.congr (by simp),
        (hformat.here fun other => hlater (.format other.name) rfl).congr (fun other => ?_),
        hmax.congr (by simp)⟩
      simp [OutputFormat.name_inj]
  | maxInputBytes n =>
      have hn : (give base (.maxInputBytes n)).maxInputBytes.toNat = n :=
        UInt64.toNat_ofNat_of_lt' hrange
      rw [hn] at hmax
      exact ⟨hseed.congr (by simp), hbatch.congr (by simp), hformat.congr (by simp),
        (hmax.here fun k => hlater (.maxInputBytes k) rfl).congr (by simp)⟩
  | other name value =>
      exact ⟨hseed.congr (by simp), hbatch.congr (by simp), hformat.congr (by simp),
        hmax.congr (by simp)⟩

/-- Lines that are in range give what they say, one after the other. -/
theorem give_foldl {base : Config} {lines : List Line} (hranges : ∀ line ∈ lines, line.InRange)
    (hnames : (lines.map Line.name).Nodup) :
    Give base lines (lines.foldl (fun config line => line.give config) base) := by
  induction lines generalizing base with
  | nil =>
      exact ⟨⟨by simp, fun _ => rfl⟩, ⟨by simp, fun _ => rfl⟩, ⟨by simp, fun _ => rfl⟩,
        ⟨by simp, fun _ => rfl⟩⟩
  | cons line lines ih =>
      obtain ⟨hrange, hranges⟩ := List.forall_mem_cons.1 hranges
      obtain ⟨hname, hnames⟩ := List.nodup_cons.1 hnames
      exact (ih hranges hnames).cons hrange hname

/-- What a document of some lines comes to. Whether a line stands in it matters, but not
where. -/
inductive Meaning (lines : List Line) : Except ConfigFault Config → Prop where
  | malformed {line : Line} (mem : line ∈ lines) (fault : ¬line.Fits) :
      Meaning lines (.error .malformed)
  | batchZero (fits : ∀ line ∈ lines, line.Fits) (zero : .batch 0 ∈ lines) :
      Meaning lines (.error .batchZero)
  | maxInputBytesZero (fits : ∀ line ∈ lines, line.Fits) (batch : .batch 0 ∉ lines)
      (zero : .maxInputBytes 0 ∈ lines) : Meaning lines (.error .maxInputBytesZero)
  | ok {config : Config} (fits : ∀ line ∈ lines, line.Fits) (batch : .batch 0 ∉ lines)
      (maxInputBytes : .maxInputBytes 0 ∉ lines) (give : Give {} lines config) :
      Meaning lines (.ok config)

theorem Meaning.unique {lines : List Line} {read read' : Except ConfigFault Config}
    (h : Meaning lines read) (h' : Meaning lines read') : read = read' := by
  cases h with
  | malformed mem fault =>
      cases h' with
      | malformed => rfl
      | batchZero fits | maxInputBytesZero fits | ok fits => exact absurd (fits _ mem) fault
  | batchZero fits zero =>
      cases h' with
      | malformed mem fault => exact absurd (fits _ mem) fault
      | batchZero => rfl
      | maxInputBytesZero _ batch | ok _ batch => exact absurd zero batch
  | maxInputBytesZero fits batch zero =>
      cases h' with
      | malformed mem fault => exact absurd (fits _ mem) fault
      | batchZero _ zero' => exact absurd zero' batch
      | maxInputBytesZero => rfl
      | ok _ _ max => exact absurd zero max
  | ok fits batch max give =>
      cases h' with
      | malformed mem fault => exact absurd (fits _ mem) fault
      | batchZero _ zero => exact absurd zero batch
      | maxInputBytesZero _ _ zero => exact absurd zero max
      | ok _ _ _ give' => rw [give.unique give']

theorem Meaning.perm {lines lines' : List Line} {read : Except ConfigFault Config}
    (hperm : lines.Perm lines') (h : Meaning lines read) : Meaning lines' read := by
  have hmem (line : Line) : line ∈ lines' ↔ line ∈ lines := hperm.symm.mem_iff
  have hfits (fits : ∀ line ∈ lines, line.Fits) : ∀ line ∈ lines', line.Fits :=
    fun line hline => fits line ((hmem line).1 hline)
  cases h with
  | malformed mem fault => exact .malformed ((hmem _).2 mem) fault
  | batchZero fits zero => exact .batchZero (hfits fits) ((hmem _).2 zero)
  | maxInputBytesZero fits batch zero =>
      exact .maxInputBytesZero (hfits fits) (fun h => batch ((hmem _).1 h)) ((hmem _).2 zero)
  | ok fits batch max give =>
      refine .ok (hfits fits) (fun h => batch ((hmem _).1 h)) (fun h => max ((hmem _).1 h)) ?_
      exact ⟨give.seed.congr (by simp [hmem]), give.batch.congr (by simp [hmem]),
        give.format.congr (by simp [hmem]), give.maxInputBytes.congr (by simp [hmem])⟩

/-- The settings of lines that fit are checked as a whole. -/
theorem meaning_check {lines : List Line} {config : Config} (fits : ∀ line ∈ lines, line.Fits)
    (h : Give {} lines config) :
    (∃ fault, config.check = .error fault ∧ Meaning lines (.error fault)) ∨
      (config.check = .ok () ∧ Meaning lines (.ok config)) := by
  have hbatch : config.batch = 0 ↔ .batch 0 ∈ lines :=
    UInt32.toNat_inj.symm.trans (h.batch.eq_iff (by decide))
  have hmax : config.maxInputBytes = 0 ↔ .maxInputBytes 0 ∈ lines :=
    UInt64.toNat_inj.symm.trans (h.maxInputBytes.eq_iff (by decide))
  by_cases hbatchZero : config.batch = 0
  · exact .inl ⟨.batchZero, check_of_batch_zero hbatchZero, .batchZero fits (hbatch.1 hbatchZero)⟩
  · have hnot := mt hbatch.2 hbatchZero
    by_cases hmaxZero : config.maxInputBytes = 0
    · exact .inl ⟨.maxInputBytesZero, check_of_maxInputBytes_zero hbatchZero hmaxZero,
        .maxInputBytesZero fits hnot (hmax.1 hmaxZero)⟩
    · exact .inr ⟨check_eq_ok_iff.2 ⟨hbatchZero, hmaxZero⟩,
        .ok fits hnot (mt hmax.2 hmaxZero) h⟩

/-- A document with a line in it is not blank, for every line has a colon. -/
theorem not_blank_document (ended : Bool) (line : Line) (lines : List Line) :
    (document ended (line :: lines)).all Text.isBlank = false := by
  have hcolon : ':' ∈ document ended (line :: lines) := by
    rw [document, List.map_cons]
    cases lines with
    | nil => simp [Yaml.linesText_singleton, Yaml.Entry.text]
    | cons next lines => simp [Yaml.linesText_cons, Yaml.Entry.text]
  rw [List.all_eq_false]
  exact ⟨':', hcolon, by decide⟩

theorem read?_document (ended : Bool) {line : Line} {lines : List Line}
    (h : ∀ other ∈ line :: lines, other.WellFormed) :
    Yaml.read? (document ended (line :: lines)) =
      if ∀ other ∈ line :: lines, other.entry.HasKey then
        some (some (.mapping ((line :: lines).map fun other => other.entry.node)))
      else none := by
  have hentries : ∀ other ∈ line.entry :: lines.map Line.entry, other.WellFormed := by
    rw [← List.map_cons, List.forall_mem_map]
    exact fun other hother => entry_wellFormed (h other hother)
  rw [document, List.map_cons, Yaml.read?_linesText hentries, ← List.map_cons, List.map_map]
  simp only [List.forall_mem_map]
  rfl

end Line

/-- What a document of lines gives is what its lines mean. -/
theorem meaning_ofDocument (ended : Bool) {lines : List Line}
    (h : ∀ line ∈ lines, line.WellFormed) (hnames : (lines.map Line.name).Nodup) :
    Line.Meaning lines (ofDocument (Line.document ended lines)) := by
  cases lines with
  | nil =>
      have hread : ofDocument (Line.document ended []) = .ok {} := by
        cases ended <;> rfl
      rw [hread]
      exact .ok (by simp) (by simp) (by simp) (Line.give_foldl (by simp) hnames)
  | cons line lines =>
      have hset : setAll? {} [] ((line :: lines).map fun other => other.entry.node) = _ :=
        setAll?_lines h hnames (by simp)
      rw [ofDocument, Line.not_blank_document, if_neg Bool.false_ne_true,
        Line.read?_document ended h]
      by_cases hkeys : ∀ other ∈ line :: lines, other.entry.HasKey
      · rw [if_pos hkeys, Option.bind_some, ofNode?, hset]
        by_cases hranges : ∀ other ∈ line :: lines, other.InRange
        · rw [if_pos hranges]
          have fits : ∀ other ∈ line :: lines, other.Fits :=
            fun other hother => ⟨hkeys other hother, hranges other hother⟩
          rcases Line.meaning_check fits (Line.give_foldl hranges hnames) with
            ⟨fault, hcheck, hmeaning⟩ | ⟨hcheck, hmeaning⟩
          · simpa only [hcheck] using hmeaning
          · simpa only [hcheck] using hmeaning
        · rw [if_neg hranges]
          obtain ⟨other, hother, hrange⟩ : ∃ other ∈ line :: lines, ¬other.InRange := by
            simpa only [Classical.not_forall, exists_prop] using hranges
          exact .malformed hother fun hfits => hrange hfits.2
      · rw [if_neg hkeys]
        obtain ⟨other, hother, hkey⟩ : ∃ other ∈ line :: lines, ¬other.entry.HasKey := by
          simpa only [Classical.not_forall, exists_prop] using hkeys
        exact .malformed hother fun hfits => hkey hfits.1

/-- A document of lines gives what its lines mean and nothing else, so the order of the
lines does not matter: the same settings are read from every permutation of them, or the
same fault is reported. -/
theorem ofDocument_in_any_order (ended : Bool) {lines : List Line}
    (h : ∀ line ∈ lines, line.WellFormed) (hnames : (lines.map Line.name).Nodup) :
    (∀ read, ofDocument (Line.document ended lines) = read ↔ Line.Meaning lines read) ∧
    ∀ ended' lines', lines.Perm lines' →
      ofDocument (Line.document ended' lines') = ofDocument (Line.document ended lines) := by
  have hmeaning := meaning_ofDocument ended h hnames
  refine ⟨fun read => ⟨fun hread => hread ▸ hmeaning, hmeaning.unique⟩, ?_⟩
  intro ended' lines' hperm
  have h' : ∀ line ∈ lines', line.WellFormed := fun line hline => h line (hperm.mem_iff.2 hline)
  have hnames' : (lines'.map Line.name).Nodup := (hperm.map Line.name).nodup_iff.1 hnames
  exact (meaning_ofDocument ended' h' hnames').unique (hmeaning.perm hperm)

theorem ofDocument_in_any_order_two_zeros :
    let lines : List Line := [.maxInputBytes 0, .other "note".toList "later".toList, .batch 0]
    (∀ line ∈ lines, line.WellFormed) ∧ (lines.map Line.name).Nodup ∧
      ofDocument (Line.document true lines) = .error .batchZero ∧
      ofDocument (Line.document false lines.reverse) = .error .batchZero := by
  intro lines
  have hname : Yaml.IsName "note".toList :=
    ⟨Yaml.isPlain_of_word (by decide) (by decide) [':'], by decide, by decide⟩
  have hvalue : Yaml.IsPlain [] "later".toList :=
    Yaml.isPlain_of_word (by decide) (by decide) []
  have h : ∀ line ∈ lines, line.WellFormed := by
    simp only [lines, List.forall_mem_cons]
    exact ⟨trivial, ⟨hname, rfl, hvalue⟩, trivial, List.forall_mem_nil _⟩
  have hnames : (lines.map Line.name).Nodup := by decide
  have hmeaning : Line.Meaning lines (.error .batchZero) :=
    .batchZero (by decide) (by simp [lines])
  obtain ⟨hread, hperm⟩ := ofDocument_in_any_order true h hnames
  have hzero := (hread _).2 hmeaning
  exact ⟨h, hnames, hzero, (hperm false _ lines.reverse_perm.symm).trans hzero⟩

/-- A name can be so long that the colon behind it is no longer taken for that of a key,
and then no document has it as a name that is passed over. -/
theorem ofDocument_refuses_long_name :
    let lines : List Line := [.other (List.replicate 1025 'a') ['b']]
    (∀ line ∈ lines, line.WellFormed ∧ line.InRange) ∧ (lines.map Line.name).Nodup ∧
      ofDocument (Line.document true lines) = .error .malformed := by
  intro lines
  have hword : (List.replicate 1025 'a').all Yaml.isWordChar = true := by
    rw [List.all_replicate]
    rfl
  have hname : Yaml.IsName (List.replicate 1025 'a') :=
    ⟨Yaml.isPlain_of_word hword (List.cons_ne_nil _ _) [':'], by decide, by decide⟩
  have hline : (Line.other (List.replicate 1025 'a') ['b']).WellFormed :=
    ⟨hname, by decide, Yaml.isPlain_of_word (by decide) (by decide) []⟩
  have h : ∀ line ∈ lines, line.WellFormed := List.forall_mem_singleton.2 hline
  have hnames : (lines.map Line.name).Nodup := List.nodup_cons.2 ⟨List.not_mem_nil, List.nodup_nil⟩
  have hlong : ¬(Line.other (List.replicate 1025 'a') ['b']).Fits := by
    intro hfits
    have hkey : Text.utf8Size (List.replicate 1025 'a') ≤ 1024 := hfits.1
    rw [Text.utf8Size_replicate] at hkey
    exact absurd hkey (by decide)
  refine ⟨List.forall_mem_singleton.2 ⟨hline, trivial⟩, hnames, ?_⟩
  exact (meaning_ofDocument true h hnames).unique (.malformed List.mem_cons_self hlong)

end Config

end PromptDraw
