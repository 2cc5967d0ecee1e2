import PromptDraw.Yaml.Node
import PromptDraw.Proofs.Yaml.Plain

/-!
Documents of lines, each of which holds a plain name and a plain value with a colon
between them. They are mappings from the names to the values, in the order of the lines.
A colon too far behind the start of a name makes no key of it, and then the document is
malformed.
-/

namespace PromptDraw

namespace Yaml

/-- A name that may stand at the start of a line. -/
structure IsName (name : Text) : Prop where
  plain : IsPlain [':'] name
  mark : name.head? ≠ some byteOrderMark
  /-- It does not start with a marker for the start or the end of a document. -/
  marker : atMarker .start (name ++ [':']) = false

theorem IsName.not_atMarker {name : Text} (h : IsName name) (mark : Mark) (rest : Text) :
    atMarker mark (name ++ ':' :: rest) = false := by
  -- Three characters and whether a word ends behind them decide, and a colon ends none.
  have hmarker (c : Char) (hc : c ≠ ':') (hstart : markerOf c .start (name ++ [':']) = false) :
      markerOf c mark (name ++ ':' :: rest) = false := by
    refine Bool.eq_false_iff.2 fun hmark => ?_
    simp only [markerOf, Bool.and_eq_true, beq_iff_eq] at hmark
    obtain ⟨⟨-, htake⟩, hends⟩ := hmark
    rcases name with - | ⟨d, - | ⟨e, - | ⟨f, t⟩⟩⟩
    · simp [Ne.symm hc] at htake
    · simp [Ne.symm hc] at htake
    · simp [Ne.symm hc] at htake
    · obtain ⟨rfl, rfl, rfl⟩ : d = c ∧ e = c ∧ f = c := by simpa using htake
      have hcolon : endsWord (t ++ [':']) = endsWord (t ++ ':' :: rest) :=
        endsWord_append_congr t rfl
      have hword : endsWord (t ++ [':']) = true := hcolon.trans hends
      simp [markerOf, Mark.start, hword] at hstart
  have hboth := h.marker
  rw [atMarker, Bool.or_eq_false_iff] at hboth ⊢
  exact ⟨hmarker '-' (by decide) hboth.1, hmarker '.' (by decide) hboth.2⟩

structure Entry where
  name : Text
  value : Text

namespace Entry

structure WellFormed (entry : Entry) : Prop where
  name : IsName entry.name
  value : IsPlain [] entry.value

/-- The colon behind the name is near enough to make a key of it. -/
def HasKey (entry : Entry) : Prop :=
  entry.name.utf8Size ≤ maxKeyLength

instance (entry : Entry) : Decidable entry.HasKey :=
  inferInstanceAs (Decidable (_ ≤ _))

def text (entry : Entry) : Text :=
  entry.name ++ [':', ' '] ++ entry.value

def tokens (entry : Entry) : List Token :=
  [.key, .scalar true entry.name, .value, .scalar true entry.value]

def node (entry : Entry) : Node × Node :=
  (.scalar true entry.name, .scalar true entry.value)

theorem text_append (entry : Entry) (rest : Text) :
    entry.text ++ rest = entry.name ++ ':' :: ' ' :: (entry.value ++ rest) := by
  simp [text]

theorem length_text (entry : Entry) :
    entry.text.length = entry.name.length + 2 + entry.value.length := by
  rw [text, List.length_append, List.length_append]
  rfl

end Entry

/-- The document of some lines, the last of which may be `ended` by a line break or by
the end of the document. -/
def linesText (ended : Bool) (entries : List Entry) : Text :=
  ['\n'].intercalate (entries.map Entry.text) ++ if ended then ['\n'] else []

theorem linesText_singleton (ended : Bool) (entry : Entry) :
    linesText ended [entry] = entry.text ++ if ended then ['\n'] else [] := by
  simp [linesText, List.intercalate]

theorem linesText_cons (ended : Bool) (entry next : Entry) (entries : List Entry) :
    linesText ended (entry :: next :: entries) =
      entry.text ++ '\n' :: linesText ended (next :: entries) := by
  simp [linesText, List.intercalate]

namespace Lexer

/-- One token is read and others are left. -/
theorem run?_step {fuel : Nat} {l l' l'' : Lexer} (hadvance : l.advance? = some l')
    (hrest : l'.rest ≠ []) (htoken : l'.token? = some l'') : l.run? (fuel + 1) = l''.run? fuel := by
  rw [run?, hadvance]
  simp [hrest, htoken]

theorem run?_eq_none {fuel : Nat} {l l' : Lexer} (hadvance : l.advance? = some l')
    (hrest : l'.rest ≠ []) (htoken : l'.token? = none) : l.run? (fuel + 1) = none := by
  rw [run?, hadvance]
  simp [hrest, htoken]

theorem close_of_le {l : Lexer} {limit : Nat} (h : ∀ column ∈ l.indents, column < limit) :
    l.close limit = l := by
  have htake : l.indents.takeWhile (limit ≤ ·) = [] := by
    cases hindents : l.indents with
    | nil => rfl
    | cons column rest =>
        have hlt := h column (hindents ▸ List.mem_cons_self)
        simp [hlt]
  have hdrop := List.takeWhile_append_dropWhile (p := (limit ≤ ·)) (l := l.indents)
  rw [htake, List.nil_append] at hdrop
  unfold close
  rw [htake, hdrop]
  simp

/-- The lexer outside of flow collections, with the tokens read so far. -/
def inBlock (bound : Nat) (indents : List Nat) (keyAllowed : Bool) (candidate : Option Candidate)
    (tokens : List Token) (mark : Mark) (rest : Text) : Lexer :=
  ⟨bound, rest, mark, indents, keyAllowed, candidate, [], tokens.toArray⟩

section InBlock

variable {bound : Nat} {indents : List Nat} {keyAllowed : Bool} {candidate : Option Candidate}
  {tokens : List Token} {mark : Mark}

theorem advance?_inBlock {candidate' : Option Candidate} {mark' : Mark} {rest rest' : Text}
    (hskip : skipBlank false false keyAllowed mark rest = (keyAllowed, mark', rest'))
    (hcandidate : Candidate.refresh? mark' candidate = some candidate')
    (hindents : ∀ column ∈ indents, column ≤ mark'.column) :
    (Lexer.inBlock bound indents keyAllowed candidate tokens mark rest).advance? =
      some (Lexer.inBlock bound indents keyAllowed candidate' tokens mark' rest') := by
  have hclose : (Lexer.inBlock bound indents keyAllowed candidate' tokens mark' rest').close
      (mark'.column + 1) = Lexer.inBlock bound indents keyAllowed candidate' tokens mark' rest' :=
    close_of_le fun column hcolumn => Nat.lt_succ_of_le (hindents column hcolumn)
  have hinFlow : (Lexer.inBlock bound indents keyAllowed candidate tokens mark rest).inFlow =
      false := rfl
  unfold advance?
  rw [hinFlow]
  simp only [Lexer.inBlock, hskip, hcandidate] at hclose ⊢
  exact congrArg some hclose

theorem skipBlank_stay {c : Char} (s : Text) (hspace : isSpace c = false)
    (hline : isBreak c = false) (hcomment : c ≠ '#')
    (hmark : ¬(mark.column = 0 ∧ c = byteOrderMark)) :
    skipBlank false false keyAllowed mark (c :: s) = (keyAllowed, mark, c :: s) := by
  simp only [isSpace, Bool.or_eq_false_iff, beq_eq_false_iff_ne] at hspace
  simp [skipBlank, hline, hmark, hspace.1, hspace.2, hcomment]

/-- The rules for plain scalars hold where one starts, and no other rule does. -/
theorem startsPlain_of_starts {rest : Text} {c : Char} {t : Text}
    (hc : (c ∉ indicators ∧ isSpace c = false) ∨
      ((c = '-' ∨ c = '?' ∨ c = ':') ∧ endsWord (t ++ rest) = false))
    (hline : isBreak c = false) : startsPlain false c (t ++ rest) = true := by
  rcases hc with ⟨hmark, hspace⟩ | ⟨hmark, hends⟩
  · simp [startsPlain, hspace, hline, hmark]
  · rcases hmark with rfl | rfl | rfl
    · cases hrest : t ++ rest with
      | nil => simp [startsPlain]
      | cons d u =>
          rw [hrest, endsWord, Bool.or_eq_false_iff] at hends
          simp [startsPlain, hends.1]
    all_goals simp [startsPlain, hends]

/-- A plain scalar is read where one stands. -/
theorem token?_of_isPlain {s rest : Text} (h : IsPlain rest s)
    (hmarker : atMarker mark (s ++ rest) = false) :
    (Lexer.inBlock bound indents keyAllowed candidate tokens mark (s ++ rest)).token? =
      (Lexer.inBlock bound indents keyAllowed candidate tokens mark (s ++ rest)).plain? := by
  obtain ⟨c, t, rfl, hc⟩ := h.starts
  obtain - | ⟨-, hline, -, -, -⟩ := h.tail
  have hplain := startsPlain_of_starts hc hline
  obtain ⟨hdash, hdot⟩ : markerOf '-' mark (c :: t ++ rest) = false ∧
      markerOf '.' mark (c :: t ++ rest) = false := by
    simpa [atMarker] using hmarker
  rw [List.cons_append] at hdash hdot ⊢
  rcases hc with ⟨hmark, -⟩ | ⟨rfl | rfl | rfl, hends⟩
  · simp only [indicators, List.mem_cons, List.not_mem_nil, or_false, not_or] at hmark
    simp [token?, inBlock, inFlow, hdash, hdot, hplain, hmark]
  all_goals simp [token?, inBlock, inFlow, hdash, hdot, hplain, hends]

theorem insertIdx_toArray (tokens : List Token) (token : Token) (more : List Token) :
    (tokens ++ more).toArray.insertIdxIfInBounds tokens.length token =
      (tokens ++ token :: more).toArray := by
  have hinsert : (tokens ++ more).insertIdx tokens.length token = tokens ++ token :: more := by
    induction tokens with
    | nil => rfl
    | cons head tokens ih => exact congrArg (head :: ·) ih
  rw [Array.insertIdxIfInBounds, dif_pos (by simp), List.insertIdx_toArray, hinsert]

/-- The place of a name at the start of a line, at which a key may start. -/
def candidateAt (indents : List Nat) (tokens : List Token) (mark : Mark) : Candidate :=
  ⟨tokens.length, mark, indents.head? == some mark.column⟩

/-- Where no key may start, a scalar changes nothing but what is left to read. -/
theorem plain?_of_not_keyAllowed {rest : Text} {scalar : ReadScalar}
    (hread : Yaml.plain? false (Lexer.inBlock bound indents false candidate tokens mark
      rest).scalarIndent bound Gap.none mark rest = some scalar) :
    (Lexer.inBlock bound indents false candidate tokens mark rest).plain? =
      some (Lexer.inBlock bound indents scalar.broken candidate
        (tokens ++ [.scalar true scalar.text]) scalar.mark scalar.rest) := by
  have hsave : (Lexer.inBlock bound indents false candidate tokens mark rest).saveKey? =
      some (Lexer.inBlock bound indents false candidate tokens mark rest) := rfl
  unfold Lexer.plain?
  rw [hsave, Option.bind_eq_bind, Option.bind_some]
  refine Option.bind_eq_some_iff.2 ⟨scalar, hread, ?_⟩
  simp [inBlock, emit]

/-- Where a key may start, a scalar may be one. -/
theorem plain?_of_keyAllowed {rest : Text} {scalar : ReadScalar}
    (hread : Yaml.plain? false (Lexer.inBlock bound indents true none tokens mark
      rest).scalarIndent bound Gap.none mark rest = some scalar) :
    (Lexer.inBlock bound indents true none tokens mark rest).plain? =
      some (Lexer.inBlock bound indents scalar.broken (some (candidateAt indents tokens mark))
        (tokens ++ [.scalar true scalar.text]) scalar.mark scalar.rest) := by
  have hsave : (Lexer.inBlock bound indents true none tokens mark rest).saveKey? =
      some (Lexer.inBlock bound indents true (some (candidateAt indents tokens mark)) tokens mark
        rest) := by
    simp [saveKey?, dropKey?, inBlock, inFlow, candidateAt]
  unfold Lexer.plain?
  rw [hsave, Option.bind_eq_bind, Option.bind_some]
  refine Option.bind_eq_some_iff.2 ⟨scalar, hread, ?_⟩
  simp [inBlock, emit]

/-- A name is read at the start of a line, and the place of it is remembered. -/
theorem run?_name {fuel : Nat} {name : Text} (h : IsName name)
    (hindents : ∀ column ∈ indents, column = 0) (hbound : name.length ≤ bound) (rest : Text) :
    (Lexer.inBlock bound indents true none tokens mark (name ++ ':' :: ' ' :: rest)).run?
        (fuel + 1) =
      (Lexer.inBlock bound indents false (some (candidateAt indents tokens mark))
        (tokens ++ [.scalar true name]) (mark.along name) (':' :: ' ' :: rest)).run? fuel := by
  have hplain : IsPlain (':' :: ' ' :: rest) name := h.plain.congr rfl
  have hmarker := h.not_atMarker mark (' ' :: rest)
  have hadvance : (Lexer.inBlock bound indents true none tokens mark
      (name ++ ':' :: ' ' :: rest)).advance? = some (Lexer.inBlock bound indents true none tokens
        mark (name ++ ':' :: ' ' :: rest)) := by
    obtain ⟨c, t, rfl, hspace, hline, hcomment⟩ := hplain.exists_head
    refine advance?_inBlock (skipBlank_stay _ hspace hline hcomment ?_) rfl ?_
    · rintro ⟨-, rfl⟩
      exact h.mark rfl
    · intro column hmem
      rw [hindents column hmem]
      exact Nat.zero_le _
  have hindent : (Lexer.inBlock bound indents true none tokens mark
      (name ++ ':' :: ' ' :: rest)).scalarIndent ≤ 1 := by
    cases indents with
    | nil => exact Nat.zero_le 1
    | cons column indents => exact Nat.succ_le_succ (Nat.le_of_eq (hindents column (by simp)))
  have hread : Yaml.plain? false (Lexer.inBlock bound indents true none tokens mark
      (name ++ ':' :: ' ' :: rest)).scalarIndent bound Gap.none mark (name ++ ':' :: ' ' :: rest) =
        some ⟨name, false, mark.along name, ':' :: ' ' :: rest⟩ :=
    plain?_of_isPlain hplain hmarker hindent (endsScalar_colon rest) (.here (.inr rfl)) hbound
  exact run?_step hadvance (by simp [inBlock])
    ((token?_of_isPlain hplain hmarker).trans (plain?_of_keyAllowed hread))

theorem skipBlank_colon (rest : Text) :
    skipBlank false false keyAllowed mark (':' :: rest) = (keyAllowed, mark, ':' :: rest) :=
  skipBlank_stay rest rfl rfl (by decide) fun hmark => absurd hmark.2 (by decide)

theorem advance?_colon {candidate' : Option Candidate}
    (hcandidate : Candidate.refresh? mark candidate = some candidate')
    (hindents : ∀ column ∈ indents, column = 0) (rest : Text) :
    (Lexer.inBlock bound indents keyAllowed candidate tokens mark (':' :: rest)).advance? =
      some (Lexer.inBlock bound indents keyAllowed candidate' tokens mark (':' :: rest)) := by
  refine advance?_inBlock (skipBlank_colon rest) hcandidate ?_
  · intro column hmem
    rw [hindents column hmem]
    exact Nat.zero_le _

theorem token?_colon (rest : Text) :
    (Lexer.inBlock bound indents keyAllowed candidate tokens mark (':' :: ' ' :: rest)).token? =
      (Lexer.inBlock bound indents keyAllowed candidate tokens mark
        (':' :: ' ' :: rest)).value? := by
  simp [token?, inBlock, inFlow, markerOf, endsWord, isSpace]

theorem forall_eq_zero (hindents : indents = [] ∨ indents = [0]) :
    ∀ column ∈ indents, column = 0 := by
  rcases hindents with rfl | rfl <;> simp

/-- The first name of a document opens the mapping. -/
def opening (indents : List Nat) : List Token :=
  if indents = [] then [.blockMappingStart] else []

theorem value?_of_candidate {name : Token} (hcolumn : mark.column = 0)
    (hindents : indents = [] ∨ indents = [0]) (mark' : Mark) (rest : Text) :
    (Lexer.inBlock bound indents false (some (candidateAt indents tokens mark))
        (tokens ++ [name]) mark' (':' :: rest)).value? =
      some (Lexer.inBlock bound [0] false none (tokens ++ opening indents ++ [.key, name, .value])
        (mark'.along [':']) rest) := by
  have hkey := insertIdx_toArray tokens .key [name]
  rcases hindents with rfl | rfl
  · have hopen := insertIdx_toArray tokens .blockMappingStart [.key, name]
    simp [value?, inBlock, candidateAt, insert, openAt, inFlow, hkey, hopen, hcolumn, skip, emit,
      opening]
  · simp [value?, inBlock, candidateAt, insert, openAt, inFlow, hkey, hcolumn, skip, emit, opening]

theorem refresh?_name {name : Text} (h : name.utf8Size ≤ maxKeyLength) :
    Candidate.refresh? (mark.along name) (some (candidateAt indents tokens mark)) =
      some (some (candidateAt indents tokens mark)) := by
  rw [Candidate.refresh?, if_neg]
  rintro (hline | hfar)
  · exact Nat.lt_irrefl _ hline
  · exact Nat.not_lt.2 (Nat.add_le_add_left h _) hfar

/-- A colon makes a key of a name that is not too far back. -/
theorem run?_colon {fuel : Nat} {name : Text} (h : name.utf8Size ≤ maxKeyLength)
    (hcolumn : mark.column = 0) (hindents : indents = [] ∨ indents = [0]) (rest : Text) :
    (Lexer.inBlock bound indents false (some (candidateAt indents tokens mark))
        (tokens ++ [.scalar true name]) (mark.along name) (':' :: ' ' :: rest)).run? (fuel + 1) =
      (Lexer.inBlock bound [0] false none
        (tokens ++ opening indents ++ [.key, .scalar true name, .value])
        ((mark.along name).along [':']) (' ' :: rest)).run? fuel := by
  exact run?_step (advance?_colon (refresh?_name h) (forall_eq_zero hindents) _)
    (List.cons_ne_nil _ _) ((token?_colon rest).trans (value?_of_candidate hcolumn hindents _ _))

theorem refresh?_long (indents : List Nat) (tokens : List Token) (mark : Mark) {name : Text}
    (h : maxKeyLength < name.utf8Size) :
    Candidate.refresh? (mark.along name) (some (candidateAt indents tokens mark)) =
      if (candidateAt indents tokens mark).required then none else some none := by
  rw [Candidate.refresh?, if_pos]
  exact .inr (Nat.add_lt_add_left h _)

/-- A colon that is too far behind a name stands where none may. -/
theorem run?_long {fuel : Nat} {name : Text} (h : IsName name)
    (hlong : maxKeyLength < name.utf8Size) (hindents : ∀ column ∈ indents, column = 0)
    (hbound : name.length ≤ bound) (rest : Text) :
    (Lexer.inBlock bound indents true none tokens mark (name ++ ':' :: ' ' :: rest)).run?
        (fuel + 2) = none := by
  have hcandidate := refresh?_long indents tokens mark hlong
  rw [run?_name h hindents hbound]
  cases hrequired : (candidateAt indents tokens mark).required with
  | true =>
      rw [hrequired, if_pos rfl] at hcandidate
      have hadvance : (Lexer.inBlock bound indents false (some (candidateAt indents tokens mark))
          (tokens ++ [.scalar true name]) (mark.along name) (':' :: ' ' :: rest)).advance? =
            none := by
        unfold advance?
        simp [inBlock, inFlow, skipBlank_colon, hcandidate]
      rw [run?, hadvance]
      rfl
  | false =>
      rw [hrequired, if_neg Bool.false_ne_true] at hcandidate
      refine run?_eq_none (advance?_colon hcandidate hindents _) (List.cons_ne_nil _ _)
        ((token?_colon rest).trans ?_)
      simp [value?, inBlock, inFlow]

/-- A value is read up to the end of its line. -/
theorem run?_value {fuel : Nat} {value rest rest' : Text} {mark' : Mark} {broken : Bool}
    (h : IsPlain rest value) (hrest : EndsScalar rest) (hcolumn : 0 < mark.column)
    (hstop : Stops 1 ((mark.along [' ']).along value) rest broken mark' rest')
    (hbound : value.length ≤ bound) :
    (Lexer.inBlock bound [0] false none tokens mark (' ' :: (value ++ rest))).run? (fuel + 1) =
      (Lexer.inBlock bound [0] broken none (tokens ++ [.scalar true value]) mark' rest').run?
        fuel := by
  have hmark : 0 < (mark.along [' ']).column := Nat.lt_succ_of_lt hcolumn
  have hmarker := atMarker_of_column hmark (value ++ rest)
  have hadvance : (Lexer.inBlock bound [0] false none tokens mark
      (' ' :: (value ++ rest))).advance? =
        some (Lexer.inBlock bound [0] false none tokens (mark.along [' ']) (value ++ rest)) := by
    obtain ⟨c, t, rfl, hspace, hline, hcomment⟩ := h.exists_head
    refine advance?_inBlock ?_ rfl ?_
    · have hblank : skipBlank false false false (mark.along [' ']) (c :: (t ++ rest)) =
          (false, mark.along [' '], c :: (t ++ rest)) :=
        skipBlank_stay _ hspace hline hcomment fun hzero => Nat.ne_of_gt hmark hzero.1
      have hpass : skipBlank false false false mark (' ' :: (c :: t ++ rest)) =
          skipBlank false false false (mark.along [' ']) (c :: (t ++ rest)) := by
        rw [← Mark.after_eq_along mark rfl (c :: (t ++ rest))]
        simp [skipBlank, isBreak, byteOrderMark]
      exact hpass.trans hblank
    · simp
  have hread : Yaml.plain? false (Lexer.inBlock bound [0] false none tokens (mark.along [' '])
      (value ++ rest)).scalarIndent bound Gap.none (mark.along [' ']) (value ++ rest) =
        some ⟨value, broken, mark', rest'⟩ :=
    plain?_of_isPlain h hmarker (Nat.le_refl 1) hrest hstop hbound
  exact run?_step hadvance (by simp [inBlock, h.ne_nil])
    ((token?_of_isPlain h hmarker).trans (plain?_of_not_keyAllowed hread))

end InBlock

section Lines

variable {bound : Nat} {indents : List Nat} {tokens : List Token} {mark : Mark}

/-- One line gives the tokens of an entry, whatever ends its value. -/
theorem run?_entry {fuel : Nat} {entry : Entry} {rest rest' : Text} {mark' : Mark} {broken : Bool}
    (h : entry.WellFormed) (hkey : entry.HasKey) (hends : endsWord rest = true)
    (hrest : EndsScalar rest) (hcolumn : mark.column = 0)
    (hindents : indents = [] ∨ indents = [0])
    (hstop : Stops 1 (mark.along entry.text) rest broken mark' rest')
    (hbound : entry.text.length ≤ bound) :
    (Lexer.inBlock bound indents true none tokens mark (entry.text ++ rest)).run? (fuel + 3) =
      (Lexer.inBlock bound [0] broken none (tokens ++ opening indents ++ entry.tokens) mark'
        rest').run? fuel := by
  have hlength := entry.length_text
  have hmark : mark.along entry.text =
      (((mark.along entry.name).along [':']).along [' ']).along entry.value := by
    simp [← Mark.along_append, Entry.text]
  rw [entry.text_append, run?_name h.name (forall_eq_zero hindents) (by omega),
    run?_colon hkey hcolumn hindents,
    run?_value (h.value.congr hends.symm) hrest (Nat.zero_lt_succ _) (hmark ▸ hstop) (by omega)]
  simp [Entry.tokens]

theorem run?_entry_of_not_hasKey {fuel : Nat} {entry : Entry} (h : entry.WellFormed)
    (hkey : ¬entry.HasKey) (hindents : indents = [] ∨ indents = [0])
    (hbound : entry.text.length ≤ bound) (hfuel : 2 < fuel) (rest : Text) :
    (Lexer.inBlock bound indents true none tokens mark (entry.text ++ rest)).run? fuel = none := by
  have hlength := entry.length_text
  obtain ⟨fuel, rfl⟩ : ∃ k, fuel = k + 2 := ⟨fuel - 2, by omega⟩
  rw [entry.text_append]
  exact run?_long h.name (Nat.lt_of_not_le hkey) (forall_eq_zero hindents) (by omega) _

theorem run?_end (fuel : Nat) (keyAllowed : Bool) :
    (Lexer.inBlock bound [0] keyAllowed none tokens mark []).run? (fuel + 1) =
      some (tokens ++ [.blockEnd]) := by
  have hadvance : (Lexer.inBlock bound [0] keyAllowed none tokens mark []).advance? =
      some (Lexer.inBlock bound [0] keyAllowed none tokens mark []) :=
    advance?_inBlock rfl rfl (by simp)
  rw [run?, hadvance]
  simp [inBlock, close, inFlow, dropKey?]

/-- The last line may be ended by a break or not. -/
theorem run?_last {ended : Bool} {fuel : Nat} {entry : Entry} (h : entry.WellFormed)
    (hkey : entry.HasKey) (hcolumn : mark.column = 0) (hindents : indents = [] ∨ indents = [0])
    (hbound : entry.text.length ≤ bound) (hfuel : 3 < fuel) :
    (Lexer.inBlock bound indents true none tokens mark (linesText ended [entry])).run? fuel =
      some (tokens ++ opening indents ++ entry.tokens ++ [.blockEnd]) := by
  obtain ⟨fuel, rfl⟩ : ∃ k, fuel = k + 1 + 3 := ⟨fuel - 4, by omega⟩
  rw [linesText_singleton]
  cases ended with
  | true =>
      have hstop := stops_break (mark.along entry.text) [] (by simp)
      exact (run?_entry h hkey rfl (endsScalar_break []) hcolumn hindents hstop hbound).trans
        (run?_end fuel true)
  | false =>
      have hstop : Stops 1 (mark.along entry.text) [] false (mark.along entry.text) [] :=
        .here (.inl rfl)
      exact (run?_entry h hkey rfl endsScalar_nil hcolumn hindents hstop hbound).trans
        (run?_end fuel false)

end Lines

theorem head?_linesText (ended : Bool) {entry : Entry} (entries : List Entry)
    (h : entry.WellFormed) :
    ∀ c ∈ (linesText ended (entry :: entries)).head?, isSpace c = false ∧ isBreak c = false := by
  obtain ⟨c, t, hname, hspace, hline, -⟩ := h.name.plain.exists_head
  have hhead : (linesText ended (entry :: entries)).head? = some c := by
    cases entries with
    | nil => simp [linesText_singleton, Entry.text, hname]
    | cons next entries => simp [linesText_cons, Entry.text, hname]
  rw [hhead]
  rintro d hd
  obtain rfl := Option.some.inj hd
  exact ⟨hspace, hline⟩

/-- The lines of a document give the tokens of their entries one after the other, unless
some name is too long. -/
theorem run?_lines {ended : Bool} {entry : Entry} {entries : List Entry} {bound fuel : Nat}
    {indents : List Nat} {tokens : List Token} {mark : Mark}
    (h : ∀ other ∈ entry :: entries, other.WellFormed) (hcolumn : mark.column = 0)
    (hindents : indents = [] ∨ indents = [0])
    (hbound : (linesText ended (entry :: entries)).length ≤ bound)
    (hfuel : 3 * (entry :: entries).length < fuel) :
    (Lexer.inBlock bound indents true none tokens mark (linesText ended (entry :: entries))).run?
        fuel =
      if ∀ other ∈ entry :: entries, other.HasKey then
        some (tokens ++ opening indents ++ (entry :: entries).flatMap Entry.tokens ++ [.blockEnd])
      else none := by
  induction entries generalizing entry indents tokens mark fuel with
  | nil =>
      have hentry := h entry List.mem_cons_self
      rw [linesText_singleton, List.length_append] at hbound
      by_cases hkey : entry.HasKey
      · rw [run?_last hentry hkey hcolumn hindents (by omega) (by simpa using hfuel)]
        simp [hkey]
      · rw [linesText_singleton, run?_entry_of_not_hasKey hentry hkey hindents (by omega)
          (Nat.lt_trans (Nat.lt_succ_self 2) hfuel)]
        simp [hkey]
  | cons next entries ih =>
      have hentry := h entry List.mem_cons_self
      have hrest : ∀ other ∈ next :: entries, other.WellFormed :=
        fun other hother => h other (List.mem_cons_of_mem entry hother)
      rw [linesText_cons, List.length_append, List.length_cons] at hbound
      rw [List.length_cons] at hfuel
      rw [linesText_cons]
      by_cases hkey : entry.HasKey
      · obtain ⟨fuel, rfl⟩ : ∃ k, fuel = k + 3 := ⟨fuel - 3, by omega⟩
        have hstop := stops_break (mark.along entry.text) _
          (head?_linesText ended entries (hrest next List.mem_cons_self))
        rw [run?_entry hentry hkey rfl (endsScalar_break _) hcolumn hindents hstop (by omega),
          ih hrest rfl (.inr rfl) (by omega) (by omega)]
        simp [opening, hkey]
      · rw [run?_entry_of_not_hasKey hentry hkey hindents (by omega) (by omega)]
        simp [hkey]

end Lexer

theorem IsPlainTail.forall_allowed {behind s : Text} {spaced : Bool}
    (h : IsPlainTail behind spaced s) : ∀ c ∈ s, isAllowed c = true := by
  induction h with
  | nil => simp
  | cons allowed _ _ _ _ ih => exact List.forall_mem_cons.2 ⟨allowed, ih⟩

theorem Entry.WellFormed.forall_allowed {entry : Entry} (h : entry.WellFormed) :
    ∀ c ∈ entry.text, isAllowed c = true := by
  intro c hc
  rcases List.mem_append.1 hc with hc | hc
  · rcases List.mem_append.1 hc with hc | hc
    · exact h.name.plain.tail.forall_allowed c hc
    · rcases List.mem_cons.1 hc with rfl | hc
      · rfl
      · obtain rfl := List.mem_singleton.1 hc
        rfl
  · exact h.value.tail.forall_allowed c hc

theorem Entry.WellFormed.three_le {entry : Entry} (h : entry.WellFormed) :
    3 ≤ entry.text.length := by
  have hname := List.length_pos_iff.2 h.name.plain.ne_nil
  rw [entry.length_text]
  exact Nat.le_trans (Nat.add_le_add_right hname 2) (Nat.le_add_right _ _)

/-- The characters of a document are allowed, and enough for its tokens. -/
theorem linesText_fits (ended : Bool) {entries : List Entry}
    (h : ∀ entry ∈ entries, entry.WellFormed) :
    (∀ c ∈ linesText ended entries, isAllowed c = true) ∧
      3 * entries.length ≤ (linesText ended entries).length := by
  have hlast : ∀ c ∈ (if ended then ['\n'] else [] : Text), isAllowed c = true := by
    cases ended with
    | true => exact List.forall_mem_singleton.2 rfl
    | false => exact fun _ hc => nomatch hc
  induction entries with
  | nil => exact ⟨hlast, Nat.zero_le _⟩
  | cons entry entries ih =>
      have hentry := h entry List.mem_cons_self
      have hlength := hentry.three_le
      cases entries with
      | nil =>
          rw [linesText_singleton, List.length_append]
          exact ⟨List.forall_mem_append.2 ⟨hentry.forall_allowed, hlast⟩,
            Nat.le_trans hlength (Nat.le_add_right _ _)⟩
      | cons next entries =>
          obtain ⟨hallowed, hrest⟩ :=
            ih fun other hother => h other (List.mem_cons_of_mem entry hother)
          rw [linesText_cons, List.length_append, List.length_cons, List.length_cons]
          refine ⟨List.forall_mem_append.2 ⟨hentry.forall_allowed,
            List.forall_mem_cons.2 ⟨rfl, hallowed⟩⟩, ?_⟩
          rw [List.length_cons] at hrest ⊢
          omega

theorem tokens?_linesText {ended : Bool} {entry : Entry} {entries : List Entry}
    (h : ∀ other ∈ entry :: entries, other.WellFormed) :
    tokens? (linesText ended (entry :: entries)) =
      if ∀ other ∈ entry :: entries, other.HasKey then
        some (.blockMappingStart :: (entry :: entries).flatMap Entry.tokens ++ [.blockEnd])
      else none := by
  obtain ⟨hallowed, hlength⟩ := linesText_fits ended h
  rw [tokens?, if_pos (List.all_eq_true.2 hallowed)]
  exact Lexer.run?_lines h rfl (.inl rfl) (Nat.le_succ _) (Nat.lt_succ_of_le hlength)

namespace Node

/-- The ends of a key and of a value in block style. -/
def blockEnds : List Token := [.key, .value, .blockEnd]

theorem optional?_scalar (block flush plain : Bool) (fuel : Nat) (text : Text)
    (rest : List Token) :
    optional? block flush blockEnds (fuel + 2) (.scalar plain text :: rest) =
      some (.scalar plain text, rest) := by
  have hends : startsWith blockEnds (.scalar plain text :: rest) = false := by
    simp [startsWith, blockEnds]
  rw [optional?, hends, if_neg Bool.false_ne_true, read?]

theorem entryValue?_scalar (plain : Bool) (fuel : Nat) (text : Text) (rest : List Token) :
    entryValue? true blockEnds (fuel + 3) (.value :: .scalar plain text :: rest) =
      some (.scalar plain text, rest) := by
  rw [entryValue?.eq_def]
  exact optional?_scalar true true plain fuel text rest

theorem blockEntries?_lines {entries : List Entry} {fuel : Nat}
    (hfuel : entries.length + 3 ≤ fuel) :
    blockEntries? fuel (entries.flatMap Entry.tokens ++ [.blockEnd]) =
      some (entries.map Entry.node, []) := by
  induction entries generalizing fuel with
  | nil =>
      obtain ⟨fuel, rfl⟩ : ∃ k, fuel = k + 1 := ⟨fuel - 1, by omega⟩
      rfl
  | cons entry entries ih =>
      rw [List.length_cons] at hfuel
      obtain ⟨fuel, rfl⟩ : ∃ k, fuel = k + 3 + 1 := ⟨fuel - 4, by omega⟩
      have hrest : blockEntries? (fuel + 3) (entries.flatMap Entry.tokens ++ [.blockEnd]) =
          some (entries.map Entry.node, []) := ih (by omega)
      have hkey := optional?_scalar true true true (fuel + 1) entry.name
        (.value :: .scalar true entry.value :: (entries.flatMap Entry.tokens ++ [.blockEnd]))
      have hvalue := entryValue?_scalar true fuel entry.value
        (entries.flatMap Entry.tokens ++ [.blockEnd])
      have htokens : (entry :: entries).flatMap Entry.tokens ++ [.blockEnd] =
          .key :: .scalar true entry.name :: .value :: .scalar true entry.value ::
            (entries.flatMap Entry.tokens ++ [.blockEnd]) := rfl
      rw [blockEnds] at hkey hvalue
      simp only [htokens, blockEntries?, hkey, hvalue, hrest, Option.bind_eq_bind,
        Option.bind_some]
      rfl

theorem length_le_tokens (entries : List Entry) :
    entries.length ≤ (entries.flatMap Entry.tokens ++ [Token.blockEnd]).length := by
  rw [List.length_append, List.length_flatMap]
  refine Nat.le_trans ?_ (Nat.le_add_right _ _)
  induction entries with
  | nil => exact Nat.zero_le _
  | cons entry entries ih =>
      have hentry : entry.tokens.length = 4 := rfl
      rw [List.map_cons, List.sum_cons, List.length_cons]
      omega

theorem ofTokens?_lines (entries : List Entry) :
    ofTokens? (.blockMappingStart :: entries.flatMap Entry.tokens ++ [.blockEnd]) =
      some (some (.mapping (entries.map Entry.node))) := by
  have hlength := length_le_tokens entries
  have hentries (fuel : Nat) (hfuel : entries.length + 3 ≤ fuel) :=
    blockEntries?_lines hfuel
  rw [List.cons_append]
  generalize entries.flatMap Entry.tokens ++ [Token.blockEnd] = tokens at hlength hentries ⊢
  have hread : read? true false (3 * tokens.length + 6) (.blockMappingStart :: tokens) =
      some (.mapping (entries.map Entry.node), []) := by
    rw [read?]
    simp only [if_true, hentries _ (by omega : entries.length + 3 ≤ 3 * tokens.length + 5),
      Option.map_some]
  have hfuel : 3 * (Token.blockMappingStart :: tokens).length + 3 = 3 * tokens.length + 6 := by
    rw [List.length_cons]
    omega
  simp only [ofTokens?, hfuel, hread]
  rfl

end Node

/-- Lines of names and values are a mapping, its entries standing in the same order, unless
some name is too long to be a key. -/
theorem read?_linesText {ended : Bool} {entry : Entry} {entries : List Entry}
    (h : ∀ other ∈ entry :: entries, other.WellFormed) :
    read? (linesText ended (entry :: entries)) =
      if ∀ other ∈ entry :: entries, other.HasKey then
        some (some (.mapping ((entry :: entries).map Entry.node)))
      else none := by
  rw [read?, tokens?_linesText h]
  split
  · exact Node.ofTokens?_lines _
  · rfl

end Yaml

end PromptDraw
