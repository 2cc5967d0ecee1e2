import Mathlib.Data.List.Forall2
import PromptDraw.Proofs.Json.Scalars

/-!
Reading JSON gives back what was written, in both written forms. What both rest on is
that a text can be read as a value wherever it stands: a collection can be read if its
items can, with any layout around them. The compact form stays on one line.
-/

namespace PromptDraw

namespace Json

/-- A text that is read as a value, as long as no numeral goes on behind it. -/
def Spells (t : Text) (j : Json) : Prop :=
  ∀ fuel rest, t.length < fuel → EndsNumeral rest → readValue? fuel (t ++ rest) = some (j, rest)

/-- A text that is read as an entry: layout, the key, a colon and the value. -/
def SpellsEntry (t : Text) (entry : Text × Json) : Prop :=
  ∃ w u, IsLayout w ∧ Spells u entry.2 ∧ t = w ++ stringText entry.1 ++ ':' :: u

theorem Spells.layout {w t : Text} {j : Json} (hw : IsLayout w) (h : Spells t j) :
    Spells (w ++ t) j := by
  intro fuel rest hfuel hrest
  rw [List.length_append] at hfuel
  rw [List.append_assoc, readValue?_layout hw]
  exact h fuel rest (by omega) hrest

section Scalars

theorem spells_bool (value : Bool) : Spells (boolText value) (.bool value) := by
  intro fuel rest hfuel _
  obtain ⟨fuel, rfl⟩ : ∃ f, fuel = f + 1 := ⟨fuel - 1, by omega⟩
  cases value with
  | true | false => rfl

theorem spells_number (value : Nat) : Spells (Text.ofNat value) (.number value) := by
  intro fuel rest hfuel hrest
  obtain ⟨fuel, rfl⟩ : ∃ f, fuel = f + 1 := ⟨fuel - 1, by omega⟩
  have hread := readNumber?_ofNat value hrest
  obtain ⟨c, digits, hdigits⟩ := List.exists_cons_of_ne_nil (Text.ofNat_ne_nil value)
  have hc : c.isDigit = true := Text.isDigit_of_mem_ofNat (hdigits ▸ List.mem_cons_self)
  rw [hdigits, List.cons_append] at hread ⊢
  rw [readValue?, skipLayout_cons (isLayout_of_isDigit hc)]
  -- A digit opens none of the other values.
  split <;> rename_i hopen <;> try (cases hopen; cases hc)
  rw [hread]
  rfl

theorem spells_string (value : Text) : Spells (stringText value) (.string value) := by
  intro fuel rest hfuel _
  obtain ⟨fuel, rfl⟩ : ∃ f, fuel = f + 1 := ⟨fuel - 1, by omega⟩
  rw [readValue?, stringText_append, skipLayout_cons rfl]
  simp only [readString?_text, Option.map_some]

theorem spells_empty : Spells ['[', ']'] (.array []) ∧ Spells ['{', '}'] (.object []) := by
  constructor <;>
  · intro fuel rest hfuel _
    obtain ⟨fuel, rfl⟩ : ∃ f, fuel = f + 1 := ⟨fuel - 1, by omega⟩
    rfl

end Scalars

section Steps

variable {fuel : Nat} {s t rest rest' rest'' : Text}

theorem readItems?_last {item : Json} (hread : readValue? fuel s = some (item, rest))
    (hend : skipLayout rest = ']' :: rest') :
    readItems? (fuel + 1) s = some ([item], rest') := by
  rw [readItems?, hread]
  simp only [Option.bind_eq_bind, Option.bind_some, hend]
  rfl

theorem readItems?_cons {item : Json} {items : List Json}
    (hread : readValue? fuel s = some (item, rest)) (hcomma : skipLayout rest = ',' :: rest')
    (hothers : readItems? fuel rest' = some (items, rest'')) :
    readItems? (fuel + 1) s = some (item :: items, rest'') := by
  rw [readItems?, hread]
  simp only [Option.bind_eq_bind, Option.bind_some, hcomma, hothers]
  rfl

variable {key : Text} {value : Json} (hkey : skipLayout s = stringText key ++ ':' :: t)

include hkey

theorem readEntries?_last (hread : readValue? fuel t = some (value, rest))
    (hend : skipLayout rest = '}' :: rest') :
    readEntries? (fuel + 1) s = some ([(key, value)], rest') := by
  rw [readEntries?, hkey, stringText_append]
  simp only [readString?_text, Option.bind_eq_bind, Option.bind_some,
    skipLayout_cons (c := ':') rfl, hread, hend]
  rfl

theorem readEntries?_cons {entries : List (Text × Json)}
    (hread : readValue? fuel t = some (value, rest)) (hcomma : skipLayout rest = ',' :: rest')
    (hothers : readEntries? fuel rest' = some (entries, rest'')) :
    readEntries? (fuel + 1) s = some ((key, value) :: entries, rest'') := by
  rw [readEntries?, hkey, stringText_append]
  simp only [readString?_text, Option.bind_eq_bind, Option.bind_some,
    skipLayout_cons (c := ':') rfl, hread, hcomma, hothers]
  rfl

end Steps

section Collections

/-- No value starts with a closing bracket, so no items do. -/
theorem readItems?_bracket {s rest : Text} (h : skipLayout s = ']' :: rest) (fuel : Nat) :
    readItems? fuel s = none := by
  have hvalue (fuel : Nat) : readValue? fuel s = none := by
    cases fuel with
    | zero => rfl
    | succ fuel =>
        rw [readValue?, h]
        rfl
  cases fuel with
  | zero => rfl
  | succ fuel =>
      rw [readItems?, hvalue]
      rfl

theorem readEntries?_brace {s rest : Text} (h : skipLayout s = '}' :: rest) (fuel : Nat) :
    readEntries? fuel s = none := by
  cases fuel with
  | zero => rfl
  | succ fuel =>
      rw [readEntries?, h]
      rfl

theorem readItems?_skipLayout (fuel : Nat) (s : Text) :
    readItems? fuel (skipLayout s) = readItems? fuel s := by
  obtain ⟨w, hw, hs⟩ := exists_layout s
  cases fuel with
  | zero => rfl
  | succ fuel =>
      have hvalue := readValue?_layout hw fuel (skipLayout s)
      rw [readItems?, readItems?, ← hvalue, ← hs]

theorem readEntries?_skipLayout (fuel : Nat) (s : Text) :
    readEntries? fuel (skipLayout s) = readEntries? fuel s := by
  obtain ⟨w, hw, hs⟩ := exists_layout s
  cases fuel with
  | zero => rfl
  | succ fuel =>
      have hskip := skipLayout_append hw (skipLayout s)
      rw [readEntries?, readEntries?, ← hskip, ← hs]

theorem readValue?_items {s rest : Text} {items : List Json} {fuel : Nat}
    (h : readItems? fuel s = some (items, rest)) :
    readValue? (fuel + 1) ('[' :: s) = some (.array items, rest) := by
  rw [readValue?, skipLayout_cons rfl]
  simp only
  split
  · rename_i hbracket
    rw [readItems?_bracket hbracket] at h
    cases h
  · rw [readItems?_skipLayout, h]
    rfl

theorem readValue?_entries {s rest : Text} {entries : List (Text × Json)} {fuel : Nat}
    (h : readEntries? fuel s = some (entries, rest)) :
    readValue? (fuel + 1) ('{' :: s) = some (.object entries, rest) := by
  rw [readValue?, skipLayout_cons rfl]
  simp only
  split
  · rename_i hbrace
    rw [readEntries?_brace hbrace] at h
    cases h
  · rw [readEntries?_skipLayout, h]
    rfl

variable {texts : List Text} {w : Text} (hne : texts ≠ []) (hw : IsLayout w) (rest : Text)

include hne hw

theorem readItems?_intercalate {fuel : Nat} {items : List Json}
    (h : List.Forall₂ Spells texts items)
    (hfuel : ([','].intercalate texts ++ w).length + 1 < fuel) :
    readItems? fuel ([','].intercalate texts ++ w ++ ']' :: rest) = some (items, rest) := by
  induction h generalizing fuel with
  | nil => exact absurd rfl hne
  | @cons text item texts items hitem hitems ih =>
      obtain ⟨fuel, rfl⟩ : ∃ f, fuel = f + 1 := ⟨fuel - 1, by omega⟩
      rw [List.length_append] at hfuel
      cases texts with
      | nil =>
          obtain rfl := List.forall₂_nil_left_iff.1 hitems
          have hend : EndsNumeral (w ++ ']' :: rest) :=
            endsNumeral_layout hw (endsNumeral_cons rfl rest)
          rw [List.intercalate_singleton] at hfuel ⊢
          rw [List.append_assoc]
          exact readItems?_last (hitem fuel _ (by omega) hend) (skipLayout_layout hw rfl rest)
      | cons next texts =>
          rw [List.intercalate_cons_cons] at hfuel ⊢
          simp only [List.length_append, List.length_singleton] at hfuel
          have hless : ([','].intercalate (next :: texts) ++ w).length + 1 < fuel := by
            rw [List.length_append]
            omega
          have hothers := ih (List.cons_ne_nil _ _) hless
          rw [List.append_assoc, List.append_assoc, List.append_assoc]
          rw [List.append_assoc] at hothers
          exact readItems?_cons (hitem fuel _ (by omega) (endsNumeral_cons rfl _))
            (skipLayout_cons rfl _) hothers

theorem readEntries?_intercalate {fuel : Nat} {entries : List (Text × Json)}
    (h : List.Forall₂ SpellsEntry texts entries)
    (hfuel : ([','].intercalate texts ++ w).length + 1 < fuel) :
    readEntries? fuel ([','].intercalate texts ++ w ++ '}' :: rest) = some (entries, rest) := by
  induction h generalizing fuel with
  | nil => exact absurd rfl hne
  | @cons text entry texts entries hentry hentries ih =>
      obtain ⟨fuel, rfl⟩ : ∃ f, fuel = f + 1 := ⟨fuel - 1, by omega⟩
      obtain ⟨pad, value, hpad, hvalue, rfl⟩ := hentry
      have hkey (rest : Text) : skipLayout (pad ++ stringText entry.1 ++ ':' :: value ++ rest) =
          stringText entry.1 ++ ':' :: (value ++ rest) := by
        simp only [List.append_assoc, List.cons_append, skipLayout_append hpad]
        exact skipLayout_cons rfl _
      cases texts with
      | nil =>
          obtain rfl := List.forall₂_nil_left_iff.1 hentries
          have hend : EndsNumeral (w ++ '}' :: rest) :=
            endsNumeral_layout hw (endsNumeral_cons rfl rest)
          rw [List.intercalate_singleton] at hfuel ⊢
          simp only [List.length_append, List.length_cons] at hfuel
          rw [List.append_assoc]
          exact readEntries?_last (hkey _) (hvalue fuel _ (by omega) hend)
            (skipLayout_layout hw rfl rest)
      | cons next texts =>
          rw [List.intercalate_cons_cons] at hfuel ⊢
          simp only [List.length_append, List.length_cons, List.length_nil] at hfuel
          have hless : ([','].intercalate (next :: texts) ++ w).length + 1 < fuel := by
            rw [List.length_append]
            omega
          have hothers := ih (List.cons_ne_nil _ _) hless
          rw [List.append_assoc] at hothers
          rw [List.append_assoc, List.append_assoc, List.append_assoc]
          exact readEntries?_cons (hkey _) (hvalue fuel _ (by omega) (endsNumeral_cons rfl _))
            (skipLayout_cons rfl _) hothers

theorem spells_array {items : List Json} (h : List.Forall₂ Spells texts items) :
    Spells (['['] ++ [','].intercalate texts ++ w ++ [']']) (.array items) := by
  intro fuel rest hfuel _
  obtain ⟨fuel, rfl⟩ : ∃ f, fuel = f + 1 := ⟨fuel - 1, by omega⟩
  simp only [List.length_append, List.length_singleton] at hfuel
  have hless : ([','].intercalate texts ++ w).length + 1 < fuel := by
    rw [List.length_append]
    omega
  have hread := readValue?_items (readItems?_intercalate hne hw rest h hless)
  simpa using hread

theorem spells_object {entries : List (Text × Json)}
    (h : List.Forall₂ SpellsEntry texts entries) :
    Spells (['{'] ++ [','].intercalate texts ++ w ++ ['}']) (.object entries) := by
  intro fuel rest hfuel _
  obtain ⟨fuel, rfl⟩ : ∃ f, fuel = f + 1 := ⟨fuel - 1, by omega⟩
  simp only [List.length_append, List.length_singleton] at hfuel
  have hless : ([','].intercalate texts ++ w).length + 1 < fuel := by
    rw [List.length_append]
    omega
  have hread := readValue?_entries (readEntries?_intercalate hne hw rest h hless)
  simpa using hread

end Collections

/-- Induction over a value: a collection is reached from its items. -/
theorem induct {P : Json → Prop} (bool : ∀ value, P (.bool value))
    (number : ∀ value, P (.number value)) (string : ∀ value, P (.string value))
    (array : ∀ items, (∀ item ∈ items, P item) → P (.array items))
    (object : ∀ entries : List (Text × Json), (∀ entry ∈ entries, P entry.2) →
      P (.object entries))
    (j : Json) : P j := by
  refine @Json.rec P (fun items => ∀ item ∈ items, P item)
    (fun entries => ∀ entry ∈ entries, P entry.2) (fun entry => P entry.2)
    bool number string array object ?_ ?_ ?_ ?_ ?_ j
  · exact List.forall_mem_nil _
  · exact fun item items hitem hitems => List.forall_mem_cons.2 ⟨hitem, hitems⟩
  · exact List.forall_mem_nil _
  · exact fun entry entries hentry hentries => List.forall_mem_cons.2 ⟨hentry, hentries⟩
  · exact fun key value hvalue => hvalue

section Written

/-- What is written one by one with commas between is joined with commas. -/
theorem eq_intercalate {α : Type} {write : List α → Text} {writeOne : α → Text}
    (hnil : write [] = []) (hone : ∀ a, write [a] = writeOne a)
    (hcons : ∀ a b rest, write (a :: b :: rest) = writeOne a ++ [','] ++ write (b :: rest))
    (items : List α) : write items = [','].intercalate (items.map writeOne) := by
  induction items with
  | nil => exact hnil
  | cons item rest ih =>
      cases rest with
      | nil => rw [hone, List.map_singleton, List.intercalate_singleton]
      | cons next rest =>
          rw [hcons, ih, List.map_cons, List.map_cons, List.map_cons, List.intercalate_cons_cons]

def compactEntry (entry : Text × Json) : Text :=
  stringText entry.1 ++ [':'] ++ entry.2.compact

theorem compactItems_eq (items : List Json) :
    compactItems items = [','].intercalate (items.map compact) :=
  eq_intercalate rfl (fun _ => rfl) (fun _ _ _ => rfl) items

theorem compactEntries_eq (entries : List (Text × Json)) :
    compactEntries entries = [','].intercalate (entries.map compactEntry) :=
  eq_intercalate rfl (fun _ => rfl) (fun _ _ _ => rfl) entries

variable (level : Nat)

def prettyItem (item : Json) : Text :=
  newline level ++ item.pretty level

def prettyEntry (entry : Text × Json) : Text :=
  newline level ++ stringText entry.1 ++ [':', ' '] ++ entry.2.pretty level

theorem prettyItems_eq (items : List Json) :
    prettyItems level items = [','].intercalate (items.map (prettyItem level)) :=
  eq_intercalate rfl (fun _ => rfl) (fun _ _ _ => rfl) items

theorem prettyEntries_eq (entries : List (Text × Json)) :
    prettyEntries level entries = [','].intercalate (entries.map (prettyEntry level)) :=
  eq_intercalate rfl (fun _ => rfl) (fun _ _ _ => rfl) entries

end Written

theorem spells_compact (j : Json) : Spells j.compact j := by
  induction j using induct with
  | bool value => exact spells_bool value
  | number value => exact spells_number value
  | string value => exact spells_string value
  | array items ih =>
      cases items with
      | nil => exact spells_empty.1
      | cons item rest =>
          have hitems : List.Forall₂ Spells ((item :: rest).map compact) (item :: rest) :=
            List.forall₂_map_left_iff.2 (List.forall₂_same.2 ih)
          have hspells := spells_array (by simp) isLayout_nil hitems
          rwa [List.append_nil, ← compactItems_eq] at hspells
  | object entries ih =>
      cases entries with
      | nil => exact spells_empty.2
      | cons entry rest =>
          have hentries : List.Forall₂ SpellsEntry ((entry :: rest).map compactEntry)
              (entry :: rest) := by
            refine List.forall₂_map_left_iff.2 (List.forall₂_same.2 fun entry hentry => ?_)
            exact ⟨[], entry.2.compact, isLayout_nil, ih entry hentry, by simp [compactEntry]⟩
          have hspells := spells_object (by simp) isLayout_nil hentries
          rwa [List.append_nil, ← compactEntries_eq] at hspells

theorem spells_pretty (j : Json) (level : Nat) : Spells (j.pretty level) j := by
  induction j using induct generalizing level with
  | bool value => exact spells_bool value
  | number value => exact spells_number value
  | string value => exact spells_string value
  | array items ih =>
      cases items with
      | nil => exact spells_empty.1
      | cons item rest =>
          have hitems : List.Forall₂ Spells ((item :: rest).map (prettyItem (level + 1)))
              (item :: rest) := by
            refine List.forall₂_map_left_iff.2 (List.forall₂_same.2 fun item hitem => ?_)
            exact (ih item hitem (level + 1)).layout (isLayout_newline _)
          have hspells := spells_array (by simp) (isLayout_newline level) hitems
          rwa [← prettyItems_eq] at hspells
  | object entries ih =>
      cases entries with
      | nil => exact spells_empty.2
      | cons entry rest =>
          have hgap : IsLayout [' '] := List.forall_mem_singleton.2 rfl
          have hentries : List.Forall₂ SpellsEntry ((entry :: rest).map (prettyEntry (level + 1)))
              (entry :: rest) := by
            refine List.forall₂_map_left_iff.2 (List.forall₂_same.2 fun entry hentry => ?_)
            exact ⟨newline (level + 1), [' '] ++ entry.2.pretty (level + 1), isLayout_newline _,
              (ih entry hentry (level + 1)).layout hgap, by simp [prettyEntry]⟩
          have hspells := spells_object (by simp) (isLayout_newline level) hentries
          rwa [← prettyEntries_eq] at hspells

theorem read?_of_spells {t : Text} {j : Json} (h : Spells t j) : read? t = some j := by
  have hread := h (t.length + 1) [] (Nat.lt_succ_self _) (fun _ hc => by cases hc)
  rw [List.append_nil] at hread
  rw [read?, hread]
  rfl

theorem read?_compact (j : Json) : read? j.compact = some j :=
  read?_of_spells (spells_compact j)

theorem read?_pretty (j : Json) (level : Nat) : read? (j.pretty level) = some j :=
  read?_of_spells (spells_pretty j level)

section Line

theorem mem_intercalate {separator : Text} {texts : List Text} {c : Char}
    (h : c ∈ separator.intercalate texts) : c ∈ separator ∨ ∃ t ∈ texts, c ∈ t := by
  induction texts with
  | nil => cases h
  | cons text rest ih =>
      cases rest with
      | nil =>
          rw [List.intercalate_singleton] at h
          exact .inr ⟨text, List.mem_singleton_self _, h⟩
      | cons next rest =>
          rw [List.intercalate_cons_cons] at h
          rcases List.mem_append.1 h with h | h
          · rcases List.mem_append.1 h with h | h
            · exact .inr ⟨text, List.mem_cons_self, h⟩
            · exact .inl h
          · obtain hseparator | ⟨t, ht, hc⟩ := ih h
            · exact .inl hseparator
            · exact .inr ⟨t, List.mem_cons_of_mem _ ht, hc⟩

/-- The compact form holds no control character, so it stays on one line. -/
theorem not_control_of_mem_compact {j : Json} {c : Char} (h : c ∈ j.compact) : ¬c < ' ' := by
  induction j using induct with
  | bool value =>
      have hall : (boolText value).all (¬· < ' ') = true := by cases value <;> decide
      exact of_decide_eq_true (List.all_eq_true.1 hall c h)
  | number value =>
      intro hcontrol
      have hnot := of_control (P := fun c => c.isDigit = false) (by decide) hcontrol
      rw [Text.isDigit_of_mem_ofNat h] at hnot
      cases hnot
  | string value => exact not_control_of_mem_stringText h
  | array items ih =>
      rw [compact, compactItems_eq] at h
      simp only [List.mem_append, List.mem_singleton] at h
      rcases h with (rfl | h) | rfl
      · decide
      · obtain hcomma | ⟨t, ht, hc⟩ := mem_intercalate h
        · exact List.mem_singleton.1 hcomma ▸ by decide
        · obtain ⟨item, hitem, rfl⟩ := List.mem_map.1 ht
          exact ih item hitem hc
      · decide
  | object entries ih =>
      rw [compact, compactEntries_eq] at h
      simp only [List.mem_append, List.mem_singleton] at h
      rcases h with (rfl | h) | rfl
      · decide
      · obtain hcomma | ⟨t, ht, hc⟩ := mem_intercalate h
        · exact List.mem_singleton.1 hcomma ▸ by decide
        · obtain ⟨entry, hentry, rfl⟩ := List.mem_map.1 ht
          simp only [compactEntry, List.mem_append, List.mem_singleton] at hc
          rcases hc with (hc | rfl) | hc
          · exact not_control_of_mem_stringText hc
          · decide
          · exact ih entry hentry hc
      · decide

end Line

end Json

end PromptDraw
