import ReleaseSearch.Isbn
import ReleaseSearch.Proofs.Language

/-! Blanks around a text. Texts that differ in nothing else are those that are equal when they are
trimmed, so all that reads a text trimmed takes them for the same. -/
namespace ReleaseSearch

namespace Text

/-- The core, with any blanks in front of it and behind it. -/
def Padded (core : List Char) (s : String) : Prop :=
  ∃ front back, (∀ c ∈ front, isBlank c = true) ∧ (∀ c ∈ back, isBlank c = true) ∧
    s.toList = front ++ core ++ back

/-- Two texts that differ by blanks at their ends. -/
def Respaced (s t : String) : Prop := ∃ core, Padded core s ∧ Padded core t

theorem exists_dropEndWhile (p : Char → Bool) (cs : List Char) :
    ∃ back, (∀ c ∈ back, p c = true) ∧ cs = dropEndWhile p cs ++ back := by
  refine ⟨(cs.reverse.takeWhile p).reverse, ?_, ?_⟩
  · intro c member
    exact List.mem_takeWhile_imp (List.mem_reverse.mp member)
  · rw [dropEndWhile, ← List.reverse_append, List.takeWhile_append_dropWhile, List.reverse_reverse]

theorem dropEndWhile_append {p : Char → Bool} {back : List Char} (h : ∀ c ∈ back, p c = true)
    (cs : List Char) : dropEndWhile p (cs ++ back) = dropEndWhile p cs := by
  have test : ∀ c ∈ back.reverse, p c = true := by simpa using h
  rw [dropEndWhile, List.reverse_append, List.dropWhile_append_of_pos test, dropEndWhile]

theorem stripWhile_pad {p : Char → Bool} {front back : List Char}
    (before : ∀ c ∈ front, p c = true) (behind : ∀ c ∈ back, p c = true) (core : List Char) :
    stripWhile p (front ++ core ++ back) = stripWhile p core := by
  rw [List.append_assoc, stripWhile, List.dropWhile_append_of_pos before, List.dropWhile_append,
    stripWhile]
  split
  · rename_i gone
    have empty : core.dropWhile p = [] := by simpa using gone
    have none_left : back.dropWhile p = [] := by simpa using behind
    rw [empty, none_left]
  · exact dropEndWhile_append behind _

theorem exists_stripWhile (p : Char → Bool) (cs : List Char) :
    ∃ front back, (∀ c ∈ front, p c = true) ∧ (∀ c ∈ back, p c = true) ∧
      cs = front ++ stripWhile p cs ++ back := by
  obtain ⟨back, behind, split⟩ := exists_dropEndWhile p (cs.dropWhile p)
  refine ⟨cs.takeWhile p, back, fun c member => List.mem_takeWhile_imp member, behind, ?_⟩
  rw [List.append_assoc]
  exact (List.takeWhile_append_dropWhile (p := p)).symm.trans
    (congrArg (cs.takeWhile p ++ ·) split)

/-- The core of a text: what is left when the characters of a class are taken off its ends. -/
def Stripped (p : Char → Bool) (core cs : List Char) : Prop :=
  ClearEnds p core ∧ ∃ front back, (∀ c ∈ front, p c = true) ∧ (∀ c ∈ back, p c = true) ∧
    cs = front ++ core ++ back

theorem stripped_iff {p : Char → Bool} {core cs : List Char} :
    Stripped p core cs ↔ core = stripWhile p cs := by
  constructor
  · rintro ⟨clear, front, back, before, behind, rfl⟩
    rw [stripWhile_pad before behind, stripWhile_of_clearEnds clear]
  · rintro rfl
    exact ⟨clearEnds_stripWhile p cs, exists_stripWhile p cs⟩

theorem padded_trim (s : String) : Padded (trim s).toList s := by
  rw [toList_trim]
  exact exists_stripWhile isBlank s.toList

theorem trim_sublist (s : String) : (trim s).toList.Sublist s.toList := by
  obtain ⟨front, back, _, _, split⟩ := padded_trim s
  rw [split]
  exact (List.sublist_append_right ..).trans (List.sublist_append_left ..)

theorem length_trim_le (s : String) : (trim s).length ≤ s.length := by
  rw [← String.length_toList, ← String.length_toList]
  exact (trim_sublist s).length_le

/-- The front of a trimmed text has blanks at its end only. -/
theorem exists_gap_of_front {s front : String} (clear : Trimmed s) {rest : List Char}
    (split : s.toList = front.toList ++ rest) :
    ∃ gap, (∀ c ∈ gap, isBlank c = true) ∧ front.toList = (trim front).toList ++ gap := by
  obtain ⟨blanks, gap, before, behind, parts⟩ := padded_trim front
  cases blanks with
  | nil => exact ⟨gap, behind, by rwa [List.nil_append] at parts⟩
  | cons c blanks =>
    have first : c ∈ s.toList.head? := by
      rw [split, parts, List.cons_append, List.cons_append, List.cons_append]
      rfl
    have filled := clear.1 c first
    rw [before c (List.mem_cons_self ..)] at filled
    cases filled

/-- The back of a trimmed text has blanks in front only. -/
theorem exists_gap_of_back {s back : String} (clear : Trimmed s) {rest : List Char}
    (split : s.toList = rest ++ back.toList) :
    ∃ gap, (∀ c ∈ gap, isBlank c = true) ∧ back.toList = gap ++ (trim back).toList := by
  obtain ⟨gap, blanks, before, behind, parts⟩ := padded_trim back
  cases blanks using List.reverseRecOn with
  | nil => exact ⟨gap, before, by rwa [List.append_nil] at parts⟩
  | append_singleton blanks c =>
    have last : c ∈ s.toList.getLast? := by
      rw [split, parts, ← List.append_assoc, ← List.append_assoc]
      exact List.getLast?_concat
    have filled := clear.2 c last
    rw [behind c (by simp)] at filled
    cases filled

theorem prefix_of_front {s front : String} (clear : Trimmed s) {rest : List Char}
    (split : s.toList = front.toList ++ rest) : (trim front).toList <+: s.toList := by
  obtain ⟨gap, _, parts⟩ := exists_gap_of_front clear split
  exact ⟨gap ++ rest, by rw [split, ← List.append_assoc, ← parts]⟩

theorem suffix_of_back {s back : String} (clear : Trimmed s) {rest : List Char}
    (split : s.toList = rest ++ back.toList) : (trim back).toList <:+ s.toList := by
  obtain ⟨gap, _, parts⟩ := exists_gap_of_back clear split
  exact ⟨rest ++ gap, by rw [split, List.append_assoc, ← parts]⟩

theorem respaced_iff {s t : String} : Respaced s t ↔ trim s = trim t := by
  constructor
  · rintro ⟨core, ⟨front, back, before, behind, eq⟩, ⟨front', back', before', behind', eq'⟩⟩
    rw [trim, trim, eq, eq', stripWhile_pad before behind, stripWhile_pad before' behind']
  · intro same
    refine ⟨(trim s).toList, padded_trim s, ?_⟩
    rw [same]
    exact padded_trim t

instance (s t : String) : Decidable (Respaced s t) := decidable_of_iff _ respaced_iff.symm

theorem Respaced.trim_eq {s t : String} (h : Respaced s t) : trim s = trim t := respaced_iff.mp h

theorem Respaced.nonBlank_eq {s t : String} (h : Respaced s t) : nonBlank s = nonBlank t :=
  (nonBlank_eq_nonBlank_iff s t).mpr h.trim_eq

theorem Respaced.normalize_eq {s t : String} (h : Respaced s t) :
    Language.normalize s = Language.normalize t := congrArg lower h.trim_eq

theorem Padded.normalize?_eq {core : List Char} {s : String} (h : Padded core s) :
    Isbn.normalize? s = Isbn.normalize? (String.ofList core) := by
  obtain ⟨front, back, before, behind, eq⟩ := h
  have dropped : ∀ {cs : List Char}, (∀ c ∈ cs, isBlank c = true) →
      cs.filter (fun c => !Isbn.isSeparator c) = [] := by
    intro cs blank
    rw [List.filter_eq_nil_iff]
    intro c member
    simp [Isbn.isSeparator, blank c member]
  simp [Isbn.normalize?, eq, dropped before, dropped behind]

theorem Respaced.isbn_eq {s t : String} (h : Respaced s t) :
    Isbn.normalize? s = Isbn.normalize? t := by
  obtain ⟨core, first, second⟩ := h
  exact first.normalize?_eq.trans second.normalize?_eq.symm

/-! Texts that may be missing. Both are there or neither is. -/

section Optional

variable {α : Type} {o o' : Option String}

theorem map_eq_of_rel {f : String → α} (blind : ∀ {s t}, Respaced s t → f s = f t)
    (h : Option.Rel Respaced o o') : o.map f = o'.map f := by
  cases h with
  | none => rfl
  | some same => exact congrArg some (blind same)

theorem bind_eq_of_rel {f : String → Option α} (blind : ∀ {s t}, Respaced s t → f s = f t)
    (h : Option.Rel Respaced o o') : o.bind f = o'.bind f := by
  cases h with
  | none => rfl
  | some same => exact blind same

theorem rel_head? {list list' : List String} (h : List.Forall₂ Respaced list list') :
    Option.Rel Respaced list.head? list'.head? := by
  cases h with
  | nil => exact .none
  | cons same _ => exact .some same

end Optional

end Text

end ReleaseSearch
