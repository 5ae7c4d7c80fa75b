import Mathlib.Data.List.DropRight
import ReleaseSearch.Text.Blank

/-! Trimming. A trimmed text is one without a blank at either end, and these are the texts that
trimming leaves as they are. -/
namespace ReleaseSearch.Text

/-- The test holds neither of the first character nor of the last. -/
def ClearEnds (p : Char → Bool) (cs : List Char) : Prop :=
  (∀ c ∈ cs.head?, p c = false) ∧ (∀ c ∈ cs.getLast?, p c = false)

section Run

variable {p : Char → Bool} {front rest : List Char} (inside : ∀ c ∈ front, p c = true)
  (stops : ∀ c ∈ rest.head?, p c = false)
include inside stops

/-- A run of characters ends where the test holds no longer. -/
theorem split_run : (front ++ rest).takeWhile p = front ∧ (front ++ rest).dropWhile p = rest := by
  rw [List.takeWhile_append_of_pos inside, List.dropWhile_append_of_pos inside]
  cases rest with
  | nil => exact ⟨List.append_nil front, rfl⟩
  | cons c more => simp [stops c rfl]

theorem eq_of_run {front' rest' : List Char} (inside' : ∀ c ∈ front', p c = true)
    (stops' : ∀ c ∈ rest'.head?, p c = false) (same : front ++ rest = front' ++ rest') :
    front = front' ∧ rest = rest' := by
  obtain ⟨taken, left⟩ := split_run inside stops
  obtain ⟨taken', left'⟩ := split_run inside' stops'
  rw [same] at taken left
  exact ⟨taken.symm.trans taken', left.symm.trans left'⟩

end Run

theorem dropEndWhile_eq (p : Char → Bool) (cs : List Char) :
    dropEndWhile p cs = cs.rdropWhile p := rfl

theorem stripWhile_of_clearEnds {p : Char → Bool} {cs : List Char} (h : ClearEnds p cs) :
    stripWhile p cs = cs := by
  obtain ⟨first, last⟩ := h
  have front : cs.dropWhile p = cs := by
    cases cs with
    | nil => rfl
    | cons c rest => simp [first c rfl]
  rw [stripWhile, front, dropEndWhile_eq, List.rdropWhile_eq_self_iff]
  intro nonempty
  simp [last _ (List.getLast?_eq_some_getLast nonempty)]

theorem clearEnds_stripWhile (p : Char → Bool) (cs : List Char) :
    ClearEnds p (stripWhile p cs) := by
  rw [stripWhile, dropEndWhile_eq]
  constructor
  · intro c hc
    -- what is left after the end is cut begins as the text did before
    have same : ((cs.dropWhile p).rdropWhile p).head? = (cs.dropWhile p).head? := by
      obtain ⟨tail, split⟩ := List.rdropWhile_prefix (p := p) (l := cs.dropWhile p)
      cases kept : (cs.dropWhile p).rdropWhile p with
      | nil => simp [kept] at hc
      | cons d rest => rw [← split, kept]; rfl
    have clear := List.head?_dropWhile_not p cs
    rw [← same, Option.mem_def.mp hc] at clear
    simpa using clear
  · intro c hc
    cases kept : (cs.dropWhile p).rdropWhile p with
    | nil => simp [kept] at hc
    | cons d rest =>
      have nonempty : (cs.dropWhile p).rdropWhile p ≠ [] := by simp [kept]
      have clear := List.rdropWhile_last_not p (cs.dropWhile p) nonempty
      rw [List.getLast?_eq_some_getLast nonempty] at hc
      cases Option.mem_some.mp hc
      simpa using clear

theorem stripWhile_eq_nil_iff (p : Char → Bool) (cs : List Char) :
    stripWhile p cs = [] ↔ ∀ c ∈ cs, p c = true := by
  rw [stripWhile, dropEndWhile_eq, List.rdropWhile_eq_nil_iff]
  constructor
  · intro h
    have front : cs.dropWhile p = [] := by
      cases left : cs.dropWhile p with
      | nil => rfl
      | cons c rest =>
        have clear := List.head?_dropWhile_not p cs
        simp only [left, List.head?_cons] at clear
        simp [h c (by simp [left])] at clear
    exact List.dropWhile_eq_nil_iff.mp front
  · intro h c hc
    exact h c ((List.dropWhile_suffix p).subset hc)

/-- No blank at either end. -/
def Trimmed (s : String) : Prop := ClearEnds isBlank s.toList

@[simp]
theorem toList_trim (s : String) : (trim s).toList = stripWhile isBlank s.toList := by
  simp [trim]

theorem trim_of_trimmed {s : String} (h : Trimmed s) : trim s = s := by
  rw [trim, stripWhile_of_clearEnds h, String.ofList_toList]

theorem trimmed_trim (s : String) : Trimmed (trim s) := by
  rw [Trimmed, toList_trim]
  exact clearEnds_stripWhile isBlank s.toList

@[simp]
theorem trim_trim (s : String) : trim (trim s) = trim s := trim_of_trimmed (trimmed_trim s)

theorem trim_eq_empty_iff (s : String) : trim s = "" ↔ ∀ c ∈ s.toList, isBlank c = true := by
  rw [← stripWhile_eq_nil_iff, ← toList_trim, String.toList_eq_nil_iff]

theorem trim_append_eq_empty_iff (s t : String) :
    trim (s ++ t) = "" ↔ trim s = "" ∧ trim t = "" := by
  rw [trim_eq_empty_iff, trim_eq_empty_iff, trim_eq_empty_iff, String.toList_append,
    List.forall_mem_append]

theorem nonBlank_of_blank {s : String} (blank : trim s = "") : nonBlank s = none := if_pos blank

theorem nonBlank_eq_some_iff (s t : String) : nonBlank s = some t ↔ trim s = t ∧ t ≠ "" := by
  unfold nonBlank
  split
  · rename_i blank
    constructor
    · intro h; cases h
    · rintro ⟨rfl, h⟩; exact absurd blank h
  · rename_i h
    constructor
    · intro eq; cases eq; exact ⟨rfl, h⟩
    · rintro ⟨rfl, _⟩; rfl

theorem nonBlank_eq_nonBlank_iff (s t : String) : nonBlank s = nonBlank t ↔ trim s = trim t := by
  constructor
  · intro same
    unfold nonBlank at same
    split at same
    · rename_i blank
      split at same
      · rename_i blank_too
        rw [blank, blank_too]
      · cases same
    · split at same
      · cases same
      · exact Option.some.inj same
  · intro same
    rw [nonBlank, nonBlank, same]

/-- Not blank, and without a blank at either end. -/
structure Tidy (s : String) : Prop where
  trimmed : Trimmed s
  filled : ∃ c ∈ s.toList, isBlank c = false

theorem tidy_trim {s : String} (h : trim s ≠ "") : Tidy (trim s) := by
  refine ⟨trimmed_trim s, ?_⟩
  rw [← trim_trim, Ne, trim_eq_empty_iff] at h
  simpa using h

/-- The front of a trimmed text is not blank, for its first character is none. -/
theorem trim_ne_empty_of_front {s : String} (clear : Trimmed s) {front rest : List Char}
    (filled : front ≠ []) (split : s.toList = front ++ rest) :
    trim (String.ofList front) ≠ "" := by
  obtain ⟨c, more, rfl⟩ := List.exists_cons_of_ne_nil filled
  rw [Ne, trim_eq_empty_iff, String.toList_ofList]
  intro blank
  have first := clear.1 c (by rw [split]; rfl)
  rw [blank c (List.mem_cons_self ..)] at first
  cases first

/-- The back of a trimmed text is not blank, for its last character is none. -/
theorem trim_ne_empty_of_back {s : String} (clear : Trimmed s) {front back : List Char}
    (filled : back ≠ []) (split : s.toList = front ++ back) :
    trim (String.ofList back) ≠ "" := by
  rw [Ne, trim_eq_empty_iff, String.toList_ofList]
  intro blank
  have last : back.getLast filled ∈ s.toList.getLast? := by
    rw [split, List.getLast?_append_of_ne_nil _ filled, List.getLast?_eq_some_getLast filled]
    rfl
  have kept := clear.2 _ last
  rw [blank _ (List.getLast_mem filled)] at kept
  cases kept

theorem tidy_of_bind_nonBlank {text : Option String} {t : String}
    (h : text.bind nonBlank = some t) : Tidy t := by
  obtain ⟨s, _, kept⟩ := Option.bind_eq_some_iff.mp h
  obtain ⟨rfl, filled⟩ := (nonBlank_eq_some_iff s t).mp kept
  exact tidy_trim filled

theorem Tidy.toList_ne_nil {s : String} (h : Tidy s) : s.toList ≠ [] := by
  obtain ⟨c, member, _⟩ := h.filled
  exact List.ne_nil_of_mem member

theorem Tidy.ne_empty {s : String} (h : Tidy s) : s ≠ "" := by
  intro empty
  exact h.toList_ne_nil (String.toList_eq_nil_iff.mpr empty)

theorem Tidy.nonBlank_eq {s : String} (h : Tidy s) : nonBlank s = some s :=
  (nonBlank_eq_some_iff s s).mpr ⟨trim_of_trimmed h.trimmed, h.ne_empty⟩

theorem Tidy.append_space {s t : String} (hs : Tidy s) (ht : Tidy t) : Tidy (s ++ " " ++ t) := by
  refine ⟨⟨?_, ?_⟩, ?_⟩
  · intro c hc
    rw [String.toList_append, String.toList_append, List.append_assoc,
      List.head?_append_of_ne_nil _ hs.toList_ne_nil] at hc
    exact hs.trimmed.1 c hc
  · intro c hc
    rw [String.toList_append, List.getLast?_append_of_ne_nil _ ht.toList_ne_nil] at hc
    exact ht.trimmed.2 c hc
  · obtain ⟨c, member, clear⟩ := hs.filled
    refine ⟨c, ?_, clear⟩
    rw [String.toList_append, String.toList_append]
    exact List.mem_append_left _ (List.mem_append_left _ member)

end ReleaseSearch.Text
