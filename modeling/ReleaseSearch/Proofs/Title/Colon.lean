import ReleaseSearch.Proofs.Simplifier
import ReleaseSearch.Proofs.Text.Padding

/-! The first colon of a title. A title that holds a colon with a space behind it is parted there in
one way. Both parts are shorter than the title, and the one behind the colon is never blank, because
a trimmed title does not end with a space. -/
namespace ReleaseSearch
open Text

namespace Title

/-- The text is parted at its first colon that a space follows. -/
structure FirstColon (text main rest : String) : Prop where
  split : text = main ++ ": " ++ rest
  first : ∀ front back, text = front ++ ": " ++ back → main.length ≤ front.length

theorem splitAtColon_eq_some {cs main rest : List Char} (h : splitAtColon cs = some (main, rest)) :
    cs = main ++ ':' :: ' ' :: rest := by
  fun_induction splitAtColon cs generalizing main with
  | case1 behind =>
    cases h
    rfl
  | case2 c cs _ ih =>
    obtain ⟨⟨front, back⟩, found, eq⟩ := Option.map_eq_some_iff.mp h
    cases eq
    rw [List.cons_append, ← ih found]
  | case3 => cases h

/-- Where a colon stands, the text is parted there or before. -/
theorem exists_splitAtColon (front back : List Char) :
    ∃ main rest, splitAtColon (front ++ ':' :: ' ' :: back) = some (main, rest) ∧
      main.length ≤ front.length := by
  induction front with
  | nil => exact ⟨[], back, rfl, Nat.le_refl 0⟩
  | cons c front ih =>
    obtain ⟨main, rest, found, before⟩ := ih
    rw [List.cons_append]
    generalize front ++ ':' :: ' ' :: back = cs at found
    unfold splitAtColon
    split
    · rename_i behind _
      exact ⟨[], behind, rfl, Nat.zero_le _⟩
    · rename_i eq
      cases eq
      exact ⟨c :: main, rest, by rw [found]; rfl, Nat.succ_le_succ before⟩
    · rename_i eq
      cases eq

theorem split_colon_iff {text main rest : String} :
    text = main ++ ": " ++ rest ↔ text.toList = main.toList ++ ':' :: ' ' :: rest.toList := by
  rw [← String.toList_inj]
  simp

theorem firstColon_iff {text main rest : String} :
    FirstColon text main rest ↔ splitAtColon text.toList = some (main.toList, rest.toList) := by
  constructor
  · rintro ⟨split, first⟩
    obtain ⟨front, back, found, before⟩ := exists_splitAtColon main.toList rest.toList
    rw [← split_colon_iff.mp split] at found
    -- it is parted at this colon or before, and not before, as this is the first
    have parted := splitAtColon_eq_some found
    have behind := first (String.ofList front) (String.ofList back)
      (by rw [split_colon_iff, parted, String.toList_ofList, String.toList_ofList])
    rw [String.length_ofList, ← String.length_toList] at behind
    rw [split_colon_iff.mp split] at parted
    obtain ⟨rfl, same⟩ := List.append_inj parted (Nat.le_antisymm behind before)
    cases same
    exact found
  · intro found
    refine ⟨split_colon_iff.mpr (splitAtColon_eq_some found), ?_⟩
    intro front back split
    obtain ⟨_, _, found', before⟩ := exists_splitAtColon front.toList back.toList
    rw [← split_colon_iff.mp split, found] at found'
    cases found'
    exact before

instance (text main rest : String) : Decidable (FirstColon text main rest) :=
  decidable_of_iff _ firstColon_iff.symm

theorem parts?_eq_some_iff {text main after : String} :
    parts? text = some (main, after) ↔ ∃ rest, FirstColon text main rest ∧ trim rest = after := by
  simp only [firstColon_iff]
  rw [parts?, Option.map_eq_some_iff]
  constructor
  · rintro ⟨⟨front, back⟩, found, eq⟩
    cases eq
    exact ⟨String.ofList back, by rw [String.toList_ofList, String.toList_ofList, found], rfl⟩
  · rintro ⟨rest, found, rfl⟩
    exact ⟨_, found, by rw [String.ofList_toList, String.ofList_toList]⟩

theorem parts?_eq_none_iff {text : String} :
    parts? text = none ↔ ¬ ∃ main rest, FirstColon text main rest := by
  rw [Option.eq_none_iff_forall_ne_some]
  constructor
  · rintro h ⟨main, rest, colon⟩
    exact h _ (parts?_eq_some_iff.mpr ⟨rest, colon, rfl⟩)
  · rintro h ⟨main, after⟩ found
    obtain ⟨rest, colon, _⟩ := parts?_eq_some_iff.mp found
    exact h ⟨main, rest, colon⟩

theorem exists_firstColon_iff {text : String} :
    (∃ main rest, FirstColon text main rest) ↔ ": ".toList <:+: text.toList := by
  constructor
  · rintro ⟨main, rest, colon⟩
    exact ⟨main.toList, rest.toList, by rw [split_colon_iff.mp colon.split]; simp⟩
  · rintro ⟨front, back, split⟩
    obtain ⟨main, rest, found, _⟩ := exists_splitAtColon front back
    have whole : front ++ ':' :: ' ' :: back = text.toList := by rw [← split]; simp
    refine ⟨String.ofList main, String.ofList rest, firstColon_iff.mpr ?_⟩
    rw [← whole, found, String.toList_ofList, String.toList_ofList]

namespace FirstColon

variable {text main rest : String} (colon : FirstColon text main rest)
include colon

theorem unique {main' rest' : String} (colon' : FirstColon text main' rest') :
    main = main' ∧ rest = rest' := by
  have same := (firstColon_iff.mp colon).symm.trans (firstColon_iff.mp colon')
  simpa [String.toList_inj] using same

theorem rest_filled (clear : Trimmed text) : trim rest ≠ "" := by
  have split : text.toList = (main.toList ++ [':']) ++ (" " ++ rest).toList := by
    rw [split_colon_iff.mp colon.split]
    simp
  have filled := trim_ne_empty_of_back clear (by simp) split
  rw [String.ofList_toList, Ne, trim_append_eq_empty_iff] at filled
  exact fun blank => filled ⟨by decide, blank⟩

theorem length_trim_lt :
    (trim main).length < text.length ∧ (trim rest).length < text.length := by
  have front := length_trim_le main
  have back := length_trim_le rest
  have whole := congrArg List.length (split_colon_iff.mp colon.split)
  simp only [List.length_append, List.length_cons, String.length_toList] at whole
  omega

theorem ofCandidate_main (clear : Trimmed text) :
    Outcome.ofCandidate main text =
      if trim main = "" then .unchanged else .simplified (trim main) := by
  apply Outcome.ofCandidate_of_shorter
  rw [trim_of_trimmed clear]
  exact colon.length_trim_lt.1

theorem ofCandidate_rest (clear : Trimmed text) :
    Outcome.ofCandidate (trim rest) text = .simplified (trim rest) := by
  rw [Outcome.ofCandidate_of_shorter, trim_trim, if_neg (colon.rest_filled clear)]
  rw [trim_trim, trim_of_trimmed clear]
  exact colon.length_trim_lt.2

end FirstColon

end Title

end ReleaseSearch
