import ReleaseSearch.Proofs.Simplifier
import ReleaseSearch.Proofs.Text.Ascii
import ReleaseSearch.Proofs.Text.Padding

/-! Trailing annotations, as they are written. A group that ends the title and holds no parenthesis
can open at the last opening parenthesis only, so a title has one annotation at most. What stands
before it is the answer, unless that is blank or broken into lines. -/
namespace ReleaseSearch
open Text

namespace Annotation

/-- The text is what is kept and, in parentheses, a note. The note holds no parenthesis. What is
kept is not blank and, without the blanks that set the note off, stands on one line. -/
structure Annotated (text kept note : String) : Prop where
  split : text = kept ++ "(" ++ note ++ ")"
  flat : ∀ c ∈ note.toList, c ≠ '(' ∧ c ≠ ')'
  filled : trim kept ≠ ""
  unbroken : '\n' ∉ dropEndWhile isAsciiBlank kept.toList

theorem isParenthesis_eq_false_iff (c : Char) : isParenthesis c = false ↔ c ≠ '(' ∧ c ≠ ')' := by
  simp [isParenthesis]

theorem annotated_iff {text kept note : String} :
    Annotated text kept note ↔ text = kept ++ "(" ++ note ++ ")" ∧
      note.toList.all (fun c => !isParenthesis c) = true ∧ trim kept ≠ "" ∧
      '\n' ∉ dropEndWhile isAsciiBlank kept.toList := by
  simp only [List.all_eq_true, Bool.not_eq_true', isParenthesis_eq_false_iff]
  exact ⟨fun h => ⟨h.split, h.flat, h.filled, h.unbroken⟩,
    fun ⟨split, flat, filled, unbroken⟩ => ⟨split, flat, filled, unbroken⟩⟩

instance (text kept note : String) : Decidable (Annotated text kept note) :=
  decidable_of_iff _ annotated_iff.symm

theorem beforeGroup?_eq_some_iff {cs before : List Char} :
    beforeGroup? cs = some before ↔ ∃ note, (∀ c ∈ note, c ≠ '(' ∧ c ≠ ')') ∧
      cs = before.reverse ++ '(' :: (note ++ [')']) := by
  simp only [← isParenthesis_eq_false_iff]
  constructor
  · intro h
    unfold beforeGroup? at h
    split at h
    · rename_i inside ends
      split at h
      · rename_i opened
        cases h
        -- read backwards, the note is the longest run without a parenthesis
        have parts := List.takeWhile_append_dropWhile (p := fun c => !isParenthesis c) (l := inside)
        have flat : ∀ c ∈ inside.takeWhile fun c => !isParenthesis c, isParenthesis c = false :=
          fun c member => by simpa using List.mem_takeWhile_imp member
        rw [opened] at parts
        generalize inside.takeWhile (fun c => !isParenthesis c) = note at parts flat
        refine ⟨note.reverse, fun c member => flat c (List.mem_reverse.mp member), ?_⟩
        rw [← List.reverse_reverse cs, ends, ← parts]
        simp
      · cases h
    · cases h
  · rintro ⟨note, flat, rfl⟩
    have inside : ∀ c ∈ note.reverse, (!isParenthesis c) = true := by
      intro c member
      simp [flat c (List.mem_reverse.mp member)]
    have stops : ∀ c ∈ ('(' :: before).head?, (!isParenthesis c) = false := by
      intro c member
      cases member
      rfl
    have ends : (before.reverse ++ '(' :: (note ++ [')'])).reverse =
        ')' :: (note.reverse ++ '(' :: before) := by simp
    simp only [beforeGroup?, ends, (split_run inside stops).2]

theorem eq_of_group {before before' note note' : List Char}
    (flat : ∀ c ∈ note, c ≠ '(' ∧ c ≠ ')') (flat' : ∀ c ∈ note', c ≠ '(' ∧ c ≠ ')')
    (same : before ++ '(' :: (note ++ [')']) = before' ++ '(' :: (note' ++ [')'])) :
    before = before' ∧ note = note' := by
  have found : ∀ {front inside : List Char}, (∀ c ∈ inside, c ≠ '(' ∧ c ≠ ')') →
      beforeGroup? (front ++ '(' :: (inside ++ [')'])) = some front.reverse :=
    fun clear => beforeGroup?_eq_some_iff.mpr ⟨_, clear, by rw [List.reverse_reverse]⟩
  have front : some before.reverse = some before'.reverse := by
    rw [← found flat, same, found flat']
  cases List.reverse_injective (Option.some.inj front)
  simpa using same

theorem kept?_eq_some_iff {cs kept : List Char} :
    kept? cs = some kept ↔ ∃ before note, (∀ c ∈ note, c ≠ '(' ∧ c ≠ ')') ∧
      cs = before ++ '(' :: (note ++ [')']) ∧ '\n' ∉ kept ∧
      kept = dropEndWhile isAsciiBlank before := by
  unfold kept?
  constructor
  · intro h
    split at h
    · rename_i before found
      obtain ⟨note, flat, split⟩ := beforeGroup?_eq_some_iff.mp found
      dsimp only at h
      split at h
      · cases h
      · rename_i unbroken
        cases h
        refine ⟨before.reverse, note, flat, split, by simpa using unbroken, ?_⟩
        rw [dropEndWhile, List.reverse_reverse]
    · cases h
  · rintro ⟨before, note, flat, split, unbroken, rfl⟩
    rw [← List.reverse_reverse before] at split
    rw [beforeGroup?_eq_some_iff.mpr ⟨note, flat, split⟩]
    dsimp only
    rw [if_neg (by simpa [dropEndWhile] using unbroken), dropEndWhile]

theorem split_iff {text kept note : String} :
    text = kept ++ "(" ++ note ++ ")" ↔
      text.toList = kept.toList ++ '(' :: (note.toList ++ [')']) := by
  rw [← String.toList_inj]
  simp

theorem Annotated.unique {text kept note kept' note' : String} (h : Annotated text kept note)
    (h' : Annotated text kept' note') : kept = kept' ∧ note = note' := by
  rw [← String.toList_inj, ← String.toList_inj]
  exact eq_of_group h.flat h'.flat ((split_iff.mp h.split).symm.trans (split_iff.mp h'.split))

theorem Annotated.length_trim_lt {text kept note : String} (h : Annotated text kept note) :
    (trim kept).length < text.length := by
  have cut := length_trim_le kept
  have whole := congrArg List.length (split_iff.mp h.split)
  simp only [List.length_append, List.length_cons, String.length_toList] at whole
  omega

theorem trim_dropEndWhile (cs : List Char) :
    trim (String.ofList (dropEndWhile isAsciiBlank cs)) = trim (String.ofList cs) := by
  obtain ⟨back, behind, split⟩ := exists_dropEndWhile isAsciiBlank cs
  have before : ∀ c ∈ ([] : List Char), isBlank c = true := by simp
  have padded := stripWhile_pad before (fun c member => isBlank_of_isAsciiBlank (behind c member))
    (dropEndWhile isAsciiBlank cs)
  rw [List.nil_append, ← split] at padded
  rw [trim, trim, String.toList_ofList, String.toList_ofList, padded]

end Annotation

open Annotation

theorem Title.withoutAnnotation_eq_simplified_iff {title text : String} (clear : Trimmed title) :
    withoutAnnotation title = .simplified text ↔
      ∃ kept note, Annotated title kept note ∧ text = trim kept := by
  unfold withoutAnnotation
  constructor
  · intro h
    split at h
    · rename_i kept found
      obtain ⟨before, note, flat, split, unbroken, rfl⟩ := kept?_eq_some_iff.mp found
      obtain ⟨rfl, filled, _⟩ := Outcome.ofCandidate_eq_simplified_iff.mp h
      rw [trim_dropEndWhile] at filled ⊢
      refine ⟨String.ofList before, String.ofList note, ⟨?_, ?_, filled, ?_⟩, rfl⟩
      · rw [split_iff, String.toList_ofList, String.toList_ofList, split]
      · rwa [String.toList_ofList]
      · rwa [String.toList_ofList]
    · cases h
  · rintro ⟨kept, note, annotated, rfl⟩
    have found := kept?_eq_some_iff.mpr ⟨kept.toList, note.toList, annotated.flat,
      split_iff.mp annotated.split, annotated.unbroken, rfl⟩
    have trimmed := trim_dropEndWhile kept.toList
    rw [String.ofList_toList] at trimmed
    have shorter := annotated.length_trim_lt
    rw [← trimmed, ← trim_of_trimmed clear] at shorter
    rw [found]
    dsimp only
    rw [Outcome.ofCandidate_of_shorter shorter, trimmed, if_neg annotated.filled]

namespace Simplifier

theorem simplifyTitle_unknown (s : Simplifier) (title : String) :
    s.simplifyTitle title none none = Title.withoutAnnotation (trim title) := by
  unfold simplifyTitle
  dsimp only
  split
  · rw [if_neg (by simp), if_neg (by simp)]
  · rfl

/-- A title of which nothing else is known is simplified exactly when it is annotated, and then to
what stands before its one annotation, trimmed. -/
theorem simplifyTitle_annotated (s : Simplifier) (title : String) :
    s.simplifyTitle title none none = s.simplifyTitle (trim title) none none ∧
    (∀ text, s.simplifyTitle (trim title) none none = .simplified text ↔
      ∃ kept note, Annotated (trim title) kept note ∧ text = trim kept) ∧
    (∀ kept note kept' note', Annotated (trim title) kept note →
      Annotated (trim title) kept' note' → kept = kept' ∧ note = note') ∧
    ((¬ ∃ kept note, Annotated (trim title) kept note) →
      s.simplifyTitle (trim title) none none = .unchanged) ∧
    ∀ text, s.simplifyTitle (trim title) none none = .simplified text →
      ∃ gap note, (∀ c ∈ gap.toList, isBlank c = true) ∧
        (∀ c ∈ note.toList, c ≠ '(' ∧ c ≠ ')') ∧
        trim title = text ++ gap ++ "(" ++ note ++ ")" := by
  have clear := trimmed_trim title
  have answers : ∀ text, s.simplifyTitle (trim title) none none = .simplified text ↔
      ∃ kept note, Annotated (trim title) kept note ∧ text = trim kept := by
    intro text
    rw [simplifyTitle_unknown, trim_trim]
    exact Title.withoutAnnotation_eq_simplified_iff clear
  refine ⟨?_, answers, fun _ _ _ _ => Annotated.unique, ?_, ?_⟩
  · rw [simplifyTitle_unknown, simplifyTitle_unknown, trim_trim]
  · intro plain
    cases answer : s.simplifyTitle (trim title) none none with
    | unchanged => rfl
    | simplified text =>
      obtain ⟨kept, note, annotated, _⟩ := (answers text).mp answer
      exact absurd ⟨kept, note, annotated⟩ plain
  · intro text simplified
    obtain ⟨kept, note, annotated, rfl⟩ := (answers text).mp simplified
    obtain ⟨gap, blank, parts⟩ := exists_gap_of_front clear (split_iff.mp annotated.split)
    refine ⟨String.ofList gap, note, by rwa [String.toList_ofList], annotated.flat, ?_⟩
    rw [split_iff, split_iff.mp annotated.split, parts]
    simp

theorem simplifyTitle_annotated_last :
    let title := " Dune (Book 1) \t(Deluxe\nEdition)\u3000"
    let nested := "Foo (Bar (Baz))"
    Annotated (trim title) "Dune (Book 1) \t" "Deluxe\nEdition" ∧
      standard.simplifyTitle (trim title) none none = .simplified "Dune (Book 1)" ∧
      (∀ kept note, Annotated (trim title) kept note →
        kept = "Dune (Book 1) \t" ∧ note = "Deluxe\nEdition") ∧
      (∃ gap note, (∀ c ∈ gap.toList, isBlank c = true) ∧
        (∀ c ∈ note.toList, c ≠ '(' ∧ c ≠ ')') ∧
        trim title = "Dune (Book 1)" ++ gap ++ "(" ++ note ++ ")") ∧
      (¬ ∃ kept note, Annotated (trim nested) kept note) ∧
      standard.simplifyTitle (trim nested) none none = .unchanged := by
  intro title nested
  have annotated : Annotated (trim title) "Dune (Book 1) \t" "Deluxe\nEdition" := by decide +kernel
  obtain ⟨_, answers, unique, _, removed⟩ := simplifyTitle_annotated standard title
  have simplified := (answers "Dune (Book 1)").mpr ⟨_, _, annotated, by decide +kernel⟩
  have left : ¬ ∃ kept note, Annotated (trim nested) kept note := by
    rintro ⟨kept, note, found⟩
    have answer := ((simplifyTitle_annotated standard nested).2.1 _).mpr ⟨kept, note, found, rfl⟩
    have unchanged : standard.simplifyTitle (trim nested) none none = .unchanged := by
      decide +kernel
    rw [unchanged] at answer
    cases answer
  exact ⟨annotated, simplified, fun kept note found => unique _ _ _ _ found annotated,
    removed _ simplified, left, (simplifyTitle_annotated standard nested).2.2.2.1 left⟩

end Simplifier

end ReleaseSearch
