import ReleaseSearch.Proofs.Text.Ascii
import ReleaseSearch.Rules

/-! Vocabularies, and how their entries are read. The entries are tried in their order; where a text
admits one answer only, the order decides nothing, and an answer is given as soon as some entry of
the vocabulary fits. -/
namespace ReleaseSearch
open Text

theorem mem_vocabulary_iff {entries : List String} {entry : String} :
    entry ∈ vocabulary entries ↔ ∃ raw ∈ entries, trim raw = entry ∧ entry ≠ "" := by
  simp only [vocabulary, List.mem_filterMap, nonBlank_eq_some_iff]

theorem vocabulary_eq_nil_iff {entries : List String} :
    vocabulary entries = [] ↔ ∀ entry ∈ entries, trim entry = "" := by
  simp [vocabulary, List.filterMap_eq_nil_iff, nonBlank]

/-- A test that neither sees the blanks around an entry nor holds of a blank one may be made on the
vocabulary. -/
theorem any_vocabulary {test : String → Bool} (blind : ∀ entry, test (trim entry) = test entry)
    (strict : test "" = false) (entries : List String) :
    (vocabulary entries).any test = entries.any test := by
  rw [Bool.eq_iff_iff, List.any_eq_true, List.any_eq_true]
  constructor
  · rintro ⟨entry, member, fits⟩
    obtain ⟨raw, listed, rfl, _⟩ := mem_vocabulary_iff.mp member
    exact ⟨raw, listed, (blind raw).symm.trans fits⟩
  · rintro ⟨raw, listed, fits⟩
    rw [← blind] at fits
    have filled : trim raw ≠ "" := by
      intro blank
      rw [blank, strict] at fits
      cases fits
    exact ⟨trim raw, mem_vocabulary_iff.mpr ⟨raw, listed, rfl, filled⟩, fits⟩

section FirstMatch

variable {α : Type} {same : Char → Char → Bool} {accept : List Char → List Char → Option α}
  {entries : List (List Char)} {cs : List Char}

variable (same accept) in
/-- The answer that the text gives when this entry is read at its front. -/
def Admits (entry cs : List Char) (answer : α) : Prop :=
  (afterWord? same entry cs).bind (accept entry) = some answer

variable (same accept) in
/-- Whatever the vocabulary, the text admits no two answers. -/
def OneAnswer (cs : List Char) : Prop :=
  ∀ entry other answer answer', Admits same accept entry cs answer →
    Admits same accept other cs answer' → answer = answer'

theorem isSome_firstMatch?_iff : (firstMatch? same accept entries cs).isSome = true ↔
    ∃ entry ∈ entries, ∃ answer, Admits same accept entry cs answer := by
  rw [firstMatch?, List.findSome?_isSome_iff]
  simp only [Option.isSome_iff_exists, Admits]

theorem firstMatch?_eq_some_iff (one : OneAnswer same accept cs) {answer : α} :
    firstMatch? same accept entries cs = some answer ↔
      ∃ entry ∈ entries, Admits same accept entry cs answer := by
  constructor
  · exact List.exists_of_findSome?_eq_some
  · rintro ⟨entry, member, admitted⟩
    obtain ⟨first, found⟩ := Option.isSome_iff_exists.mp
      (isSome_firstMatch?_iff.mpr ⟨entry, member, answer, admitted⟩)
    -- an entry before this one may have been taken, but for the same answer
    obtain ⟨other, _, taken⟩ := List.exists_of_findSome?_eq_some found
    rw [found, one other entry first answer taken admitted]

/-- The order of the entries and their repeats do not show where the text admits one answer. -/
theorem firstMatch?_congr (one : OneAnswer same accept cs) {others : List (List Char)}
    (listed : ∀ entry, entry ∈ entries ↔ entry ∈ others) :
    firstMatch? same accept entries cs = firstMatch? same accept others cs := by
  ext answer
  rw [firstMatch?_eq_some_iff one, firstMatch?_eq_some_iff one]
  simp only [listed]

/-- The order shows where an entry is taken without regard to what stands behind it. -/
example :
    let read := fun entries => firstMatch? (· == ·) (fun entry _ => some entry) entries "Jr.".toList
    read ["Jr".toList, "Jr.".toList] = some "Jr".toList ∧
      read ["Jr.".toList, "Jr".toList] = some "Jr.".toList := by decide

end FirstMatch

/-- Two lists whose vocabularies have the same entries. -/
def SameEntries (xs ys : List String) : Prop :=
  ∀ entry, entry ∈ vocabulary xs ↔ entry ∈ vocabulary ys

namespace SameEntries

variable {xs ys : List String} (h : SameEntries xs ys)
include h

theorem any_eq (test : String → Bool) :
    (vocabulary xs).any test = (vocabulary ys).any test := by
  rw [Bool.eq_iff_iff, List.any_eq_true, List.any_eq_true]
  simp only [h _]

theorem eq_nil_iff : vocabulary xs = [] ↔ vocabulary ys = [] := by
  simp only [List.eq_nil_iff_forall_not_mem, h _]

theorem mem_spelled_iff (entry : List Char) :
    entry ∈ (vocabulary xs).map String.toList ↔ entry ∈ (vocabulary ys).map String.toList := by
  simp only [List.mem_map, h _]

end SameEntries

end ReleaseSearch

