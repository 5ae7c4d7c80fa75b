import Mathlib.Data.List.Nodup
import ReleaseSearch.Planner
import ReleaseSearch.Proofs.Text.Ascii

/-! Identifier candidates carry no separators and do not repeat. -/
namespace ReleaseSearch

namespace Isbn

theorem isSeparator_toUpper {c : Char} (h : isSeparator c = false) :
    isSeparator c.toUpper = false :=
  Text.forall_of_ascii (p := fun c => isSeparator c = false → isSeparator c.toUpper = false)
    (by decide) (fun c _ upper clear => by rw [upper, clear]) c h

/-- The characters of an identifier that do not separate others. -/
def kept (raw : String) : List Char := raw.toList.filter fun c => !isSeparator c

theorem normalize?_eq_none_iff (raw : String) : normalize? raw = none ↔ kept raw = [] := by
  unfold normalize? kept
  dsimp only
  split
  · rename_i empty
    simpa using empty
  · rename_i filled
    simpa using filled

theorem normalize?_eq_some_iff (raw isbn : String) :
    normalize? raw = some isbn ↔ kept raw ≠ [] ∧ isbn.toList = (kept raw).map Char.toUpper := by
  unfold normalize? kept
  dsimp only
  split
  · rename_i empty
    constructor
    · intro impossible
      cases impossible
    · rintro ⟨filled, _⟩
      exact absurd (by simpa using empty) filled
  · rename_i filled
    rw [Option.some_inj, ← String.toList_inj, String.toList_ofList, eq_comm,
      and_iff_right (by simpa using filled)]

/-- What is left of an identifier has a character, and none that separates. -/
theorem normalize?_clean {raw isbn : String} (h : normalize? raw = some isbn) :
    isbn ≠ "" ∧ ∀ c ∈ isbn.toList, isSeparator c = false := by
  obtain ⟨filled, same⟩ := (normalize?_eq_some_iff raw isbn).mp h
  constructor
  · rw [Ne, ← String.toList_eq_nil_iff, same, List.map_eq_nil_iff]
    exact filled
  · intro c hc
    rw [same, List.mem_map] at hc
    obtain ⟨d, hd, rfl⟩ := hc
    exact isSeparator_toUpper (by simpa using (List.mem_filter.mp hd).2)

end Isbn

/-- The candidates are the normal forms of the book's identifiers. -/
theorem Planner.mem_isbnCandidates_iff (b : Book) (isbn : String) :
    isbn ∈ isbnCandidates b ↔
      ∃ raw, (b.isbn13 = some raw ∨ b.isbn10 = some raw) ∧ Isbn.normalize? raw = some isbn := by
  have read : ∀ given : Option String, isbn ∈ (given.bind Isbn.normalize?).toList ↔
      ∃ raw, given = some raw ∧ Isbn.normalize? raw = some isbn := by
    intro given
    rw [Option.mem_toList, Option.bind_eq_some_iff]
  -- the short number is left out only where the long one stands for it
  have merged : isbn ∈ isbnCandidates b ↔
      isbn ∈ (b.isbn13.bind Isbn.normalize?).toList ∨
        isbn ∈ (b.isbn10.bind Isbn.normalize?).toList := by
    unfold isbnCandidates
    dsimp only
    rw [List.mem_append, List.mem_filter]
    by_cases long : isbn ∈ (b.isbn13.bind Isbn.normalize?).toList
    · simp only [long, true_or]
    · simp only [List.contains_eq_mem, long, decide_false, Bool.not_false, and_true]
  rw [merged, read, read, ← exists_or]
  simp only [or_and_right]

/-- A candidate is the normal form of one of the book's two identifiers. -/
theorem Planner.exists_of_mem_isbnCandidates {b : Book} {isbn : String}
    (h : isbn ∈ isbnCandidates b) : ∃ raw, Isbn.normalize? raw = some isbn := by
  obtain ⟨raw, _, same⟩ := (mem_isbnCandidates_iff b isbn).mp h
  exact ⟨raw, same⟩

theorem Planner.nodup_isbnCandidates (b : Book) : (isbnCandidates b).Nodup := by
  unfold isbnCandidates
  rw [List.nodup_append]
  refine ⟨Option.toList_nodup _, (Option.toList_nodup _).filter _, ?_⟩
  intro long hlong short hshort same
  have new := (List.mem_filter.mp hshort).2
  rw [← same, List.contains_iff_mem.mpr hlong] at new
  cases new

end ReleaseSearch
