import ReleaseSearch.Language
import ReleaseSearch.Proofs.FirstSeen
import ReleaseSearch.Proofs.Text.SmallLetters

/-! Normal forms of language codes and of lists of them. A code in normal form is its own, and so is
a list in canonical form. -/
namespace ReleaseSearch.Language
open Text

theorem trimmed_normalize (code : String) : Trimmed (normalize code) :=
  trimmed_lower (trimmed_trim code)

@[simp]
theorem normalize_normalize (code : String) : normalize (normalize code) = normalize code := by
  have clear := trimmed_normalize code
  rw [normalize, trim_of_trimmed clear, normalize, lower_lower]

theorem normalize_eq_empty_iff (code : String) : normalize code = "" ↔ trim code = "" :=
  lower_eq_empty_iff (trim code)

/-- A list as it is compared and kept: each code in normal form and there once, without `all`. -/
structure Canonical (codes : List String) : Prop where
  normal : ∀ code ∈ codes, normalize code = code
  nonempty : ∀ code ∈ codes, code ≠ ""
  restricted : all ∉ codes
  nodup : codes.Nodup

theorem addCode_eq_addNew : addCode = FirstSeen.addNew id := by
  funext codes code
  by_cases known : code ∈ codes
  · rw [FirstSeen.addNew_of_mem (by simpa using known), addCode, if_pos (by simpa using known)]
  · rw [FirstSeen.addNew_of_not_mem (by simpa using known), addCode,
      if_neg (by simpa using known)]

/-- The codes of a list that asks for all languages have no normal form; of any other list the
normal forms stay, without blank ones and without repeats. -/
theorem normalizeAll_eq (codes : List String) :
    normalizeAll codes =
      if ∃ code ∈ codes, normalize code = all then none
      else some ((codes.map normalize).filter (· ≠ "")).eraseDups := by
  have sentinel : ((codes.map normalize).filter (· ≠ "")).contains all = true ↔
      ∃ code ∈ codes, normalize code = all := by
    have named : all ≠ "" := by decide
    simp only [List.contains_iff_mem, List.mem_filter, List.mem_map, decide_eq_true_eq]
    exact ⟨And.left, fun h => ⟨h, named⟩⟩
  simp only [normalizeAll, sentinel, addCode_eq_addNew, FirstSeen.foldl_id_nil]

theorem normalizeAll_eq_none_iff (codes : List String) :
    normalizeAll codes = none ↔ ∃ code ∈ codes, normalize code = all := by
  rw [normalizeAll_eq]
  split
  · rename_i h; simp [h]
  · rename_i h; simp [h]

theorem canonical_of_normalizeAll {codes normal : List String}
    (h : normalizeAll codes = some normal) : Canonical normal := by
  have restricted : ¬ ∃ code ∈ codes, normalize code = all := by
    rw [← normalizeAll_eq_none_iff, h]; simp
  rw [normalizeAll_eq, if_neg restricted] at h
  cases Option.some.inj h
  have mem : ∀ code ∈ ((codes.map normalize).filter (· ≠ "")).eraseDups,
      (∃ raw ∈ codes, normalize raw = code) ∧ code ≠ "" := by
    intro code hc
    simpa only [List.mem_eraseDups, List.mem_filter, List.mem_map, decide_eq_true_eq] using hc
  refine ⟨?_, fun code hc => (mem code hc).2, ?_, ?_⟩
  · intro code hc
    obtain ⟨⟨raw, _, rfl⟩, _⟩ := mem code hc
    exact normalize_normalize raw
  · intro hc
    exact restricted (mem all hc).1
  · exact FirstSeen.nodup_eraseDups _

/-- The normal form of a list has the normal form of each code that is not blank. -/
theorem mem_of_normalizeAll {codes normal : List String} (h : normalizeAll codes = some normal)
    {code : String} (member : code ∈ codes) (filled : normalize code ≠ "") :
    normalize code ∈ normal := by
  rw [normalizeAll_eq] at h
  split at h
  · cases h
  · cases Option.some.inj h
    rw [List.mem_eraseDups, List.mem_filter]
    exact ⟨List.mem_map_of_mem member, by simpa using filled⟩

/-- Normalizing a canonical list changes nothing. -/
theorem normalizeAll_of_canonical {codes : List String} (h : Canonical codes) :
    normalizeAll codes = some codes := by
  have same : codes.map normalize = codes := by
    rw [List.map_congr_left h.normal, List.map_id']
  have full : codes.filter (· ≠ "") = codes := by
    rw [List.filter_eq_self]
    intro code hc
    simpa using h.nonempty code hc
  have named : ¬ codes.contains all = true := by simpa using h.restricted
  have kept := FirstSeen.foldl_of_nodup id codes [] (by simpa using h.nodup)
  simp only [normalizeAll, same, full, if_neg named, addCode_eq_addNew, kept, List.nil_append]

end ReleaseSearch.Language
