import ReleaseSearch.Proofs.Book.Json
import ReleaseSearch.Proofs.Data

/-! Books whose language codes are in normal form. These are the books that stay as they are when
they are written and read back; every book that was read is one, and filling in its search terms
keeps it one. -/
namespace ReleaseSearch
open Data

namespace Editions

/-- Every code is in normal form and names a language. -/
def Normal (e : Editions) : Prop :=
  ∀ code ∈ e.keys, Language.normalize code = code ∧ code ≠ ""

theorem normal_normalized (e : Editions) : e.normalized.Normal := by
  intro code member
  rw [normalized, Assoc.mem_keys_ofList] at member
  obtain ⟨entry, kept, rfl⟩ := List.mem_map.mp member
  obtain ⟨known, filled⟩ := List.mem_filter.mp kept
  obtain ⟨raw, _, rfl⟩ := List.mem_map.mp known
  exact ⟨Language.normalize_normalize raw.1, by simpa using filled⟩

theorem normalized_of_normal {e : Editions} (h : e.Normal) : e.normalized = e := by
  have normal : ∀ entry ∈ e.entries, Language.normalize entry.1 = entry.1 ∧ entry.1 ≠ "" :=
    fun entry member => h entry.1 (List.mem_map_of_mem member)
  have same : e.entries.map (fun entry => (Language.normalize entry.1, entry.2)) = e.entries := by
    rw [List.map_congr_left (g := id) fun entry member => ?_, List.map_id]
    exact Prod.ext (normal entry member).1 rfl
  have full : e.entries.filter (·.1 ≠ "") = e.entries := by
    rw [List.filter_eq_self]
    intro entry member
    simpa using (normal entry member).2
  rw [normalized, same, full, Assoc.ofList_entries]

end Editions

namespace Book

structure HasNormalCodes (b : Book) : Prop where
  editions : b.titlesByLanguage.Normal
  declared : ∀ code ∈ b.primaryLanguage, Language.normalize code = code ∧ code ≠ ""

theorem HasNormalCodes.withNormalCodes_eq {b : Book} (h : b.HasNormalCodes) :
    b.withNormalCodes = b := by
  have declared : b.declaredLanguage? = b.primaryLanguage := by
    unfold declaredLanguage?
    cases known : b.primaryLanguage with
    | none => rfl
    | some code =>
      obtain ⟨normal, filled⟩ := h.declared code known
      rw [Option.map_some, normal, Option.filter_some, if_pos (decide_eq_true filled)]
  rw [withNormalCodes, Editions.normalized_of_normal h.editions, declared]

theorem HasNormalCodes.withSearchTerms {b : Book} (h : b.HasNormalCodes) (s : Simplifier) :
    (b.withSearchTerms s).HasNormalCodes := ⟨h.editions, h.declared⟩

theorem normal_of_editions {d : Data} {e : Editions} (h : Editions.ofData d = .ok e) :
    e.Normal := by
  obtain ⟨entries, _, same⟩ := bind_eq_ok_iff.mp h
  cases same
  exact Editions.normal_normalized _

theorem normal_of_readLanguage {d : Data} {language : Option String}
    (h : readLanguage d = .ok language) :
    ∀ code ∈ language, Language.normalize code = code ∧ code ≠ "" := by
  obtain ⟨raw, _, same⟩ := bind_eq_ok_iff.mp h
  cases same
  intro code declared
  obtain ⟨known, filled⟩ := Option.filter_eq_some_iff.mp declared
  obtain ⟨text, _, rfl⟩ := Option.map_eq_some_iff.mp known
  exact ⟨Language.normalize_normalize text, by simpa using filled⟩

theorem hasNormalCodes_titled (title : String) : HasNormalCodes { title } := by
  constructor
  · intro code member
    cases member
  · intro code declared
    cases declared

/-- Only two fields hold codes, and both read them into normal form. -/
theorem hasNormalCodes_field : ∀ f ∈ fields, ∀ b d c, HasNormalCodes b → f.read b d = .ok c →
    HasNormalCodes c := by
  intro f member b d c kept read
  simp only [fields, List.mem_cons, List.not_mem_nil, or_false] at member
  rcases member with rfl | rfl | rfl | rfl | rfl | rfl | rfl | rfl | rfl | rfl <;>
    obtain ⟨value, got, same⟩ := bind_eq_ok_iff.mp read <;> cases same
  iterate 6 exact ⟨kept.editions, kept.declared⟩
  · exact ⟨normal_of_editions got, kept.declared⟩
  · exact ⟨kept.editions, normal_of_readLanguage got⟩
  iterate 2 exact ⟨kept.editions, kept.declared⟩

theorem hasNormalCodes_of_read {d : Data} {b : Book} (h : Book.ofData d = .ok b) :
    b.HasNormalCodes :=
  readRecord_keeps hasNormalCodes_field (hasNormalCodes_titled "") h

end Book

end ReleaseSearch
