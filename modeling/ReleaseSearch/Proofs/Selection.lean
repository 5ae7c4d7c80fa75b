import ReleaseSearch.Planner
import ReleaseSearch.Proofs.Language

/-! The ways to name languages. A list of codes, the list of a request and a comma list all resolve
as the explicit list does, and what they resolve to is stable. -/
namespace ReleaseSearch

theorem Text.splitOn_eq (separator : Char) (cs : List Char) :
    Text.splitOn separator cs = cs.splitOn separator := by
  induction cs with
  | nil => rfl
  | cons c rest ih =>
    rw [List.splitOn_cons_eq_if_modifyHead, Text.splitOn, ih]
    by_cases h : c = separator
    · simp [h]
    · rw [if_neg h, if_neg (by simpa using h)]
      cases pieces : rest.splitOn separator with
      | nil => exact absurd pieces (List.splitOn_ne_nil separator rest)
      | cons piece pieces => rfl

/-- Cutting undoes joining, unless a part holds the separator or nothing was joined. -/
theorem Text.splitOn_intercalate (separator : Char) (parts : List String) (nonempty : parts ≠ [])
    (clean : ∀ part ∈ parts, separator ∉ part.toList) :
    (Text.splitOn separator ((String.singleton separator).intercalate parts).toList).map
      String.ofList = parts := by
  rw [Text.splitOn_eq, String.toList_intercalate, String.toList_singleton,
    List.splitOn_intercalate, List.map_map]
  · simp
  · simpa using clean
  · simpa using nonempty

namespace Planner

variable (p : Planner)

theorem resolve_ofCodes (codes : List String) :
    p.resolve (.ofCodes codes) = p.resolve (.explicit codes) := by
  unfold Selection.ofCodes
  cases h : Language.normalizeAll codes with
  | none => simp [resolve, h]
  | some normal =>
    cases normal with
    | nil => simp [resolve, h]
    | cons code rest =>
      have stable := Language.normalizeAll_of_canonical (Language.canonical_of_normalizeAll h)
      simp [resolve, h, stable]

theorem resolve_ofCommaList (codes : List String) (clean : ∀ code ∈ codes, ',' ∉ code.toList) :
    p.resolve (.ofCommaList (",".intercalate codes)) = p.resolve (.explicit codes) := by
  rw [Selection.ofCommaList, resolve_ofCodes]
  cases codes with
  | nil =>
    -- nothing joined is cut into one empty code, which is blank
    have blank : (Text.splitOn ',' (",".intercalate []).toList).map String.ofList = [""] := by decide
    have empty : Language.normalizeAll [""] = Language.normalizeAll [] := by decide
    rw [blank, resolve, resolve, empty]
  | cons code rest =>
    have undone := Text.splitOn_intercalate ',' (code :: rest) (by simp) clean
    rw [show "," = String.singleton ',' from rfl, undone]

/-- Blank codes are the ones whose normal form is empty, so they may be dropped first. -/
theorem filter_normalize (codes : List String) :
    (codes.map Language.normalize).filter (· ≠ "") =
      (codes.filter (Text.trim · ≠ "")).map Language.normalize := by
  have same : ∀ code ∈ codes, ((fun x : String => decide (x ≠ "")) ∘ Language.normalize) code =
      decide (Text.trim code ≠ "") := by
    intro code _
    simp only [Function.comp_apply, Ne, Language.normalize_eq_empty_iff]
  rw [List.filter_map, List.filter_congr same]

theorem resolve_explicit (codes : List String) :
    p.resolve (.explicit codes) =
      if ∃ code ∈ codes, Language.normalize code = Language.all then none
      else if ∃ code ∈ codes, Text.trim code ≠ "" then
        some ((codes.filter (Text.trim · ≠ "")).map Language.normalize).eraseDups
      else p.defaultLanguages := by
  by_cases sentinel : ∃ code ∈ codes, Language.normalize code = Language.all
  · rw [resolve, (Language.normalizeAll_eq_none_iff codes).mpr sentinel, if_pos sentinel]
  · have normal := Language.normalizeAll_eq codes
    rw [if_neg sentinel, filter_normalize] at normal
    rw [resolve, normal, if_neg sentinel]
    by_cases named : ∃ code ∈ codes, Text.trim code ≠ ""
    · rw [if_pos named]
      obtain ⟨code, member, filled⟩ := named
      have kept : Language.normalize code ∈
          ((codes.filter (Text.trim · ≠ "")).map Language.normalize).eraseDups := by
        rw [List.mem_eraseDups]
        exact List.mem_map_of_mem (List.mem_filter.mpr ⟨member, by simpa using filled⟩)
      cases list : ((codes.filter (Text.trim · ≠ "")).map Language.normalize).eraseDups with
      | nil => rw [list] at kept; cases kept
      | cons first rest => rfl
    · rw [if_neg named]
      have none_left : codes.filter (Text.trim · ≠ "") = [] := by
        rw [List.filter_eq_nil_iff]
        intro code member filled
        exact named ⟨code, member, by simpa using filled⟩
      rw [none_left]
      rfl

theorem resolve_canonical {codes : List String} (canonical : Language.Canonical codes)
    (nonempty : codes ≠ []) : p.resolve (.explicit codes) = some codes := by
  rw [resolve, Language.normalizeAll_of_canonical canonical]
  cases codes with
  | nil => exact absurd rfl nonempty
  | cons code rest => rfl

theorem canonical_defaults {defaults codes : List String} {primary : String}
    (h : (ofDefaults defaults primary).defaultLanguages = some codes) :
    Language.Canonical codes ∧ codes ≠ [] := by
  obtain ⟨normal, nonempty⟩ := Option.filter_eq_some_iff.mp h
  exact ⟨Language.canonical_of_normalizeAll normal, by simpa using nonempty⟩

/-- What a selection resolves to is canonical and not empty. -/
theorem canonical_resolve {defaults codes : List String} {primary : String} {selection : Selection}
    (h : (ofDefaults defaults primary).resolve selection = some codes) :
    Language.Canonical codes ∧ codes ≠ [] := by
  cases selection with
  | all => cases h
  | default => exact canonical_defaults h
  | explicit raw =>
    rw [resolve] at h
    split at h
    · cases h
    · exact canonical_defaults h
    · rename_i normal nonempty eq
      cases h
      exact ⟨Language.canonical_of_normalizeAll eq, fun empty => nonempty empty⟩

end Planner

/-- The ways to give a list of codes agree, and what a selection resolves to is stable. -/
theorem resolve_code_lists (defaults : List String) (primary : String) :
    let p : Planner := .ofDefaults defaults primary
    (∀ codes : List String,
      p.resolve (.ofCodes codes) = p.resolve (.explicit codes) ∧
      p.resolve (.ofRequest (some codes)) = p.resolve (.explicit codes) ∧
      ((∀ code ∈ codes, ',' ∉ code.toList) →
        p.resolve (.ofCommaList (",".intercalate codes)) = p.resolve (.explicit codes)) ∧
      p.resolve (.explicit codes) =
        if ∃ code ∈ codes, Text.lower (Text.trim code) = "all" then none
        else if ∃ code ∈ codes, Text.trim code ≠ "" then
          some ((codes.filter (Text.trim · ≠ "")).map
            fun code => Text.lower (Text.trim code)).eraseDups
        else p.defaultLanguages) ∧
    ∀ selection codes, p.resolve selection = some codes →
      codes ≠ [] ∧ codes.Nodup ∧ "all" ∉ codes ∧ p.resolve (.explicit codes) = some codes := by
  intro p
  refine ⟨fun codes => ⟨p.resolve_ofCodes codes, p.resolve_ofCodes codes,
    p.resolve_ofCommaList codes, p.resolve_explicit codes⟩, ?_⟩
  intro selection codes resolved
  obtain ⟨canonical, nonempty⟩ := Planner.canonical_resolve resolved
  exact ⟨nonempty, canonical.nodup, canonical.restricted, p.resolve_canonical canonical nonempty⟩

theorem resolve_code_lists_mixed :
    let p := Planner.ofDefaults ["en"] "en"
    let codes := [" HU", "ΟΔΟΣ", "", "hu "]
    (∀ code ∈ codes, ',' ∉ code.toList) ∧
      p.resolve (.ofCommaList (",".intercalate codes)) = p.resolve (.explicit codes) ∧
      p.resolve (.explicit codes) = some ["hu", "οδος"] ∧
      p.resolve (.explicit ["hu", "οδος"]) = some ["hu", "οδος"] := by
  have clean : ∀ code ∈ [" HU", "ΟΔΟΣ", "", "hu "], ',' ∉ code.toList := by decide
  have resolved : (Planner.ofDefaults ["en"] "en").resolve
      (.explicit [" HU", "ΟΔΟΣ", "", "hu "]) = some ["hu", "οδος"] := by decide +kernel
  have laws := resolve_code_lists ["en"] "en"
  exact ⟨clean, (laws.1 _).2.2.1 clean, resolved, (laws.2 _ _ resolved).2.2.2⟩

end ReleaseSearch
