import Mathlib.Data.List.Nodup
import ReleaseSearch.Planner
import ReleaseSearch.Proofs.Book
import ReleaseSearch.Proofs.FirstSeen
import ReleaseSearch.Proofs.Plan

/-! The variants of a search that is restricted to some languages. The loop drops a query that
repeats; under one author that is to drop a title that repeats, so that each title stands once, for
the first language that brings it. -/
namespace ReleaseSearch.Planner

theorem exists_eq_singleton {α β : Type} {xs : List α} {key : α → β} {k : β} (filled : xs ≠ [])
    (distinct : (xs.map key).Nodup) (same : ∀ x ∈ xs, key x = k) : ∃ x, xs = [x] := by
  have all : xs.map key = List.replicate xs.length k := List.map_eq_replicate_iff.mpr same
  rw [all, List.nodup_replicate] at distinct
  exact List.length_eq_one_iff.mp (Nat.le_antisymm distinct (List.length_pos_iff.mpr filled))

/-- The language of a book is in normal form, whether the book declares it or the planner does. -/
theorem normalize_primaryLanguageOf (defaults : List String) (primary : String) (b : Book) :
    Language.normalize ((ofDefaults defaults primary).primaryLanguageOf b) =
      (ofDefaults defaults primary).primaryLanguageOf b := by
  unfold primaryLanguageOf
  cases declared : b.declaredLanguage? with
  | none => exact Language.normalize_normalize primary
  | some code => exact (Book.declaredLanguage?_normal declared).1

variable (p : Planner) (b : Book)

/-- The variant of a requested language, if it has a title. -/
def variantFor? (language : String) : Option Variant :=
  (p.titleFor? b language).map fun title =>
    Variant.ofTitle title b.primarySearchAuthor (some [language])

theorem variantFor?_eq_some_iff (language : String) (v : Variant) :
    p.variantFor? b language = some v ↔ ∃ title, p.titleFor? b language = some title ∧
      Variant.ofTitle title b.primarySearchAuthor (some [language]) = v :=
  Option.map_eq_some_iff

theorem variantFor?_eq_none_iff (language : String) :
    p.variantFor? b language = none ↔ p.titleFor? b language = none :=
  Option.map_eq_none_iff

theorem titleFor?_primary :
    p.titleFor? b (p.primaryLanguageOf b) = some (b.primaryTitleIn (p.primaryLanguageOf b)) := by
  rw [titleFor?, if_pos rfl]

theorem isSome_titleFor?_iff (language : String) :
    (p.titleFor? b language).isSome ↔
      language = p.primaryLanguageOf b ∨ (b.titleIn language).isSome := by
  rw [titleFor?]
  split
  · rename_i own
    exact iff_of_true rfl (Or.inl own)
  · rename_i apart
    exact (or_iff_right apart).symm

theorem titleFor?_eq_none_iff (language : String) :
    p.titleFor? b language = none ↔
      language ≠ p.primaryLanguageOf b ∧ b.titleIn language = none := by
  rw [← Option.not_isSome_iff_eq_none, isSome_titleFor?_iff, not_or, Option.not_isSome_iff_eq_none]

theorem requestedVariants_eq_foldl (languages : List String) :
    p.requestedVariants b languages =
      (languages.filterMap (p.variantFor? b)).foldl (FirstSeen.addNew Variant.query) [] := rfl

theorem requestedVariants_eq_zipIdx (languages : List String) :
    p.requestedVariants b languages = languages.zipIdx.filterMap fun q =>
      FirstSeen.newAt Variant.query (p.variantFor? b) languages q.1 q.2 := by
  have run := FirstSeen.foldl_filterMap Variant.query (p.variantFor? b) languages [] []
    (by intro k; simp)
  rw [requestedVariants_eq_foldl, run]
  rfl

/-- Two requested languages have the same query exactly if they have the same title. -/
theorem query_eq_iff (language : String) (title : String) :
    (p.variantFor? b language).map Variant.query =
        some (composeQuery title b.primarySearchAuthor) ↔
      p.titleFor? b language = some title := by
  rw [variantFor?, Option.map_map, Option.map_eq_some_iff]
  constructor
  · rintro ⟨other, known, same⟩
    rw [known, composeQuery_inj.mp same]
  · intro known
    exact ⟨title, known, rfl⟩

theorem newAt_variantFor? (languages : List String) (language : String) (i : Nat) :
    FirstSeen.newAt Variant.query (p.variantFor? b) languages language i =
      ((p.titleFor? b language).filter fun title =>
        ∀ earlier ∈ languages.take i, p.titleFor? b earlier ≠ some title).map fun title =>
          Variant.ofTitle title b.primarySearchAuthor (some [language]) := by
  rw [FirstSeen.newAt, variantFor?]
  cases p.titleFor? b language with
  | none => rfl
  | some title =>
    have same : (∀ e ∈ languages.take i, (p.variantFor? b e).map Variant.query ≠
        some (Variant.ofTitle title b.primarySearchAuthor (some [language])).query) ↔
        ∀ e ∈ languages.take i, p.titleFor? b e ≠ some title := by
      simp only [Variant.ofTitle, Ne, query_eq_iff]
    rw [Option.map_some, Option.filter_some, Option.filter_some]
    by_cases new : ∀ e ∈ languages.take i, p.titleFor? b e ≠ some title
    · rw [if_pos (decide_eq_true (same.mpr new)), if_pos (decide_eq_true new)]
      rfl
    · rw [if_neg (by rw [decide_eq_true_eq, same]; exact new),
        if_neg (by rw [decide_eq_true_eq]; exact new)]
      rfl

theorem mem_requestedVariants {languages : List String} {v : Variant}
    (h : v ∈ p.requestedVariants b languages) :
    ∃ language ∈ languages, p.variantFor? b language = some v := by
  rw [requestedVariants_eq_foldl] at h
  rcases FirstSeen.mem_of_mem_foldl h with h | h
  · cases h
  · exact List.mem_filterMap.mp h

theorem nodup_requestedVariants (languages : List String) :
    ((p.requestedVariants b languages).map Variant.query).Nodup := by
  rw [requestedVariants_eq_foldl]
  exact FirstSeen.nodup_foldl Variant.query _ List.nodup_nil

theorem requestedVariants_eq_nil_iff (languages : List String) :
    p.requestedVariants b languages = [] ↔
      ∀ language ∈ languages, p.titleFor? b language = none := by
  constructor
  · intro empty language member
    rw [← variantFor?_eq_none_iff]
    cases found : p.variantFor? b language with
    | none => rfl
    | some v =>
      have kept := (FirstSeen.mem_keys_foldl Variant.query
        (languages.filterMap (p.variantFor? b)) [] v.query).mpr
        (Or.inr (List.mem_map_of_mem (List.mem_filterMap.mpr ⟨language, member, found⟩)))
      rw [← requestedVariants_eq_foldl, empty] at kept
      cases kept
  · intro missing
    have none_left : languages.filterMap (p.variantFor? b) = [] := by
      rw [List.filterMap_eq_nil_iff]
      intro language member
      exact (p.variantFor?_eq_none_iff b language).mpr (missing language member)
    rw [requestedVariants_eq_foldl, none_left]
    rfl

/-- A title that some requested language has is searched for, under the first language with it. -/
theorem mem_requestedVariants_of_find? {languages : List String} {first title : String}
    (h : languages.find? (fun l => p.titleFor? b l = some title) = some first) :
    Variant.ofTitle title b.primarySearchAuthor (some [first]) ∈
      p.requestedVariants b languages := by
  obtain ⟨known, before, after, split, apart⟩ := List.find?_eq_some_iff_append.mp h
  have known : p.titleFor? b first = some title := by simpa using known
  rw [requestedVariants_eq_zipIdx, List.mem_filterMap]
  refine ⟨(first, before.length), ?_, ?_⟩
  · rw [List.mem_zipIdx_iff_getElem?, split]
    simp
  · rw [newAt_variantFor?, known, split, List.take_left, Option.filter_some_pos]
    · rfl
    · simpa using apart

/-- The requested variants, or the variant of the primary language where there are none. -/
theorem languageVariants_of_missing {languages : List String}
    (missing : ∀ language ∈ languages, p.titleFor? b language = none) :
    p.languageVariants b languages =
      [Variant.ofTitle (b.primaryTitleIn (p.primaryLanguageOf b)) b.primarySearchAuthor
        (some [p.primaryLanguageOf b])] := by
  rw [languageVariants, (p.requestedVariants_eq_nil_iff b languages).mpr missing]

theorem languageVariants_of_found {languages : List String}
    (found : ∃ language ∈ languages, (p.titleFor? b language).isSome) :
    p.languageVariants b languages = p.requestedVariants b languages := by
  have some_left : p.requestedVariants b languages ≠ [] := by
    intro empty
    obtain ⟨language, member, known⟩ := found
    rw [(p.requestedVariants_eq_nil_iff b languages).mp empty language member] at known
    cases known
  rw [languageVariants]
  split
  · rename_i empty; exact absurd empty some_left
  · rfl

theorem languageVariants_cases (languages : List String) :
    (p.requestedVariants b languages ≠ [] ∧
      p.languageVariants b languages = p.requestedVariants b languages) ∨
    p.languageVariants b languages = (p.variantFor? b (p.primaryLanguageOf b)).toList := by
  by_cases missing : ∀ language ∈ languages, p.titleFor? b language = none
  · right
    rw [p.languageVariants_of_missing b missing, variantFor?, titleFor?_primary]
    rfl
  · left
    have found : ∃ language ∈ languages, (p.titleFor? b language).isSome := by
      simpa [Option.isSome_iff_ne_none] using missing
    refine ⟨?_, p.languageVariants_of_found b found⟩
    rwa [Ne, requestedVariants_eq_nil_iff]

theorem mem_languageVariants {languages : List String} {v : Variant}
    (h : v ∈ p.languageVariants b languages) : ∃ language, p.variantFor? b language = some v := by
  rcases p.languageVariants_cases b languages with ⟨_, eq⟩ | eq
  · rw [eq] at h
    obtain ⟨language, _, found⟩ := p.mem_requestedVariants b h
    exact ⟨language, found⟩
  · rw [eq] at h
    exact ⟨_, Option.mem_toList.mp h⟩

theorem nodup_languageVariants (languages : List String) :
    ((p.languageVariants b languages).map Variant.query).Nodup := by
  rcases p.languageVariants_cases b languages with ⟨_, eq⟩ | eq
  · rw [eq]
    exact p.nodup_requestedVariants b languages
  · rw [eq]
    cases p.variantFor? b (p.primaryLanguageOf b) with
    | none => exact List.nodup_nil
    | some v => exact List.nodup_singleton _

theorem languageVariants_ne_nil (languages : List String) :
    p.languageVariants b languages ≠ [] := by
  rcases p.languageVariants_cases b languages with ⟨filled, eq⟩ | eq
  · rwa [eq]
  · rw [eq, variantFor?, titleFor?_primary]
    exact List.cons_ne_nil _ _

theorem languageVariants_eq_singleton {languages : List String} {v : Variant}
    (only : ∀ w ∈ p.languageVariants b languages, w = v) : p.languageVariants b languages = [v] := by
  obtain ⟨w, single⟩ := exists_eq_singleton (p.languageVariants_ne_nil b languages)
    (p.nodup_languageVariants b languages) (fun w member => congrArg Variant.query (only w member))
  rw [single, only w (by rw [single]; exact List.mem_singleton_self w)]

end ReleaseSearch.Planner
