import ReleaseSearch.Proofs.Isbn
import ReleaseSearch.Proofs.Plan.Groups
import ReleaseSearch.Proofs.Planner.Variants

/-! The plans that a planner builds: what each branch holds, and what all of them have in common. -/
namespace ReleaseSearch

namespace Plan

/-- The tag of a variant or a group: none in a search without restriction and in a manual one, and
one language in any other. -/
def TagFits (plan : Plan) (languages : Option (List String)) : Prop :=
  (languages = none ↔ plan.isManual = true ∨ plan.languages = none) ∧
    (languages = none ∨ ∃ code, languages = some [code])

structure WellFormed (plan : Plan) : Prop where
  variants_ne_nil : plan.titleVariants ≠ []
  queries_nodup : (plan.titleVariants.map Variant.query).Nodup
  group_titles_nodup : (plan.groupedTitleVariants.map TitleGroup.title).Nodup
  group_titles : plan.groupedTitleVariants.map TitleGroup.title =
    plan.titleVariants.map Variant.title
  query_eq : ∀ v ∈ plan.titleVariants, v.query = match plan.author with
    | none => v.title
    | some author => v.title ++ " " ++ author
  isbns_nodup : plan.isbnCandidates.Nodup
  isbns_clean : ∀ isbn ∈ plan.isbnCandidates,
    isbn ≠ "" ∧ ∀ c ∈ isbn.toList, Text.isBlank c = false ∧ c ≠ '-'
  variant_tags : ∀ v ∈ plan.titleVariants, plan.TagFits v.languages
  group_tags : ∀ g ∈ plan.groupedTitleVariants, plan.TagFits g.languages
  manual_bare : plan.isManual = true → plan.author = none ∧ plan.isbnCandidates = []

end Plan

namespace Planner

variable (p : Planner) (b : Book)

theorem plan_of_blank (selection : Selection) {manualQuery : Option String}
    (blank : ∀ query ∈ manualQuery, Text.trim query = "") :
    p.plan b selection manualQuery = p.derivedPlan b (p.resolve selection) := by
  have ignored : manualQuery.filter (fun query => Text.trim query ≠ "") = none := by
    rw [Option.filter_eq_none_iff]
    intro query given
    simp [blank query given]
  rw [plan, ignored]

theorem plan_of_query (selection : Selection) {query : String} (filled : Text.trim query ≠ "") :
    p.plan b selection (some query) = manualPlan query (p.resolve selection) := by
  have taken : (some query).filter (fun query => Text.trim query ≠ "") = some query := by
    rw [Option.filter_some_pos]
    simpa using filled
  rw [plan, taken]

/-- A plan is manual or derived, and a query that is not blank decides which. -/
theorem plan_cases (selection : Selection) (manualQuery : Option String) :
    (∃ query, Text.trim query ≠ "" ∧
      p.plan b selection manualQuery = manualPlan query (p.resolve selection)) ∨
    p.plan b selection manualQuery = p.derivedPlan b (p.resolve selection) := by
  cases manualQuery with
  | none => exact Or.inr (p.plan_of_blank b selection (by simp))
  | some query =>
    by_cases blank : Text.trim query = ""
    · exact Or.inr (p.plan_of_blank b selection (by simpa using blank))
    · exact Or.inl ⟨query, blank, p.plan_of_query b selection blank⟩

theorem mem_derivedPlan {languages : Option (List String)} {v : Variant}
    (h : v ∈ (p.derivedPlan b languages).titleVariants) :
    (languages = none ∧ v = Variant.ofTitle b.primarySearchTitle b.primarySearchAuthor none) ∨
      languages ≠ none ∧ ∃ language, p.variantFor? b language = some v := by
  cases languages with
  | none => exact Or.inl ⟨rfl, List.mem_singleton.mp h⟩
  | some codes =>
    right
    exact ⟨by simp, p.mem_languageVariants b h⟩

theorem query_of_mem_derivedPlan {languages : Option (List String)} {v : Variant}
    (h : v ∈ (p.derivedPlan b languages).titleVariants) :
    v.query = composeQuery v.title b.primarySearchAuthor := by
  rcases p.mem_derivedPlan b h with ⟨_, rfl⟩ | ⟨_, language, found⟩
  · rfl
  · obtain ⟨title, _, rfl⟩ := (p.variantFor?_eq_some_iff b language v).mp found
    rfl

theorem nodup_queries_derivedPlan (languages : Option (List String)) :
    ((p.derivedPlan b languages).titleVariants.map Variant.query).Nodup := by
  cases languages with
  | none => exact List.nodup_singleton _
  | some codes => exact p.nodup_languageVariants b codes

/-- Queries that differ under one author have titles that differ. -/
theorem nodup_titles_derivedPlan (languages : Option (List String)) :
    ((p.derivedPlan b languages).titleVariants.map Variant.title).Nodup := by
  have queries := p.nodup_queries_derivedPlan b languages
  have same : (p.derivedPlan b languages).titleVariants.map Variant.query =
      ((p.derivedPlan b languages).titleVariants.map Variant.title).map
        (composeQuery · b.primarySearchAuthor) := by
    rw [List.map_map]
    exact List.map_congr_left (fun v h => p.query_of_mem_derivedPlan b h)
  rw [same] at queries
  exact queries.of_map _

theorem groups_derivedPlan (languages : Option (List String)) :
    (p.derivedPlan b languages).groupedTitleVariants =
      (p.derivedPlan b languages).titleVariants.map fun v => ⟨v.title, v.languages⟩ :=
  Plan.groupVariants_of_nodup (p.nodup_titles_derivedPlan b languages)

theorem derivedPlan_ne_nil (languages : Option (List String)) :
    (p.derivedPlan b languages).titleVariants ≠ [] := by
  cases languages with
  | none => exact List.cons_ne_nil _ _
  | some codes => exact p.languageVariants_ne_nil b codes

theorem textQueries_derivedPlan (languages : Option (List String)) :
    (p.derivedPlan b languages).textQueries .expanded =
      (p.derivedPlan b languages).textQueries .reduced := by
  simp only [Plan.textQueries]
  rw [groups_derivedPlan, List.map_map]
  apply List.map_congr_left
  intro v h
  rw [p.query_of_mem_derivedPlan b h]
  rfl

theorem textQueries_eq_map (languages : Option (List String)) (strategy : Strategy) :
    (p.derivedPlan b languages).textQueries strategy =
      (p.derivedPlan b languages).titleVariants.map fun v => ⟨v.query, v.languages⟩ := by
  cases strategy with
  | expanded => rfl
  | reduced => exact (p.textQueries_derivedPlan b languages).symm

/-- The two strategies send the same queries in the same order, for every plan that is built. -/
theorem strategies_agree (selection : Selection) (manualQuery : Option String) :
    let plan := p.plan b selection manualQuery
    plan.textQueries .expanded = plan.textQueries .reduced ∧
      plan.callCount .expanded = plan.callCount .reduced ∧
      ∀ (other : Plan) (strategy : Strategy), other.callCount strategy =
        other.isbnCandidates.length + (other.textQueries strategy).length := by
  intro plan
  have same : plan.textQueries .expanded = plan.textQueries .reduced := by
    rcases p.plan_cases b selection manualQuery with ⟨query, _, eq⟩ | eq
    · simp only [plan, eq]
      rfl
    · simp only [plan, eq]
      exact p.textQueries_derivedPlan b _
  refine ⟨same, ?_, Plan.callCount_eq⟩
  rw [Plan.callCount_eq, Plan.callCount_eq, same]

theorem wellFormed_manualPlan (query : String) (languages : Option (List String)) :
    (manualPlan query languages).WellFormed := by
  have untagged : (manualPlan query languages).TagFits none :=
    ⟨⟨fun _ => Or.inl rfl, fun _ => rfl⟩, Or.inl rfl⟩
  constructor
  · exact List.cons_ne_nil _ _
  · exact List.nodup_singleton _
  · exact List.nodup_singleton _
  · rfl
  · intro v h
    cases List.mem_singleton.mp h
    rfl
  · exact List.nodup_nil
  · intro isbn h
    cases h
  · intro v h
    cases List.mem_singleton.mp h
    exact untagged
  · intro g h
    cases List.mem_singleton.mp h
    exact untagged
  · intro _
    exact ⟨rfl, rfl⟩

theorem tagFits_of_mem_derivedPlan {languages : Option (List String)} {v : Variant}
    (h : v ∈ (p.derivedPlan b languages).titleVariants) :
    (p.derivedPlan b languages).TagFits v.languages := by
  rcases p.mem_derivedPlan b h with ⟨rfl, rfl⟩ | ⟨restricted, language, found⟩
  · exact ⟨⟨fun _ => Or.inr rfl, fun _ => rfl⟩, Or.inl rfl⟩
  · obtain ⟨title, _, rfl⟩ := (p.variantFor?_eq_some_iff b language v).mp found
    refine ⟨⟨?_, ?_⟩, Or.inr ⟨language, rfl⟩⟩
    · intro untagged
      cases untagged
    · rintro (manual | free)
      · cases manual
      · exact absurd free restricted

theorem wellFormed_derivedPlan (languages : Option (List String)) :
    (p.derivedPlan b languages).WellFormed := by
  have titles : (p.derivedPlan b languages).groupedTitleVariants.map TitleGroup.title =
      (p.derivedPlan b languages).titleVariants.map Variant.title := by
    rw [groups_derivedPlan, List.map_map]
    rfl
  constructor
  · exact p.derivedPlan_ne_nil b languages
  · exact p.nodup_queries_derivedPlan b languages
  · rw [titles]
    exact p.nodup_titles_derivedPlan b languages
  · exact titles
  · intro v h
    rw [p.query_of_mem_derivedPlan b h]
    change _ = match b.primarySearchAuthor with
      | none => v.title
      | some author => v.title ++ " " ++ author
    cases known : b.primarySearchAuthor with
    | none => rfl
    | some author => exact composeQuery_some v.title (Book.tidy_primarySearchAuthor known).ne_empty
  · exact nodup_isbnCandidates b
  · intro isbn h
    obtain ⟨raw, kept⟩ := exists_of_mem_isbnCandidates h
    obtain ⟨filled, clean⟩ := Isbn.normalize?_clean kept
    refine ⟨filled, fun c hc => ?_⟩
    have apart := clean c hc
    rw [Isbn.isSeparator, Bool.or_eq_false_iff] at apart
    exact ⟨apart.1, by simpa using apart.2⟩
  · intro v h
    exact p.tagFits_of_mem_derivedPlan b h
  · intro g h
    rw [groups_derivedPlan] at h
    obtain ⟨v, hv, rfl⟩ := List.mem_map.mp h
    exact p.tagFits_of_mem_derivedPlan b hv
  · intro manual
    cases manual

/-- The titles and the queries that are derived from a book with a title are tidy. -/
theorem tidy_of_mem_derivedPlan (named : Text.trim b.title ≠ "")
    {languages : Option (List String)} {v : Variant}
    (h : v ∈ (p.derivedPlan b languages).titleVariants) :
    Text.Tidy v.title ∧ Text.Tidy v.query := by
  have title : Text.Tidy v.title := by
    rcases p.mem_derivedPlan b h with ⟨_, rfl⟩ | ⟨_, language, found⟩
    · exact Book.tidy_primarySearchTitle named
    · obtain ⟨title, known, rfl⟩ := (p.variantFor?_eq_some_iff b language v).mp found
      unfold titleFor? at known
      split at known
      · cases known
        exact Book.tidy_primaryTitleIn named language
      · exact Book.tidy_titleIn known
  refine ⟨title, ?_⟩
  rw [p.query_of_mem_derivedPlan b h]
  cases known : b.primarySearchAuthor with
  | none => exact title
  | some author =>
    have author_tidy := Book.tidy_primarySearchAuthor known
    rw [composeQuery_some v.title author_tidy.ne_empty]
    exact title.append_space author_tidy

theorem plan_wellFormed (selection : Selection) (manualQuery : Option String) :
    let plan := p.plan b selection manualQuery
    plan.WellFormed ∧
      (plan.isManual = false → Text.trim b.title ≠ "" →
        ∀ v ∈ plan.titleVariants, Text.Tidy v.title ∧ Text.Tidy v.query) := by
  intro plan
  rcases p.plan_cases b selection manualQuery with ⟨query, _, eq⟩ | eq
  · have manual : plan = manualPlan query (p.resolve selection) := eq
    rw [manual]
    refine ⟨wellFormed_manualPlan query _, ?_⟩
    intro derived
    cases derived
  · have derived : plan = p.derivedPlan b (p.resolve selection) := eq
    rw [derived]
    refine ⟨p.wellFormed_derivedPlan b _, ?_⟩
    intro _ named v h
    exact p.tidy_of_mem_derivedPlan b named h

theorem plan_wellFormed_padded :
    let b : Book :=
      { title := " Dune: Part One "
        searchTitle := some " "
        authors := [" Frank Herbert "]
        titlesByLanguage := Assoc.ofList [("HU", " Dűne ")] }
    let plan := (ofDefaults ["en"] "en").plan b (.explicit ["hu", "en"]) (some "")
    plan.isManual = false ∧ Text.trim b.title ≠ "" ∧ plan.WellFormed ∧
      ∀ v ∈ plan.titleVariants, Text.Tidy v.title ∧ Text.Tidy v.query := by
  intro b plan
  have derived : plan.isManual = false := by decide +kernel
  have named : Text.trim b.title ≠ "" := by decide +kernel
  have facts := (ofDefaults ["en"] "en").plan_wellFormed b (.explicit ["hu", "en"]) (some "")
  exact ⟨derived, named, facts.1, facts.2 derived named⟩

end Planner

end ReleaseSearch
