import ReleaseSearch.Proofs.Planner.Restricted
import ReleaseSearch.Proofs.Selection

/-! How plans vary with the list of codes that a caller gives. The queries depend on which codes are
listed only; a longer list continues the variants of a shorter one that names a language with a
title. -/
namespace ReleaseSearch.Planner

variable (p : Planner) (b : Book)

theorem resolve_of_named {codes : List String}
    (restricted : ∀ code ∈ codes, Language.normalize code ≠ Language.all)
    (named : ∃ code ∈ codes, Text.trim code ≠ "") :
    p.resolve (.explicit codes) =
      some ((codes.filter (Text.trim · ≠ "")).map Language.normalize).eraseDups := by
  have free : ¬ ∃ code ∈ codes, Language.normalize code = Language.all := by
    rintro ⟨code, member, all⟩
    exact restricted code member all
  rw [resolve_explicit, if_neg free, if_pos named]

theorem plan_of_named {codes : List String}
    (restricted : ∀ code ∈ codes, Language.normalize code ≠ Language.all)
    (named : ∃ code ∈ codes, Text.trim code ≠ "") :
    p.plan b (.explicit codes) none = p.derivedPlan b
      (some ((codes.filter (Text.trim · ≠ "")).map Language.normalize).eraseDups) := by
  rw [p.plan_of_blank b _ (by simp), p.resolve_of_named restricted named]

theorem queries_derivedPlan (languages : Option (List String)) (strategy : Strategy) :
    ((p.derivedPlan b languages).textQueries strategy).map Query.query =
      (p.derivedPlan b languages).titleVariants.map Variant.query := by
  rw [textQueries_eq_map, List.map_map]
  rfl

/-- The queries of a restricted search: those of the listed languages with a title, or the primary
one when there are none. -/
theorem mem_queries_languageVariants (codes : List String) (query : String) :
    query ∈ (p.languageVariants b codes).map Variant.query ↔
      (∃ code ∈ codes, (p.variantFor? b code).map Variant.query = some query) ∨
        (∀ code ∈ codes, p.titleFor? b code = none) ∧
          query = composeQuery (b.primaryTitleIn (p.primaryLanguageOf b))
            b.primarySearchAuthor := by
  by_cases missing : ∀ code ∈ codes, p.titleFor? b code = none
  · have silent : ¬ ∃ code ∈ codes, (p.variantFor? b code).map Variant.query = some query := by
      rintro ⟨code, member, found⟩
      rw [(p.variantFor?_eq_none_iff b code).mpr (missing code member)] at found
      cases found
    rw [p.languageVariants_of_missing b missing, List.map_singleton, List.mem_singleton]
    exact ⟨fun same => Or.inr ⟨missing, same⟩, fun h => (h.resolve_left silent).2⟩
  · have found : ∃ code ∈ codes, (p.titleFor? b code).isSome := by
      simpa [Option.isSome_iff_ne_none] using missing
    have requested : query ∈ (p.requestedVariants b codes).map Variant.query ↔
        ∃ code ∈ codes, (p.variantFor? b code).map Variant.query = some query := by
      rw [requestedVariants_eq_foldl, FirstSeen.mem_keys_foldl, List.map_filterMap,
        List.mem_filterMap]
      simp
    rw [p.languageVariants_of_found b found, requested]
    exact ⟨Or.inl, fun h => h.resolve_right fun fallback => missing fallback.1⟩

/-- Where a listed language has a title, every query is one of a listed language. -/
theorem mem_queries_of_found {codes : List String}
    (found : ∃ code ∈ codes, (p.titleFor? b code).isSome) (query : String) :
    query ∈ (p.languageVariants b codes).map Variant.query ↔
      ∃ code ∈ codes, (p.variantFor? b code).map Variant.query = some query := by
  rw [mem_queries_languageVariants, or_iff_left]
  rintro ⟨missing, _⟩
  obtain ⟨code, member, known⟩ := found
  rw [missing code member] at known
  cases known

theorem mem_queries_congr {codes others : List String}
    (same : ∀ code, code ∈ codes ↔ code ∈ others) (query : String) :
    query ∈ (p.languageVariants b codes).map Variant.query ↔
      query ∈ (p.languageVariants b others).map Variant.query := by
  simp only [mem_queries_languageVariants, same]

theorem requestedVariants_append (codes more : List String) :
    p.requestedVariants b codes <+: p.requestedVariants b (codes ++ more) := by
  rw [requestedVariants_eq_foldl, requestedVariants_eq_foldl, List.filterMap_append,
    List.foldl_append]
  exact FirstSeen.prefix_foldl Variant.query _ _

theorem languageVariants_append {codes : List String}
    (found : ∃ code ∈ codes, (p.titleFor? b code).isSome) (more : List String) :
    p.languageVariants b codes <+: p.languageVariants b (codes ++ more) := by
  have still : ∃ code ∈ codes ++ more, (p.titleFor? b code).isSome := by
    obtain ⟨code, member, known⟩ := found
    exact ⟨code, List.mem_append_left more member, known⟩
  rw [p.languageVariants_of_found b found, p.languageVariants_of_found b still]
  exact p.requestedVariants_append b codes more

/-- Lists with the same codes have the same queries, and the same plan when the codes come first in
the same order; a list that names a language with a title begins the variants of every longer one. -/
theorem plan_code_lists :
    let plan := fun codes : List String => p.plan b (.explicit codes) none
    let normal := fun code : String => Text.lower (Text.trim code)
    let codesOf := fun codes : List String => (codes.filter (Text.trim · ≠ "")).map normal
    let restricted := fun codes : List String => ∀ code ∈ codes, normal code ≠ "all"
    (∀ codes others, restricted codes → restricted others →
      (∃ code ∈ codes, Text.trim code ≠ "") →
      (∀ code, code ∈ codesOf codes ↔ code ∈ codesOf others) →
      (plan codes).isbnCandidates = (plan others).isbnCandidates ∧
      (∀ strategy query, query ∈ ((plan codes).textQueries strategy).map Query.query ↔
        query ∈ ((plan others).textQueries strategy).map Query.query) ∧
      ((codesOf codes).eraseDups = (codesOf others).eraseDups → plan codes = plan others)) ∧
    ∀ codes more, restricted codes → restricted more →
      (∃ code ∈ codes, Text.trim code ≠ "" ∧
        (normal code = p.primaryLanguageOf b ∨ (b.titleIn (normal code)).isSome)) →
      (plan codes).titleVariants <+: (plan (codes ++ more)).titleVariants := by
  intro plan normal codesOf restricted
  constructor
  · intro codes others free free_others named same
    -- a code that both lists have is not blank, so the other list restricts the search as well
    have named_others : ∃ code ∈ others, Text.trim code ≠ "" := by
      obtain ⟨code, member, filled⟩ := named
      have listed : normal code ∈ codesOf codes :=
        List.mem_map_of_mem (List.mem_filter.mpr ⟨member, by simpa using filled⟩)
      obtain ⟨other, kept, _⟩ := List.mem_map.mp ((same _).mp listed)
      exact ⟨other, (List.mem_filter.mp kept).1, by simpa using (List.mem_filter.mp kept).2⟩
    have eq : plan codes = p.derivedPlan b (some (codesOf codes).eraseDups) :=
      p.plan_of_named b free named
    have eq_others : plan others = p.derivedPlan b (some (codesOf others).eraseDups) :=
      p.plan_of_named b free_others named_others
    rw [eq, eq_others]
    refine ⟨rfl, fun strategy query => ?_, fun order => by rw [order]⟩
    rw [queries_derivedPlan, queries_derivedPlan]
    apply p.mem_queries_congr b
    intro code
    rw [List.mem_eraseDups, List.mem_eraseDups, same]
  · rintro codes more free free_more ⟨code, member, filled, titled⟩
    have free_both : restricted (codes ++ more) := by
      intro code member
      rcases List.mem_append.mp member with member | member
      · exact free code member
      · exact free_more code member
    have eq : plan codes = p.derivedPlan b (some (codesOf codes).eraseDups) :=
      p.plan_of_named b free ⟨code, member, filled⟩
    have eq_both : plan (codes ++ more) =
        p.derivedPlan b (some (codesOf (codes ++ more)).eraseDups) :=
      p.plan_of_named b free_both ⟨code, List.mem_append_left more member, filled⟩
    have codes_both : codesOf (codes ++ more) = codesOf codes ++ codesOf more := by
      simp only [codesOf, List.filter_append, List.map_append]
    have found : ∃ code ∈ (codesOf codes).eraseDups, (p.titleFor? b code).isSome := by
      refine ⟨normal code, ?_, ?_⟩
      · rw [List.mem_eraseDups]
        exact List.mem_map_of_mem (List.mem_filter.mpr ⟨member, by simpa using filled⟩)
      · unfold titleFor?
        split
        · rfl
        · rename_i apart
          exact titled.resolve_left apart
    rw [eq, eq_both, codes_both, List.eraseDups_append]
    exact p.languageVariants_append b found _

theorem plan_code_lists_respelled :
    let p := ofDefaults ["en"] "en"
    let b : Book :=
      { title := "Dune"
        authors := ["Frank Herbert"]
        titlesByLanguage := Assoc.ofList [("HU", "A Dűne"), ("fr", "Dune ")] }
    let plan := fun codes : List String => p.plan b (.explicit codes) none
    let normal := fun code : String => Text.lower (Text.trim code)
    let codesOf := fun codes : List String => (codes.filter (Text.trim · ≠ "")).map normal
    let restricted := fun codes : List String => ∀ code ∈ codes, normal code ≠ "all"
    let codes := [" HU", "fr", "hu"]
    let turned := ["FR ", "", "Hu"]
    let respelled := ["hU", "", "Fr"]
    restricted codes ∧ restricted turned ∧ restricted respelled ∧
      (∃ code ∈ codes, Text.trim code ≠ "") ∧
      (∀ code, code ∈ codesOf codes ↔ code ∈ codesOf turned) ∧
      (codesOf codes).eraseDups = (codesOf respelled).eraseDups ∧
      (∃ code ∈ codes, Text.trim code ≠ "" ∧
        (normal code = p.primaryLanguageOf b ∨ (b.titleIn (normal code)).isSome)) ∧
      "A Dűne Frank Herbert" ∈ ((plan turned).textQueries .reduced).map Query.query ∧
      plan codes = plan respelled ∧ plan codes ≠ plan turned ∧
      (plan codes).titleVariants <+: (plan (codes ++ ["de", "EN"])).titleVariants := by
  intro p b plan normal codesOf restricted codes turned respelled
  have free : restricted codes := by decide +kernel
  have free_turned : restricted turned := by decide +kernel
  have free_respelled : restricted respelled := by decide +kernel
  have free_more : restricted ["de", "EN"] := by decide +kernel
  have named : ∃ code ∈ codes, Text.trim code ≠ "" := ⟨"fr", by decide, by decide +kernel⟩
  have listed : codesOf codes = ["hu", "fr", "hu"] := by decide +kernel
  have listed_turned : codesOf turned = ["fr", "hu"] := by decide +kernel
  have listed_respelled : codesOf respelled = ["hu", "fr"] := by decide +kernel
  have same : ∀ code, code ∈ codesOf codes ↔ code ∈ codesOf turned := by
    intro code
    rw [listed, listed_turned]
    grind
  have same_respelled : ∀ code, code ∈ codesOf codes ↔ code ∈ codesOf respelled := by
    intro code
    rw [listed, listed_respelled]
    grind
  have order : (codesOf codes).eraseDups = (codesOf respelled).eraseDups := by
    rw [listed, listed_respelled]
    decide
  have titled : ∃ code ∈ codes, Text.trim code ≠ "" ∧
      (normal code = p.primaryLanguageOf b ∨ (b.titleIn (normal code)).isSome) :=
    ⟨"fr", by decide, by decide +kernel, by decide +kernel⟩
  obtain ⟨lists, longer⟩ := p.plan_code_lists b
  obtain ⟨_, queries, _⟩ := lists codes turned free free_turned named same
  refine ⟨free, free_turned, free_respelled, named, same, order, titled, ?_, ?_, ?_, ?_⟩
  · rw [← queries]
    decide +kernel
  · exact (lists codes respelled free free_respelled named same_respelled).2.2 order
  · decide +kernel
  · exact longer codes ["de", "EN"] free free_more titled

/-- Blank codes name no language, not even where the primary language is blank: the variants of a
list whose only code for it is a blank one do not go on in a longer list. -/
theorem variants_of_blank_primary_code :
    let p := ofDefaults ["en"] ""
    let b : Book :=
      { title := "Dune", titlesByLanguage := Assoc.ofList [("de", "Der Wüstenplanet")] }
    let plan := fun codes : List String => p.plan b (.explicit codes) none
    let normal := fun code : String => Text.lower (Text.trim code)
    (∀ code ∈ ["", "fr"], normal code ≠ "all") ∧ (∀ code ∈ ["de"], normal code ≠ "all") ∧
      (∃ code ∈ ["", "fr"],
        normal code = p.primaryLanguageOf b ∨ (b.titleIn (normal code)).isSome) ∧
      (plan ["", "fr"]).titleVariants = [⟨"Dune", "Dune", some [""]⟩] ∧
      (plan (["", "fr"] ++ ["de"])).titleVariants =
        [⟨"Der Wüstenplanet", "Der Wüstenplanet", some ["de"]⟩] ∧
      ¬ (plan ["", "fr"]).titleVariants <+: (plan (["", "fr"] ++ ["de"])).titleVariants := by
  intro p b plan normal
  have shorter : (plan ["", "fr"]).titleVariants = [⟨"Dune", "Dune", some [""]⟩] := by
    decide +kernel
  have longer : (plan (["", "fr"] ++ ["de"])).titleVariants =
      [⟨"Der Wüstenplanet", "Der Wüstenplanet", some ["de"]⟩] := by decide +kernel
  refine ⟨by decide +kernel, by decide +kernel, ⟨"", by decide, by decide +kernel⟩, shorter,
    longer, ?_⟩
  rw [shorter, longer]
  decide

end ReleaseSearch.Planner
