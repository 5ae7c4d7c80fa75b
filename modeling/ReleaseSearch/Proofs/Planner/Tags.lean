import ReleaseSearch.Proofs.Config
import ReleaseSearch.Proofs.Planner.Plans
import ReleaseSearch.Proofs.Selection

/-! The languages that plans are tagged with: the ones that were asked for, or the primary language
of the book where none of these has a title. -/
namespace ReleaseSearch

/-- The languages of all variants and groups. -/
def Plan.tags (plan : Plan) : List String :=
  plan.titleVariants.flatMap (fun v => v.languages.getD []) ++
    plan.groupedTitleVariants.flatMap (fun g => g.languages.getD [])

namespace Planner

variable (p : Planner) (b : Book)

theorem tag_of_variantFor? {language : String} {v : Variant}
    (h : p.variantFor? b language = some v) : v.languages = some [language] := by
  obtain ⟨title, _, rfl⟩ := (p.variantFor?_eq_some_iff b language v).mp h
  rfl

theorem tag_of_mem_languageVariants {codes : List String} {v : Variant}
    (h : v ∈ p.languageVariants b codes) :
    ∃ language, v.languages = some [language] ∧
      (language ∈ codes ∨ language = p.primaryLanguageOf b) := by
  rcases p.languageVariants_cases b codes with ⟨_, eq⟩ | eq
  · rw [eq] at h
    obtain ⟨language, member, found⟩ := p.mem_requestedVariants b h
    exact ⟨language, p.tag_of_variantFor? b found, Or.inl member⟩
  · rw [eq] at h
    exact ⟨_, p.tag_of_variantFor? b (Option.mem_toList.mp h), Or.inr rfl⟩

theorem tags_derivedPlan (languages : Option (List String)) :
    let tags := (p.derivedPlan b languages).titleVariants.flatMap fun v => v.languages.getD []
    (p.derivedPlan b languages).tags = tags ++ tags := by
  intro tags
  rw [Plan.tags, groups_derivedPlan, List.flatMap_map]

/-- A plan is tagged with languages that its search resolves to, or with the primary one. -/
theorem mem_tags_plan {selection : Selection} {manualQuery : Option String} {tag : String}
    (h : tag ∈ (p.plan b selection manualQuery).tags) :
    ∃ codes, p.resolve selection = some codes ∧ (tag ∈ codes ∨ tag = p.primaryLanguageOf b) := by
  rcases p.plan_cases b selection manualQuery with ⟨query, _, eq⟩ | eq
  · rw [eq] at h
    cases h
  · rw [eq, tags_derivedPlan, List.mem_append, or_self, List.mem_flatMap] at h
    obtain ⟨v, hv, member⟩ := h
    cases resolved : p.resolve selection with
    | none =>
      rw [resolved] at hv
      cases List.mem_singleton.mp hv
      cases member
    | some codes =>
      rw [resolved] at hv
      obtain ⟨language, tagged, asked⟩ := p.tag_of_mem_languageVariants b hv
      rw [tagged] at member
      cases List.mem_singleton.mp member
      exact ⟨codes, rfl, asked⟩

end Planner

namespace Config

/-- A configuration that passes the check gives a simplifier and a planner, and whatever this plans
is tagged with codes in normal form. -/
theorem accepted_components (c : Config) (valid : c.validate = .ok ()) :
    let p := c.planner
    let isNormal := fun code : String => Text.trim code ≠ "" ∧ Text.lower (Text.trim code) = code
    (∃ s, Simplifier.ofRules c.simplifier = .ok s ∧ s.rules = c.simplifier) ∧
    (p.defaultLanguages = none ↔
      ∃ code ∈ c.search.defaultLanguages, Text.lower (Text.trim code) = "all") ∧
    (∀ codes, p.defaultLanguages = some codes →
      codes ≠ [] ∧ codes.Nodup ∧ ∀ code ∈ codes, isNormal code) ∧
    (isNormal p.primaryLanguage ∧ p.primaryLanguage ≠ "all") ∧
    ∀ b selection manualQuery, ∀ tag ∈ (p.plan b selection manualQuery).tags,
      isNormal tag ∧ (tag = "all" →
        ∃ language, b.primaryLanguage = some language ∧ Text.lower (Text.trim language) = "all") := by
  intro p isNormal
  have accepted := accepted_of_validate valid
  have normal_of : ∀ code, Language.normalize code = code → code ≠ "" → isNormal code := by
    intro code normal filled
    refine ⟨fun blank => filled ?_, normal⟩
    rw [← normal]
    exact (Language.normalize_eq_empty_iff code).mpr blank
  refine ⟨accepted.exists_simplifier, accepted.defaultLanguages_eq_none_iff, ?_, ?_, ?_⟩
  · intro codes known
    obtain ⟨canonical, filled⟩ := Planner.canonical_defaults known
    exact ⟨filled, canonical.nodup, fun code member =>
      normal_of code (canonical.normal code member) (canonical.nonempty code member)⟩
  · exact ⟨normal_of _ (Language.normalize_normalize _) accepted.primary_filled,
      accepted.primary_ne_all⟩
  · intro b selection manualQuery tag tagged
    obtain ⟨codes, resolved, asked | rfl⟩ := p.mem_tags_plan b tagged
    · obtain ⟨canonical, _⟩ := Planner.canonical_resolve resolved
      refine ⟨normal_of tag (canonical.normal tag asked) (canonical.nonempty tag asked), ?_⟩
      rintro rfl
      exact absurd asked canonical.restricted
    · obtain ⟨normal, filled, declared⟩ := accepted.primaryLanguageOf b
      refine ⟨normal_of _ normal filled, fun all => ?_⟩
      obtain ⟨known, _⟩ := Option.filter_eq_some_iff.mp (declared all)
      exact Option.map_eq_some_iff.mp known

theorem accepted_components_fallback :
    let c : Config := { search := { defaultLanguages := [" HU", "en", "hu "], primaryLanguage := "EN" } }
    let b : Book := { title := "Dune", primaryLanguage := some " ALL" }
    c.validate = .ok () ∧ c.planner.defaultLanguages = some ["hu", "en"] ∧
      (c.planner.plan b (.explicit ["fr"]) none).tags = ["all", "all"] ∧
      ∃ language, b.primaryLanguage = some language ∧ Text.lower (Text.trim language) = "all" := by
  intro c b
  have valid : c.validate = .ok () := by decide +kernel
  have tags : (c.planner.plan b (.explicit ["fr"]) none).tags = ["all", "all"] := by decide +kernel
  have facts := accepted_components c valid
  refine ⟨valid, by decide +kernel, tags, ?_⟩
  exact (facts.2.2.2.2 b (.explicit ["fr"]) none "all" (by rw [tags]; simp)).2 rfl

end Config

end ReleaseSearch
