import ReleaseSearch.Proofs.Editions
import ReleaseSearch.Proofs.Planner.CodeLists
import ReleaseSearch.Proofs.Planner.Dependence

/-! A title that becomes known in one more language. A search that does not ask for the language is
the same as before. In one that does, the title is searched for besides the others, or in place of
the primary title where that only stood in for them. -/
namespace ReleaseSearch

section OtherLanguages

variable (p : Planner) (b : Book) {language title code : String}
  (normal : Language.normalize code = code) (other : code ≠ Language.normalize language)
include normal other

theorem Book.titleIn_withTitleIn_other :
    (b.withTitleIn language title).titleIn code = b.titleIn code := by
  rw [titleIn_withTitleIn, if_neg]
  rwa [normal]

theorem Planner.titleFor?_withTitleIn_other :
    p.titleFor? (b.withTitleIn language title) code = p.titleFor? b code := by
  have titled : (b.withTitleIn language title).titleIn code = b.titleIn code :=
    b.titleIn_withTitleIn_other normal other
  by_cases own : code = p.primaryLanguageOf b
  · subst own
    have kept : (b.withTitleIn language title).primaryTitleIn (p.primaryLanguageOf b) =
        b.primaryTitleIn (p.primaryLanguageOf b) := Book.primaryTitleIn_congr rfl rfl titled
    exact (p.titleFor?_primary _).trans ((congrArg some kept).trans (p.titleFor?_primary b).symm)
  · have own' : code ≠ p.primaryLanguageOf (b.withTitleIn language title) := own
    rw [titleFor?, titleFor?, if_neg own, if_neg own', titled]

theorem Planner.variantFor?_withTitleIn_other :
    p.variantFor? (b.withTitleIn language title) code = p.variantFor? b code := by
  rw [variantFor?, variantFor?, p.titleFor?_withTitleIn_other b normal other]
  rfl

end OtherLanguages

namespace Planner

/-- A title for a language in which the book has none and which is not its own. -/
structure NewTitle (p : Planner) (b : Book) (language title : String) : Prop where
  own_normal : Language.normalize (p.primaryLanguageOf b) = p.primaryLanguageOf b
  foreign : Language.normalize language ≠ p.primaryLanguageOf b
  absent : b.titleIn language = none
  filled : Text.trim title ≠ ""

namespace NewTitle

variable {p : Planner} {b : Book} {language title : String} (new : p.NewTitle b language title)
include new

/-- A search that does not ask for the language reads nothing of the new title. -/
theorem sameSearch {codes : List String} (canonical : Language.Canonical codes)
    (unasked : Language.normalize language ∉ codes) :
    p.SameSearch (some codes) (b.withTitleIn language title) b := by
  refine ⟨rfl, rfl, rfl, rfl, rfl, ?_⟩
  intro _ resolved code asked
  cases Option.mem_some.mp resolved
  rcases asked with asked | rfl
  · apply b.titleIn_withTitleIn_other (canonical.normal code asked)
    rintro rfl
    exact unasked asked
  · exact b.titleIn_withTitleIn_other new.own_normal (Ne.symm new.foreign)

theorem titleFor?_before : p.titleFor? b (Language.normalize language) = none := by
  rw [titleFor?, if_neg new.foreign, b.titleIn_spelling (Language.normalize_normalize language),
    new.absent]

theorem variantFor?_before : p.variantFor? b (Language.normalize language) = none :=
  (p.variantFor?_eq_none_iff b _).mpr new.titleFor?_before

theorem titleFor?_after :
    p.titleFor? (b.withTitleIn language title) (Language.normalize language) =
      some (Text.trim title) := by
  have foreign : Language.normalize language ≠
      p.primaryLanguageOf (b.withTitleIn language title) := new.foreign
  rw [titleFor?, if_neg foreign, Book.titleIn_withTitleIn, if_pos (Language.normalize_normalize _),
    Text.nonBlank, if_neg new.filled]

theorem variantFor?_after :
    p.variantFor? (b.withTitleIn language title) (Language.normalize language) =
      some (Variant.ofTitle (Text.trim title) b.primarySearchAuthor
        (some [Language.normalize language])) := by
  rw [variantFor?, new.titleFor?_after]
  rfl

variable {codes : List String} (asked : Language.normalize language ∈ codes)
include asked

theorem found_after :
    ∃ code ∈ codes, (p.titleFor? (b.withTitleIn language title) code).isSome := by
  refine ⟨_, asked, ?_⟩
  rw [new.titleFor?_after]
  rfl

variable (canonical : Language.Canonical codes)
include canonical

/-- Next to a title that is searched for already, the new one adds its query to the others. -/
theorem mem_queries_of_found (found : ∃ code ∈ codes, (p.titleFor? b code).isSome)
    (query : String) :
    query ∈ (p.languageVariants (b.withTitleIn language title) codes).map Variant.query ↔
      query ∈ (p.languageVariants b codes).map Variant.query ∨
        query = composeQuery (Text.trim title) b.primarySearchAuthor := by
  rw [p.mem_queries_of_found b found, p.mem_queries_of_found _ (new.found_after asked)]
  constructor
  · rintro ⟨code, member, known⟩
    -- Every other language has the variant that it had before.
    by_cases own : code = Language.normalize language
    · subst own
      rw [new.variantFor?_after] at known
      exact Or.inr (Option.some.inj known).symm
    · rw [p.variantFor?_withTitleIn_other b (canonical.normal code member) own] at known
      exact Or.inl ⟨code, member, known⟩
  · rintro (⟨code, member, known⟩ | rfl)
    · have own : code ≠ Language.normalize language := by
        rintro rfl
        rw [new.variantFor?_before] at known
        cases known
      rw [← p.variantFor?_withTitleIn_other b (canonical.normal code member) own] at known
      exact ⟨code, member, known⟩
    · refine ⟨_, asked, ?_⟩
      rw [new.variantFor?_after]
      rfl

/-- Where no other language has a title, the new one is all that is searched for. -/
theorem languageVariants_of_missing (missing : ∀ code ∈ codes, p.titleFor? b code = none) :
    p.languageVariants (b.withTitleIn language title) codes =
      [Variant.ofTitle (Text.trim title) b.primarySearchAuthor
        (some [Language.normalize language])] := by
  apply p.languageVariants_eq_singleton
  intro v member
  rw [p.languageVariants_of_found _ (new.found_after asked)] at member
  obtain ⟨code, listed, known⟩ := p.mem_requestedVariants _ member
  by_cases own : code = Language.normalize language
  · subst own
    rw [new.variantFor?_after] at known
    exact (Option.some.inj known).symm
  · rw [p.variantFor?_withTitleIn_other b (canonical.normal code listed) own,
      (p.variantFor?_eq_none_iff b code).mpr (missing code listed)] at known
    cases known

end NewTitle

/-- A title in a language that is not asked for changes no plan. One in a language that is asked for
adds its query to those of the plan, or, where no language of the search had a title, is the only
one that is left. -/
theorem plan_withTitleIn (defaults : List String) (primary : String) (b : Book)
    (codes : List String) (language title : String) :
    let p := ofDefaults defaults primary
    let normal := fun code : String => Text.lower (Text.trim code)
    let requested := (codes.filter (Text.trim · ≠ "")).map normal
    let plan := fun b : Book => p.plan b (.explicit codes) none
    let added := b.withTitleIn language title
    let query := Text.trim title ++ (b.primarySearchAuthor.map (" " ++ ·)).getD ""
    (∀ code ∈ codes, normal code ≠ "all") → (∃ code ∈ codes, Text.trim code ≠ "") →
    normal language ≠ p.primaryLanguageOf b → b.titleIn language = none → Text.trim title ≠ "" →
      (normal language ∉ requested → plan added = plan b) ∧
      (normal language ∈ requested →
        (∃ code ∈ requested, code = p.primaryLanguageOf b ∨ (b.titleIn code).isSome) →
        ∀ strategy sent, sent ∈ ((plan added).textQueries strategy).map Query.query ↔
          sent ∈ ((plan b).textQueries strategy).map Query.query ∨ sent = query) ∧
      (normal language ∈ requested →
        (∀ code ∈ requested, code ≠ p.primaryLanguageOf b ∧ b.titleIn code = none) →
        ∀ strategy, (plan added).textQueries strategy = [⟨query, some [normal language]⟩]) := by
  intro p normal requested plan added query restricted named foreign absent filled
  have new : p.NewTitle b language title :=
    ⟨normalize_primaryLanguageOf defaults primary b, foreign, absent, filled⟩
  have resolved : p.resolve (.explicit codes) = some requested.eraseDups :=
    p.resolve_of_named restricted named
  obtain ⟨canonical, _⟩ := canonical_resolve resolved
  have planned : ∀ c, plan c = p.derivedPlan c (some requested.eraseDups) :=
    fun c => p.plan_of_named c restricted named
  have composed : composeQuery (Text.trim title) b.primarySearchAuthor = query :=
    composeQuery_author b (Text.trim title)
  refine ⟨fun unasked => ?_, fun asked titled strategy sent => ?_,
    fun asked untitled strategy => ?_⟩
  · rw [planned, planned]
    apply SameSearch.derivedPlan
    apply new.sameSearch canonical
    rwa [List.mem_eraseDups]
  · have found : ∃ code ∈ requested.eraseDups, (p.titleFor? b code).isSome := by
      obtain ⟨code, member, known⟩ := titled
      exact ⟨code, List.mem_eraseDups.mpr member, (p.isSome_titleFor?_iff b code).mpr known⟩
    rw [planned, planned, queries_derivedPlan, queries_derivedPlan, ← composed]
    exact new.mem_queries_of_found (List.mem_eraseDups.mpr asked) canonical found sent
  · have missing : ∀ code ∈ requested.eraseDups, p.titleFor? b code = none :=
      fun code member =>
        (p.titleFor?_eq_none_iff b code).mpr (untitled code (List.mem_eraseDups.mp member))
    have variants : (p.derivedPlan added (some requested.eraseDups)).titleVariants = _ :=
      new.languageVariants_of_missing (List.mem_eraseDups.mpr asked) canonical missing
    rw [planned, textQueries_eq_map, variants, Variant.ofTitle, composed]
    rfl

theorem plan_withTitleIn_blank_before :
    let p := ofDefaults ["en"] "en"
    let normal := fun code : String => Text.lower (Text.trim code)
    let b : Book :=
      { title := "Dune"
        authors := ["Frank Herbert"]
        titlesByLanguage := Assoc.ofList [("HU", " "), ("de", "Der Wüstenplanet")] }
    let codes := [" hu", "", "DE"]
    let added := b.withTitleIn "Hu " " A Dűne "
    (∀ code ∈ codes, normal code ≠ "all") ∧ (∃ code ∈ codes, Text.trim code ≠ "") ∧
      normal "Hu " ≠ p.primaryLanguageOf b ∧ b.titleIn "Hu " = none ∧ Text.trim " A Dűne " ≠ "" ∧
      p.plan added (.explicit ["fr", "de"]) none = p.plan b (.explicit ["fr", "de"]) none ∧
      (∀ strategy sent,
        sent ∈ ((p.plan added (.explicit codes) none).textQueries strategy).map Query.query ↔
          sent ∈ ((p.plan b (.explicit codes) none).textQueries strategy).map Query.query ∨
            sent = "A Dűne Frank Herbert") ∧
      ∀ strategy, (p.plan added (.explicit ["hu", "fr"]) none).textQueries strategy =
        [⟨"A Dűne Frank Herbert", some ["hu"]⟩] := by
  intro p normal b codes added
  have free : ∀ code ∈ codes, normal code ≠ "all" := by decide +kernel
  have named : ∃ code ∈ codes, Text.trim code ≠ "" := ⟨"DE", by decide, by decide⟩
  have foreign : normal "Hu " ≠ p.primaryLanguageOf b := by decide +kernel
  have absent : b.titleIn "Hu " = none := by decide +kernel
  have filled : Text.trim " A Dűne " ≠ "" := by decide
  have other := plan_withTitleIn ["en"] "en" b ["fr", "de"] "Hu " " A Dűne " (by decide +kernel)
    ⟨"de", by decide, by decide⟩ foreign absent filled
  have besides := plan_withTitleIn ["en"] "en" b codes "Hu " " A Dűne " free named foreign absent
    filled
  have alone := plan_withTitleIn ["en"] "en" b ["hu", "fr"] "Hu " " A Dűne " (by decide +kernel)
    ⟨"fr", by decide, by decide⟩ foreign absent filled
  refine ⟨free, named, foreign, absent, filled, other.1 (by decide +kernel), ?_, ?_⟩
  · exact besides.2.1 (by decide +kernel) ⟨"de", by decide +kernel, by decide +kernel⟩
  · exact alone.2.2 (by decide +kernel) (by decide +kernel)

end Planner

end ReleaseSearch
