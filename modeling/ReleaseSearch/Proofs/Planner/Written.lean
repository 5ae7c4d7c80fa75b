import ReleaseSearch.Proofs.Book.Json
import ReleaseSearch.Proofs.Planner.Dependence
import ReleaseSearch.Proofs.Planner.Tags

/-! Plans of books that were written as JSON and read back. Reading brings language codes into
normal form and drops blank ones; a search asks for codes in normal form only, and never for a
blank one. -/
namespace ReleaseSearch

namespace Book

theorem declaredLanguage?_withNormalCodes (b : Book) :
    b.withNormalCodes.declaredLanguage? = b.declaredLanguage? := by
  change (b.declaredLanguage?.map Language.normalize).filter (· ≠ "") = b.declaredLanguage?
  cases declared : b.declaredLanguage? with
  | none => rfl
  | some code =>
    obtain ⟨normal, filled⟩ := declaredLanguage?_normal declared
    rw [Option.map_some, normal, Option.filter_some, if_pos (decide_eq_true filled)]

theorem titleIn_withNormalCodes {b : Book} (distinct : b.titlesByLanguage.Unambiguous)
    {language : String} (named : Language.normalize language ≠ "") :
    b.withNormalCodes.titleIn language = b.titleIn language := by
  rw [titleIn, titleIn]
  exact congrArg (·.bind Text.nonBlank) (Editions.find?_normalized distinct named)

theorem withSearchTerms_withNormalCodes (b : Book) (s : Simplifier) :
    b.withNormalCodes.withSearchTerms s = (b.withSearchTerms s).withNormalCodes := rfl

end Book

namespace Config

variable {c : Config} {b : Book}

theorem Accepted.sameSearch_withNormalCodes (accepted : c.Accepted)
    (distinct : b.titlesByLanguage.Unambiguous) (selection : Selection) :
    c.planner.SameSearch (c.planner.resolve selection) b.withNormalCodes b := by
  refine ⟨rfl, rfl, rfl, ?_, rfl, ?_⟩
  · rw [Planner.primaryLanguageOf, Planner.primaryLanguageOf,
      Book.declaredLanguage?_withNormalCodes]
  · intro codes resolved code asked
    apply Book.titleIn_withNormalCodes distinct
    rcases asked with asked | rfl
    · obtain ⟨canonical, _⟩ := Planner.canonical_resolve resolved
      rw [canonical.normal code asked]
      exact canonical.nonempty code asked
    · obtain ⟨normal, filled, _⟩ := accepted.primaryLanguageOf b
      rw [normal]
      exact filled

theorem Accepted.plan_withNormalCodes (accepted : c.Accepted)
    (distinct : b.titlesByLanguage.Unambiguous) (selection : Selection)
    (manualQuery : Option String) :
    c.planner.plan b.withNormalCodes selection manualQuery =
      c.planner.plan b selection manualQuery :=
  Planner.plan_congr (accepted.sameSearch_withNormalCodes distinct selection) manualQuery

/-- A book that is written as JSON and read back has the plans that it had before, with its search
terms filled or not. -/
theorem plan_written_book (c : Config) (valid : c.validate = .ok ()) (b : Book)
    (distinct : b.titlesByLanguage.Unambiguous) :
    ∃ back, Json.readText Book.ofData b.toJson.render = .ok back ∧
      ∀ selection manualQuery,
        c.planner.plan back selection manualQuery = c.planner.plan b selection manualQuery ∧
        ∀ s : Simplifier, c.planner.plan (back.withSearchTerms s) selection manualQuery =
          c.planner.plan (b.withSearchTerms s) selection manualQuery := by
  have accepted := accepted_of_validate valid
  refine ⟨b.withNormalCodes, b.readText_toJson, fun selection manualQuery => ⟨?_, fun s => ?_⟩⟩
  · exact accepted.plan_withNormalCodes distinct selection manualQuery
  · rw [Book.withSearchTerms_withNormalCodes]
    exact accepted.plan_withNormalCodes (b := b.withSearchTerms s) distinct selection manualQuery

theorem plan_written_book_mixed_codes :
    let c : Config := {}
    let b : Book :=
      { title := "Dune (Deluxe)"
        titlesByLanguage := ⟨[("HU ", " A Dűne "), (" ", "Duna"), ("Fr", "Dune")], by decide⟩
        primaryLanguage := some " DE" }
    c.validate = .ok () ∧ b.titlesByLanguage.Unambiguous ∧
      ∃ back, Json.readText Book.ofData b.toJson.render = .ok back ∧ back ≠ b ∧
        (c.planner.plan (back.withSearchTerms .standard) (.explicit ["hu", "DE"]) none).titleVariants =
          [⟨"A Dűne", "A Dűne", some ["hu"]⟩, ⟨"Dune", "Dune", some ["de"]⟩] := by
  intro c b
  have valid : c.validate = .ok () := by decide +kernel
  have distinct : b.titlesByLanguage.Unambiguous := by decide +kernel
  obtain ⟨back, read, same⟩ := plan_written_book c valid b distinct
  refine ⟨valid, distinct, back, read, ?_, ?_⟩
  · rintro rfl
    rw [b.readText_toJson] at read
    exact absurd (Except.ok.inj read) (by decide +kernel)
  · rw [(same (.explicit ["hu", "DE"]) none).2 .standard]
    decide +kernel

end Config

end ReleaseSearch
