import ReleaseSearch.Proofs.Planner.Dependence

/-! Search terms that are set but blank. A search never uses one, yet it keeps the term from being
filled, so the plan is that of the unset term only when there was nothing to improve. -/
namespace ReleaseSearch

open Text

/-- A search term, none when it is blank. -/
def Text.unlessBlank (term : Option String) : Option String := term.filter (trim · ≠ "")

theorem Text.unlessBlank_some_of_blank {text : String} (blank : trim text = "") :
    unlessBlank (some text) = none := by
  rw [unlessBlank, Option.filter_some, if_neg (by simpa using blank)]

/-- Dropping a blank term changes nothing when no other text takes its place. -/
theorem Text.bind_nonBlank_unlessBlank {term other : Option String}
    (h : ∀ text ∈ term, trim text = "" → other = none) :
    ((unlessBlank term).or other).bind nonBlank = (term.or other).bind nonBlank := by
  cases term with
  | none => rfl
  | some text =>
    by_cases blank : trim text = ""
    · rw [unlessBlank_some_of_blank blank, h text rfl blank, Option.some_or, Option.bind_some,
        nonBlank, if_pos blank]
      rfl
    · rw [unlessBlank, Option.filter_some, if_pos (by simpa using blank)]

namespace Book

/-- The book without those search terms that are blank. -/
def withoutBlankTerms (b : Book) : Book :=
  { b with
    searchTitle := unlessBlank b.searchTitle
    searchAuthor := unlessBlank b.searchAuthor }

/-- No term of the book is blank where the simplifier would fill it. -/
structure BlankTermsIdle (b : Book) (s : Simplifier) : Prop where
  title : ∀ term ∈ b.searchTitle, trim term = "" →
    s.simplifyTitle b.title b.subtitle b.seriesName = .unchanged
  author : ∀ term ∈ b.searchAuthor, trim term = "" →
    ∀ author ∈ b.authors.head?, s.simplifyAuthor author = .unchanged

variable {b : Book} {s : Simplifier}

theorem BlankTermsIdle.searchTitle? (idle : b.BlankTermsIdle s) :
    (b.withSearchTerms s).searchTitle? = (b.withoutBlankTerms.withSearchTerms s).searchTitle? := by
  refine (bind_nonBlank_unlessBlank fun term set blank => ?_).symm
  rw [Outcome.toOption_eq_none_iff]
  exact idle.title term set blank

theorem BlankTermsIdle.primarySearchAuthor (idle : b.BlankTermsIdle s) :
    (b.withSearchTerms s).primarySearchAuthor =
      (b.withoutBlankTerms.withSearchTerms s).primarySearchAuthor := by
  refine congrArg (Option.or · (b.authors.head?.bind nonBlank)) ?_
  refine (bind_nonBlank_unlessBlank fun term set blank => ?_).symm
  rw [Option.bind_eq_none_iff]
  intro author first
  rw [Outcome.toOption_eq_none_iff]
  exact idle.author term set blank author first

theorem unchanged_of_same_title {term : String} (set : b.searchTitle = some term)
    (blank : trim term = "") (same : (b.withSearchTerms s).primarySearchTitle =
      (b.withoutBlankTerms.withSearchTerms s).primarySearchTitle) :
    s.simplifyTitle b.title b.subtitle b.seriesName = .unchanged := by
  have unset : b.withoutBlankTerms.searchTitle = none := by
    rw [withoutBlankTerms, set, unlessBlank_some_of_blank blank]
  rw [primarySearchTitle_of_blank set blank, primarySearchTitle_of_unset unset] at same
  exact (s.improves_simplifyTitle b.title b.subtitle b.seriesName).trim_textOr_eq_iff.mp same.symm

theorem unchanged_of_same_author {term : String} (set : b.searchAuthor = some term)
    (blank : trim term = "") (same : (b.withSearchTerms s).primarySearchAuthor =
      (b.withoutBlankTerms.withSearchTerms s).primarySearchAuthor)
    {author : String} (first : b.authors.head? = some author) :
    s.simplifyAuthor author = .unchanged := by
  have unset : b.withoutBlankTerms.searchAuthor = none := by
    rw [withoutBlankTerms, set, unlessBlank_some_of_blank blank]
  rw [primarySearchAuthor_of_blank set blank, primarySearchAuthor_of_unset unset first, first,
    Option.bind_some, nonBlank_eq_nonBlank_iff] at same
  exact (s.improves_simplifyAuthor author).trim_textOr_eq_iff.mp same.symm

theorem blankTermsIdle_of_same
    (title : (b.withSearchTerms s).primarySearchTitle =
      (b.withoutBlankTerms.withSearchTerms s).primarySearchTitle)
    (author : (b.withSearchTerms s).primarySearchAuthor =
      (b.withoutBlankTerms.withSearchTerms s).primarySearchAuthor) : b.BlankTermsIdle s :=
  ⟨fun _ set blank => unchanged_of_same_title set blank title,
    fun _ set blank _ first => unchanged_of_same_author set blank author first⟩

end Book

namespace Planner

variable {p : Planner} {b : Book} {s : Simplifier}

theorem sameSearch_withoutBlankTerms (idle : b.BlankTermsIdle s)
    (languages : Option (List String)) :
    p.SameSearch languages (b.withSearchTerms s) (b.withoutBlankTerms.withSearchTerms s) := by
  refine ⟨idle.searchTitle?, ?_, idle.primarySearchAuthor, rfl, rfl, fun _ _ _ _ => rfl⟩
  exact congrArg (·.getD (trim b.title)) idle.searchTitle?

/-- A plan without restriction shows the title and the author that are searched for. -/
theorem searched_of_plan_all {b c : Book} (same : p.plan b .all none = p.plan c .all none) :
    b.primarySearchTitle = c.primarySearchTitle ∧
      b.primarySearchAuthor = c.primarySearchAuthor := by
  have variants := congrArg Plan.titleVariants same
  have titles := congrArg Variant.title (List.cons.inj variants).1
  exact ⟨titles, congrArg Plan.author same⟩

/-- Dropping the blank search terms of a book keeps all its plans exactly when the simplifier would
not fill them. -/
theorem plan_withoutBlankTerms_iff (p : Planner) (s : Simplifier) (b : Book) :
    (∀ selection manualQuery, p.plan (b.withSearchTerms s) selection manualQuery =
      p.plan (b.withoutBlankTerms.withSearchTerms s) selection manualQuery) ↔
        b.BlankTermsIdle s := by
  constructor
  · intro same
    obtain ⟨title, author⟩ := searched_of_plan_all (same .all none)
    exact Book.blankTermsIdle_of_same title author
  · intro idle selection manualQuery
    exact plan_congr (sameSearch_withoutBlankTerms idle _) manualQuery

/-- A blank search title keeps the annotation of a title, which no search title would drop. -/
theorem plan_blank_search_title :
    let p := ofDefaults ["en"] "en"
    let b : Book := { title := "The Martian (Unabridged)", searchTitle := some " " }
    let kept := p.plan (b.withSearchTerms .standard) .default none
    let dropped := p.plan (b.withoutBlankTerms.withSearchTerms .standard) .default none
    kept.titleVariants = [⟨"The Martian (Unabridged)", "The Martian (Unabridged)", some ["en"]⟩] ∧
      dropped.titleVariants = [⟨"The Martian", "The Martian", some ["en"]⟩] ∧
      kept ≠ dropped := by
  intro p b kept dropped
  have annotated : kept.titleVariants =
      [⟨"The Martian (Unabridged)", "The Martian (Unabridged)", some ["en"]⟩] := by decide +kernel
  have plain : dropped.titleVariants = [⟨"The Martian", "The Martian", some ["en"]⟩] := by
    decide +kernel
  refine ⟨annotated, plain, fun same => ?_⟩
  rw [same, plain] at annotated
  exact absurd annotated (by decide)

end Planner

end ReleaseSearch
