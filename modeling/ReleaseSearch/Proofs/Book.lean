import ReleaseSearch.Book
import ReleaseSearch.Proofs.Language
import ReleaseSearch.Proofs.Simplifier

/-! The titles and the author that a book is searched by are tidy, the titles as long as the book's
own title is not blank. Terms that are not set are filled from the simplifier. A language that is
declared is in normal form. -/
namespace ReleaseSearch.Book
open Text

theorem tidy_searchTitle {b : Book} {title : String} (h : b.searchTitle? = some title) :
    Tidy title := tidy_of_bind_nonBlank h

theorem tidy_titleIn {b : Book} {language title : String} (h : b.titleIn language = some title) :
    Tidy title := tidy_of_bind_nonBlank h

theorem tidy_primarySearchTitle {b : Book} (named : trim b.title ≠ "") :
    Tidy b.primarySearchTitle := by
  unfold primarySearchTitle
  cases h : b.searchTitle? with
  | none => exact tidy_trim named
  | some title => exact tidy_searchTitle h

theorem tidy_primaryTitleIn {b : Book} (named : trim b.title ≠ "") (language : String) :
    Tidy (b.primaryTitleIn language) := by
  unfold primaryTitleIn
  cases search : b.searchTitle? with
  | some title => exact tidy_searchTitle search
  | none =>
    cases edition : b.titleIn language with
    | some title => exact tidy_titleIn edition
    | none => exact tidy_trim named

theorem tidy_primarySearchAuthor {b : Book} {author : String}
    (h : b.primarySearchAuthor = some author) : Tidy author := by
  rcases Option.or_eq_some_iff.mp h with h | ⟨_, h⟩
  · exact tidy_of_bind_nonBlank h
  · exact tidy_of_bind_nonBlank h

theorem declaredLanguage?_normal {b : Book} {code : String} (h : b.declaredLanguage? = some code) :
    Language.normalize code = code ∧ code ≠ "" := by
  obtain ⟨known, filled⟩ := Option.filter_eq_some_iff.mp h
  obtain ⟨raw, _, rfl⟩ := Option.map_eq_some_iff.mp known
  exact ⟨Language.normalize_normalize raw, by simpa using filled⟩

/-- Search terms that are there stay, so filling them again changes nothing. -/
theorem withSearchTerms_withSearchTerms (b : Book) (s : Simplifier) :
    (b.withSearchTerms s).withSearchTerms s = b.withSearchTerms s := by
  simp only [withSearchTerms, Option.or_assoc, Option.or_self]

variable {b : Book} {s : Simplifier}

theorem primarySearchTitle_of_unset (unset : b.searchTitle = none) :
    (b.withSearchTerms s).primarySearchTitle =
      trim ((s.simplifyTitle b.title b.subtitle b.seriesName).textOr b.title) := by
  have improves := s.improves_simplifyTitle b.title b.subtitle b.seriesName
  unfold primarySearchTitle searchTitle? withSearchTerms
  dsimp only
  rw [unset, Option.none_or]
  cases outcome : s.simplifyTitle b.title b.subtitle b.seriesName with
  | unchanged => rfl
  | simplified text =>
    rw [outcome] at improves
    obtain ⟨tidy, _⟩ := improves text rfl
    rw [Outcome.toOption, Option.bind_some, tidy.nonBlank_eq, Outcome.textOr, Outcome.toOption,
      Option.getD_some, Option.getD_some, trim_of_trimmed tidy.trimmed]

theorem primarySearchAuthor_of_unset (unset : b.searchAuthor = none) {author : String}
    (first : b.authors.head? = some author) :
    (b.withSearchTerms s).primarySearchAuthor =
      nonBlank ((s.simplifyAuthor author).textOr author) := by
  have improves := s.improves_simplifyAuthor author
  unfold primarySearchAuthor withSearchTerms
  dsimp only
  rw [unset, Option.none_or, first, Option.bind_some, Option.bind_some]
  cases outcome : s.simplifyAuthor author with
  | unchanged => rfl
  | simplified text =>
    rw [outcome] at improves
    obtain ⟨tidy, _⟩ := improves text rfl
    rw [Outcome.toOption, Option.bind_some, Outcome.textOr, Outcome.toOption, Option.getD_some,
      tidy.nonBlank_eq, Option.some_or]

/-- The author of a search is the simplified first author, or this one as it is, unless it is
blank. -/
theorem primarySearchAuthor_of_first (unset : b.searchAuthor = none) :
    (b.withSearchTerms s).primarySearchAuthor = b.authors.head?.bind fun author =>
      if trim author = "" then none
      else some ((s.simplifyAuthor author).toOption.getD (trim author)) := by
  cases first : b.authors.head? with
  | none =>
    unfold primarySearchAuthor withSearchTerms
    dsimp only
    rw [unset, first]
    rfl
  | some author =>
    have improves := s.improves_simplifyAuthor author
    have filled : (s.simplifyAuthor author).toOption.getD (trim author) = "" ↔
        trim author = "" := by
      constructor
      · intro empty
        cases outcome : s.simplifyAuthor author with
        | unchanged =>
          rw [outcome] at empty
          exact empty
        | simplified text =>
          rw [outcome] at empty improves
          exact absurd empty (improves text rfl).1.ne_empty
      · intro blank
        rw [s.simplifyAuthor_of_blank blank]
        exact blank
    rw [primarySearchAuthor_of_unset unset first, nonBlank, improves.trim_textOr, Option.bind_some]
    simp only [filled]

theorem titleIn_of_no_editions (none_known : b.titlesByLanguage = Assoc.empty) (language : String) :
    b.titleIn language = none := by
  rw [titleIn, none_known]
  rfl

theorem primaryTitleIn_of_missing {language : String} (missing : b.titleIn language = none) :
    b.primaryTitleIn language = b.primarySearchTitle := by
  rw [primaryTitleIn, missing, Option.or_none, primarySearchTitle]

/-- A blank search title keeps the title as it is written. -/
theorem primarySearchTitle_of_blank {term : String} (set : b.searchTitle = some term)
    (blank : trim term = "") : (b.withSearchTerms s).primarySearchTitle = trim b.title := by
  unfold primarySearchTitle searchTitle? withSearchTerms
  dsimp only
  rw [set, Option.some_or, Option.bind_some, nonBlank, if_pos blank, Option.getD_none]

theorem primarySearchAuthor_of_blank {term : String} (set : b.searchAuthor = some term)
    (blank : trim term = "") :
    (b.withSearchTerms s).primarySearchAuthor = b.authors.head?.bind nonBlank := by
  unfold primarySearchAuthor withSearchTerms
  dsimp only
  rw [set, Option.some_or, Option.bind_some, nonBlank, if_pos blank, Option.none_or]

end ReleaseSearch.Book
