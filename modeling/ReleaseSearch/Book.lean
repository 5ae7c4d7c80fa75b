import ReleaseSearch.Author
import ReleaseSearch.Editions
import ReleaseSearch.Title

/-! Catalog metadata of a book, and the title and author to search for. -/
namespace ReleaseSearch

structure Book where
  title : String
  subtitle : Option String := none
  seriesName : Option String := none
  /-- The simplified title, for the primary language. -/
  searchTitle : Option String := none
  /-- Authors in the order of credit. -/
  authors : List String := []
  /-- The simplified name of the first author. -/
  searchAuthor : Option String := none
  titlesByLanguage : Editions := Assoc.empty
  /-- The language of `title`. -/
  primaryLanguage : Option String := none
  isbn13 : Option String := none
  isbn10 : Option String := none
deriving DecidableEq

namespace Book

def withTitleIn (b : Book) (language title : String) : Book :=
  { b with titlesByLanguage := b.titlesByLanguage.insert (Language.normalize language) title }

def withPrimaryLanguage (b : Book) (language : String) : Book :=
  { b with primaryLanguage := some (Language.normalize language) }

/-- Fills the search terms that are not set. A term that is set stays, even a blank one, and a term
stays unset when there is nothing to improve. -/
def withSearchTerms (b : Book) (s : Simplifier) : Book :=
  { b with
    searchTitle := b.searchTitle.or (s.simplifyTitle b.title b.subtitle b.seriesName).toOption
    searchAuthor := b.searchAuthor.or
      (b.authors.head?.bind fun author => (s.simplifyAuthor author).toOption) }

def searchTitle? (b : Book) : Option String := b.searchTitle.bind Text.nonBlank

/-- The title to search for in the primary language. -/
def primarySearchTitle (b : Book) : String := b.searchTitle?.getD (Text.trim b.title)

/-- The author named in title queries. -/
def primarySearchAuthor (b : Book) : Option String :=
  (b.searchAuthor.bind Text.nonBlank).or (b.authors.head?.bind Text.nonBlank)

/-- The title of the edition in a language, if it is known and not blank. -/
def titleIn (b : Book) (language : String) : Option String :=
  (Editions.find? b.titlesByLanguage language).bind Text.nonBlank

/-- The title to search for when `language` is the primary one. The search title comes before the
title of the edition, which most often is the unsimplified title again. -/
def primaryTitleIn (b : Book) (language : String) : String :=
  (b.searchTitle?.or (b.titleIn language)).getD (Text.trim b.title)

/-- The primary language, normalized, if the book declares one that is not blank. -/
def declaredLanguage? (b : Book) : Option String :=
  (b.primaryLanguage.map Language.normalize).filter (· ≠ "")

end Book

end ReleaseSearch
