import ReleaseSearch.Book
import ReleaseSearch.Isbn
import ReleaseSearch.Plan
import ReleaseSearch.Selection

/-! Planning the search for a book. -/
namespace ReleaseSearch

structure Planner where
  /-- The languages of a search that names none; absent when such a search is not restricted. -/
  defaultLanguages : Option (List String)
  /-- The language of books that declare none. -/
  primaryLanguage : String
deriving DecidableEq

namespace Planner

/-- An empty list of defaults, or one that holds `all`, leaves the default search unrestricted. -/
def ofDefaults (defaultLanguages : List String) (primaryLanguage : String) : Planner where
  defaultLanguages := (Language.normalizeAll defaultLanguages).filter (· ≠ [])
  primaryLanguage := Language.normalize primaryLanguage

/-- The order of preference of a selection; absent when the search is not restricted. -/
def resolve (p : Planner) : Selection → Option (List String)
  | .all => none
  | .default => p.defaultLanguages
  | .explicit codes =>
    match Language.normalizeAll codes with
    | none => none
    | some [] => p.defaultLanguages
    | some codes => some codes

/-- The language of the book's main title. -/
def primaryLanguageOf (p : Planner) (b : Book) : String :=
  b.declaredLanguage?.getD p.primaryLanguage

/-- The title to search for in a requested language. -/
def titleFor? (p : Planner) (b : Book) (language : String) : Option String :=
  if language = p.primaryLanguageOf b then some (b.primaryTitleIn language)
  else b.titleIn language

/-- Puts a variant behind the others, unless its query is there already. -/
def addVariant (variants : List Variant) (v : Variant) : List Variant :=
  if variants.any (·.query == v.query) then variants else variants ++ [v]

/-- One variant for each requested language that has a title; a query that repeats is left out. -/
def requestedVariants (p : Planner) (b : Book) (languages : List String) : List Variant :=
  (languages.filterMap fun language =>
    (p.titleFor? b language).map fun title =>
      Variant.ofTitle title b.primarySearchAuthor (some [language])).foldl addVariant []

/-- The requested variants, or the primary title when no requested language has a title. -/
def languageVariants (p : Planner) (b : Book) (languages : List String) : List Variant :=
  match p.requestedVariants b languages with
  | [] =>
    let primary := p.primaryLanguageOf b
    [Variant.ofTitle (b.primaryTitleIn primary) b.primarySearchAuthor (some [primary])]
  | variants => variants

/-- Identifier queries: the long number before the short one, each once. -/
def isbnCandidates (b : Book) : List String :=
  let long := (b.isbn13.bind Isbn.normalize?).toList
  let short := (b.isbn10.bind Isbn.normalize?).toList
  long ++ short.filter fun isbn => !long.contains isbn

/-- A plan of one query, which the caller wrote. -/
def manualPlan (query : String) (languages : Option (List String)) : Plan where
  languages := languages
  isbnCandidates := []
  manualQuery := some query
  titleVariants := [Variant.ofTitle query none none]
  groupedTitleVariants := [⟨query, none⟩]

/-- A plan from what is known of the book. -/
def derivedPlan (p : Planner) (b : Book) (languages : Option (List String)) : Plan :=
  let author := b.primarySearchAuthor
  let variants := match languages with
    | none => [Variant.ofTitle b.primarySearchTitle author none]
    | some codes => p.languageVariants b codes
  { languages := languages
    isbnCandidates := isbnCandidates b
    author := author
    titleVariants := variants
    groupedTitleVariants := Plan.groupVariants variants }

/-- The plan for a book. A query of the caller's own that is not blank takes the place of all
others; the languages are resolved all the same, so that results can be filtered by them. -/
def plan (p : Planner) (b : Book) (selection : Selection) (manualQuery : Option String) : Plan :=
  let languages := p.resolve selection
  match manualQuery.filter fun query => Text.trim query ≠ "" with
  | some query => manualPlan query languages
  | none => p.derivedPlan b languages

end Planner

end ReleaseSearch
