import ReleaseSearch.Proofs.Editions
import ReleaseSearch.Proofs.Planner.BlankTerms
import ReleaseSearch.Proofs.Text.Padding

/-! What no plan depends on: the subtitle, the series and the further authors of a book, its titles in
languages that a search neither asks for nor falls back to, and whether a text that is blank is there
at all. A query that the caller wrote leaves nothing of the book to depend on. -/
namespace ReleaseSearch

open Text

namespace Text

variable {α : Type} {f : String → Option α}

/-- A reader that finds nothing in a blank text cannot tell it from one that is not there. -/
theorem bind_unlessBlank (nothing : ∀ text, trim text = "" → f text = none)
    (term : Option String) : (unlessBlank term).bind f = term.bind f := by
  cases term with
  | none => rfl
  | some text =>
    by_cases blank : trim text = ""
    · rw [unlessBlank_some_of_blank blank, Option.bind_some, nothing text blank]
      rfl
    · rw [unlessBlank, Option.filter_some, if_pos (by simpa using blank)]

theorem bind_eq_of_unlessBlank (nothing : ∀ text, trim text = "" → f text = none)
    {term other : Option String} (same : unlessBlank term = unlessBlank other) :
    term.bind f = other.bind f := by
  rw [← bind_unlessBlank nothing term, same, bind_unlessBlank nothing other]

end Text

theorem Isbn.normalize?_of_blank {text : String} (blank : trim text = "") :
    normalize? text = none := by
  have spaces : Respaced text "" := respaced_iff.mpr blank
  rw [spaces.isbn_eq]
  rfl

namespace Planner

/-- Two books that differ only in what a search in these languages does not read. One without
restriction reads no titles of editions at all. -/
structure DifferUnread (p : Planner) (languages : Option (List String)) (b c : Book) : Prop where
  title : b.title = c.title
  searchTitle : unlessBlank b.searchTitle = unlessBlank c.searchTitle
  firstAuthor : b.authors.head? = c.authors.head?
  searchAuthor : unlessBlank b.searchAuthor = unlessBlank c.searchAuthor
  primaryLanguage : unlessBlank b.primaryLanguage = unlessBlank c.primaryLanguage
  isbn13 : unlessBlank b.isbn13 = unlessBlank c.isbn13
  isbn10 : unlessBlank b.isbn10 = unlessBlank c.isbn10
  editions : ∀ codes ∈ languages, ∀ code, code ∈ codes ∨ code = p.primaryLanguageOf c →
    b.titlesByLanguage.entriesFor code = c.titlesByLanguage.entriesFor code

namespace DifferUnread

variable {p : Planner} {languages : Option (List String)} {b c : Book}
  (same : p.DifferUnread languages b c)
include same

theorem searchTitle? : b.searchTitle? = c.searchTitle? :=
  bind_eq_of_unlessBlank (fun _ => nonBlank_of_blank) same.searchTitle

theorem primarySearchAuthor : b.primarySearchAuthor = c.primarySearchAuthor := by
  have term : b.searchAuthor.bind nonBlank = c.searchAuthor.bind nonBlank :=
    bind_eq_of_unlessBlank (fun _ => nonBlank_of_blank) same.searchAuthor
  rw [Book.primarySearchAuthor, Book.primarySearchAuthor, term, same.firstAuthor]

theorem declaredLanguage? : b.declaredLanguage? = c.declaredLanguage? := by
  -- A declared language is normalized before it is filtered: written as one reader, it finds nothing
  -- in a blank code.
  have read : ∀ book : Book, book.declaredLanguage? = book.primaryLanguage.bind fun code =>
      (some (Language.normalize code)).filter (· ≠ "") := by
    intro book
    rw [Book.declaredLanguage?]
    cases book.primaryLanguage with
    | none => rfl
    | some code => rw [Option.map_some, Option.bind_some]
  rw [read, read]
  refine bind_eq_of_unlessBlank (fun code blank => ?_) same.primaryLanguage
  rw [(Language.normalize_eq_empty_iff code).mpr blank, Option.filter_some, if_neg (by decide)]

theorem isbnCandidates : isbnCandidates b = isbnCandidates c := by
  have long := bind_eq_of_unlessBlank (fun _ => Isbn.normalize?_of_blank) same.isbn13
  have short := bind_eq_of_unlessBlank (fun _ => Isbn.normalize?_of_blank) same.isbn10
  rw [Planner.isbnCandidates, Planner.isbnCandidates, long, short]

/-- The search cannot tell the two books apart. -/
theorem sameSearch : p.SameSearch languages b c := by
  refine ⟨same.searchTitle?, ?_, same.primarySearchAuthor, ?_, same.isbnCandidates, ?_⟩
  · rw [Book.primarySearchTitle, Book.primarySearchTitle, same.searchTitle?, same.title]
  · rw [primaryLanguageOf, primaryLanguageOf, same.declaredLanguage?]
  · intro codes resolved code read
    exact congrArg (·.bind nonBlank)
      (Editions.find?_congr (same.editions codes resolved code read))

end DifferUnread

/-- Without a query of the caller's own, books that look the same to a search have one plan, and
books that differ in what it does not read look the same. With one, all books have the same plan,
which sends that query as it is. -/
theorem plan_reads (p : Planner) (selection : Selection) (manualQuery : Option String) :
    ((∀ query ∈ manualQuery, trim query = "") → ∀ b c,
      (p.SameSearch (p.resolve selection) b c →
        p.plan b selection manualQuery = p.plan c selection manualQuery) ∧
      (p.DifferUnread (p.resolve selection) b c →
        p.plan b selection manualQuery = p.plan c selection manualQuery)) ∧
    ∀ query ∈ manualQuery, trim query ≠ "" → ∀ b c,
      let plan := p.plan b selection manualQuery
      plan = p.plan c selection manualQuery ∧
        (∀ strategy, plan.textQueries strategy = [⟨query, none⟩]) ∧
        plan.isbnCandidates = [] ∧ plan.languages = (p.plan c selection none).languages := by
  constructor
  · intro _ b c
    exact ⟨fun same => plan_congr same manualQuery,
      fun same => plan_congr same.sameSearch manualQuery⟩
  · rintro query given filled b c plan
    cases Option.mem_def.mp given
    have manual : ∀ book, p.plan book selection (some query) =
        manualPlan query (p.resolve selection) := fun book => p.plan_of_query book selection filled
    have plan_eq : plan = manualPlan query (p.resolve selection) := manual b
    rw [plan_eq, manual c]
    refine ⟨rfl, fun strategy => ?_, rfl, rfl⟩
    cases strategy <;> rfl

theorem plan_reads_little :
    let p := ofDefaults ["en"] "en"
    let b : Book :=
      { title := "Dune"
        subtitle := some "A Novel"
        searchTitle := some " "
        authors := ["Frank Herbert", "Brian Herbert"]
        titlesByLanguage := Assoc.ofList [("fr", "Dune (fr)"), ("HU", "A Dűne")]
        primaryLanguage := some ""
        isbn10 := some "0441013597" }
    let c : Book :=
      { title := "Dune"
        seriesName := some "Dune Chronicles"
        authors := ["Frank Herbert"]
        searchAuthor := some "  "
        titlesByLanguage := Assoc.ofList [("HU", "A Dűne"), ("de", "Der Wüstenplanet")]
        isbn13 := some " "
        isbn10 := some "0441013597" }
    let selection := Selection.explicit ["hu"]
    (∀ query ∈ some " ", trim query = "") ∧ p.DifferUnread (p.resolve selection) b c ∧
      p.plan b selection (some " ") = p.plan c selection (some " ") ∧
      trim "dune epub" ≠ "" ∧
      p.plan b selection (some "dune epub") = p.plan c selection (some "dune epub") ∧
      ∀ strategy, (p.plan b selection (some "dune epub")).textQueries strategy =
        [⟨"dune epub", none⟩] := by
  intro p b c selection
  have blank : ∀ query ∈ some " ", trim query = "" := by decide
  have filled : trim "dune epub" ≠ "" := by decide
  have resolved : p.resolve selection = some ["hu"] := by decide +kernel
  have unread : p.DifferUnread (p.resolve selection) b c := by
    refine ⟨rfl, by decide, rfl, by decide, by decide, by decide, by decide, ?_⟩
    rw [resolved]
    intro codes given code read
    cases Option.mem_some.mp given
    rcases read with asked | rfl
    · cases List.mem_singleton.mp asked
      decide +kernel
    · decide +kernel
  obtain ⟨same, sent, _⟩ :=
    (plan_reads p selection (some "dune epub")).2 "dune epub" rfl filled b c
  exact ⟨blank, unread, ((plan_reads p selection (some " ")).1 blank b c).2 unread, filled, same,
    sent⟩

end Planner

end ReleaseSearch
