import ReleaseSearch.Proofs.Book
import ReleaseSearch.Proofs.Catalog
import ReleaseSearch.Web.Service

/-! Search terms that several simplifiers fill one after the other, as a provider and the service do.
A term that is set stays, one that is not is the first answer to the book as it was, and nothing else
of the book changes. -/
namespace ReleaseSearch

/-- What becomes of a search term when simplifiers are asked one after the other. -/
inductive FilledInTurn (answer : Simplifier → Outcome) :
    List Simplifier → Option String → Option String → Prop where
  /-- A term that is set stays, even an empty one. -/
  | kept (simplifiers : List Simplifier) (term : String) :
      FilledInTurn answer simplifiers (some term) (some term)
  /-- The first simplifier that improves on the given text fills the term. -/
  | first {before after : List Simplifier} {s : Simplifier} {text : String} :
      (∀ r ∈ before, answer r = .unchanged) → answer s = .simplified text →
        FilledInTurn answer (before ++ s :: after) none (some text)
  | unset {simplifiers : List Simplifier} : (∀ s ∈ simplifiers, answer s = .unchanged) →
      FilledInTurn answer simplifiers none none

namespace FilledInTurn

variable {answer : Simplifier → Outcome} {simplifiers : List Simplifier}
  {before after : Option String}

/-- The relation determines what becomes of the term. -/
theorem iff_eq : FilledInTurn answer simplifiers before after ↔
    after = before.or (simplifiers.findSome? fun s => (answer s).toOption) := by
  constructor
  · intro filled
    cases filled with
    | kept => rfl
    | @first earlier later s text quiet improves =>
      symm
      rw [Option.none_or, List.findSome?_eq_some_iff]
      exact ⟨earlier, s, later, rfl, by rw [improves]; rfl, fun r member => by
        rw [quiet r member]; rfl⟩
    | unset quiet =>
      symm
      rw [Option.none_or, List.findSome?_eq_none_iff]
      intro s member
      rw [quiet s member]
      rfl
  · rintro rfl
    cases before with
    | some term => exact .kept simplifiers term
    | none =>
      rw [Option.none_or]
      cases found : simplifiers.findSome? fun s => (answer s).toOption with
      | none =>
        refine .unset fun s member => ?_
        rw [← Outcome.toOption_eq_none_iff]
        exact List.findSome?_eq_none_iff.mp found s member
      | some text =>
        obtain ⟨earlier, s, later, rfl, improves, quiet⟩ := List.findSome?_eq_some_iff.mp found
        exact .first (fun r member => (Outcome.toOption_eq_none_iff _).mp (quiet r member))
          ((Outcome.toOption_eq_some_iff _ text).mp improves)

/-- Nobody who was asked has anything to add. -/
theorem or_eq (filled : FilledInTurn answer simplifiers before after) {s : Simplifier}
    (asked : s ∈ simplifiers) : after.or (answer s).toOption = after := by
  cases filled with
  | kept => rfl
  | first => rfl
  | unset quiet =>
    rw [quiet s asked]
    rfl

end FilledInTurn

namespace Book

/-- What a simplifier answers to the title, with the subtitle and the series. -/
def titleAnswer (b : Book) (s : Simplifier) : Outcome :=
  s.simplifyTitle b.title b.subtitle b.seriesName

/-- What a simplifier answers to the first author, if there is one. -/
def authorAnswer (b : Book) (s : Simplifier) : Outcome :=
  match b.authors.head? with
  | some author => s.simplifyAuthor author
  | none => .unchanged

theorem withSearchTerms_eq (b : Book) (s : Simplifier) :
    b.withSearchTerms s =
      { b with
        searchTitle := b.searchTitle.or (b.titleAnswer s).toOption
        searchAuthor := b.searchAuthor.or (b.authorAnswer s).toOption } := by
  have author : (b.authorAnswer s).toOption =
      b.authors.head?.bind fun author => (s.simplifyAuthor author).toOption := by
    unfold authorAnswer
    cases b.authors.head? with
    | none => rfl
    | some author => rw [Option.bind_some]
  rw [author]
  rfl

theorem titleAnswer_withSearchTerms (b : Book) (s : Simplifier) :
    (b.withSearchTerms s).titleAnswer = b.titleAnswer := rfl

theorem authorAnswer_withSearchTerms (b : Book) (s : Simplifier) :
    (b.withSearchTerms s).authorAnswer = b.authorAnswer := rfl

/-- Has the search terms filled from simplifiers one after the other. -/
def withSearchTermsOf (b : Book) (simplifiers : List Simplifier) : Book :=
  simplifiers.foldl withSearchTerms b

theorem withSearchTermsOf_append (b : Book) (simplifiers later : List Simplifier) :
    b.withSearchTermsOf (simplifiers ++ later) =
      (b.withSearchTermsOf simplifiers).withSearchTermsOf later := List.foldl_append

/-- No simplifier sees what an earlier one filled in, so each term is the first answer to the book as
it was. -/
theorem withSearchTermsOf_eq (b : Book) (simplifiers : List Simplifier) :
    b.withSearchTermsOf simplifiers =
      { b with
        searchTitle :=
          b.searchTitle.or (simplifiers.findSome? fun s => (b.titleAnswer s).toOption)
        searchAuthor :=
          b.searchAuthor.or (simplifiers.findSome? fun s => (b.authorAnswer s).toOption) } := by
  have ask : ∀ (answer : Simplifier → Outcome) (s : Simplifier) (rest : List Simplifier),
      (s :: rest).findSome? (fun s => (answer s).toOption) =
        (answer s).toOption.or (rest.findSome? fun s => (answer s).toOption) := by
    intro answer s rest
    rw [List.findSome?_cons]
    cases (answer s).toOption with
    | none => rfl
    | some text => rfl
  induction simplifiers generalizing b with
  | nil => simp [withSearchTermsOf]
  | cons s rest ih =>
    have step : b.withSearchTermsOf (s :: rest) = (b.withSearchTerms s).withSearchTermsOf rest := rfl
    rw [step, ih, titleAnswer_withSearchTerms, authorAnswer_withSearchTerms, withSearchTerms_eq,
      ask, ask, ← Option.or_assoc, ← Option.or_assoc]

variable {b : Book} {simplifiers : List Simplifier}

theorem filledInTurn_searchTitle : FilledInTurn b.titleAnswer simplifiers b.searchTitle
    (b.withSearchTermsOf simplifiers).searchTitle := by
  rw [FilledInTurn.iff_eq, withSearchTermsOf_eq]

theorem filledInTurn_searchAuthor : FilledInTurn b.authorAnswer simplifiers b.searchAuthor
    (b.withSearchTermsOf simplifiers).searchAuthor := by
  rw [FilledInTurn.iff_eq, withSearchTermsOf_eq]

theorem searchTitle_of_set {term : String} (set : b.searchTitle = some term) :
    (b.withSearchTermsOf simplifiers).searchTitle = some term := by
  rw [withSearchTermsOf_eq, set]
  rfl

theorem searchAuthor_of_set {term : String} (set : b.searchAuthor = some term) :
    (b.withSearchTermsOf simplifiers).searchAuthor = some term := by
  rw [withSearchTermsOf_eq, set]
  rfl

/-- A simplifier that was asked changes nothing when it is asked again. -/
theorem withSearchTerms_of_asked {s : Simplifier} (asked : s ∈ simplifiers) :
    (b.withSearchTermsOf simplifiers).withSearchTerms s = b.withSearchTermsOf simplifiers := by
  have title := (filledInTurn_searchTitle (b := b)).or_eq asked
  have author := (filledInTurn_searchAuthor (b := b)).or_eq asked
  rw [withSearchTerms_eq]
  have same : ∀ r : Simplifier, (b.withSearchTermsOf simplifiers).titleAnswer r = b.titleAnswer r ∧
      (b.withSearchTermsOf simplifiers).authorAnswer r = b.authorAnswer r := by
    intro r
    rw [withSearchTermsOf_eq]
    exact ⟨rfl, rfl⟩
  rw [(same s).1, (same s).2, title, author]

/-- Simplifiers that are asked one after the other change nothing but the search terms, and fill each
of these from the first answer if it is not set. Those that were asked have nothing to add, and those
that are asked later keep what is set: so the service keeps what a provider has filled in. -/
theorem withSearchTerms_inTurn (b : Book) (simplifiers : List Simplifier) :
    let filled := b.withSearchTermsOf simplifiers
    { filled with searchTitle := b.searchTitle, searchAuthor := b.searchAuthor } = b ∧
      FilledInTurn b.titleAnswer simplifiers b.searchTitle filled.searchTitle ∧
      FilledInTurn b.authorAnswer simplifiers b.searchAuthor filled.searchAuthor ∧
      (∀ s ∈ simplifiers, filled.withSearchTerms s = filled) ∧
      (∀ later term,
        (filled.searchTitle = some term →
          (b.withSearchTermsOf (simplifiers ++ later)).searchTitle = some term) ∧
        (filled.searchAuthor = some term →
          (b.withSearchTermsOf (simplifiers ++ later)).searchAuthor = some term)) ∧
      ∀ (service : Web.Service) (provider : Simplifier) (entries inserts : List CatalogEntry) id,
        Catalog.lastBook? (entries ++ inserts) id = some b →
        ∃ stored, ((Catalog.ofEntries provider entries).insertAll inserts).lookup id = .ok stored ∧
          service.prepare stored = b.withSearchTermsOf [provider, service.simplifier] ∧
          ∀ term,
            (stored.searchTitle = some term →
              (service.prepare stored).searchTitle = some term) ∧
            (stored.searchAuthor = some term →
              (service.prepare stored).searchAuthor = some term) := by
  intro filled
  refine ⟨?_, filledInTurn_searchTitle, filledInTurn_searchAuthor,
    fun s asked => withSearchTerms_of_asked asked, fun later term => ?_, ?_⟩
  · have eq : filled = _ := b.withSearchTermsOf_eq simplifiers
    rw [eq]
  · rw [withSearchTermsOf_append]
    exact ⟨searchTitle_of_set, searchAuthor_of_set⟩
  · intro service provider entries inserts id last
    have found := Catalog.lookup_ofEntries_insertAll provider entries inserts id
    rw [last] at found
    have prepared : ∀ stored : Book,
        service.prepare stored = stored.withSearchTermsOf [service.simplifier] := fun _ => rfl
    refine ⟨_, found, prepared _, fun term => ?_⟩
    rw [prepared]
    exact ⟨searchTitle_of_set, searchAuthor_of_set⟩

theorem withSearchTerms_inTurn_three :
    let books : Simplifier := ⟨{ seriesMarkers := ["book"] }, by decide⟩
    let terse : Simplifier := ⟨{ seriesMarkers := ["book"], maxShortSubtitleWords := 1 }, by decide⟩
    let b : Book :=
      { title := "Dune: Part II"
        subtitle := some "Part II"
        authors := ["Frank P. Herbert"]
        searchAuthor := some "" }
    let filled : Book := { b with searchTitle := some "Part II" }
    let service : Web.Service := .ofConfig {} terse (.catalog (Catalog.ofEntries books [⟨"d", b⟩]))
    [Simplifier.standard, books, terse].map b.titleAnswer =
        [.unchanged, .simplified "Part II", .simplified "Dune"] ∧
      b.withSearchTermsOf [.standard, books, terse] = filled ∧
      (books ∈ [Simplifier.standard, books, terse] ∧ filled.withSearchTerms books = filled) ∧
      (b.withSearchTermsOf ([.standard, books, terse] ++ [terse])).searchTitle = some "Part II" ∧
      Catalog.lastBook? [⟨"d", b⟩] "d" = some b ∧
      ∃ stored, (Catalog.ofEntries books [⟨"d", b⟩]).lookup "d" = .ok stored ∧
        stored.searchTitle = some "Part II" ∧
        (service.prepare stored).searchTitle = some "Part II" := by
  intro books terse b filled service
  have run : b.withSearchTermsOf [.standard, books, terse] = filled := by decide +kernel
  have asked : books ∈ [Simplifier.standard, books, terse] :=
    List.mem_cons_of_mem _ (List.mem_cons_self ..)
  have last : Catalog.lastBook? [⟨"d", b⟩] "d" = some b := by decide +kernel
  obtain ⟨_, _, _, again, later, served⟩ := b.withSearchTerms_inTurn [.standard, books, terse]
  obtain ⟨stored, found, _, kept⟩ := served service books [⟨"d", b⟩] [] "d" last
  have stored_term : stored.searchTitle = some "Part II" := by
    have known : (Catalog.ofEntries books [⟨"d", b⟩]).lookup "d" = .ok filled := by decide +kernel
    cases known.symm.trans found
    rfl
  refine ⟨by decide +kernel, run, ⟨asked, ?_⟩, (later [terse] "Part II").1 ?_, last, stored, found,
    stored_term, (kept "Part II").1 stored_term⟩
  · rw [← run]
    exact again books asked
  · rw [run]

end Book

end ReleaseSearch
