import ReleaseSearch.Proofs.Catalog
import ReleaseSearch.Proofs.Planner.Written
import ReleaseSearch.Proofs.Web.Requests

/-! The two ways to ask the service for a plan: for a book that the request describes, and for one
of the catalog. They agree on every book that the catalog holds. -/
namespace ReleaseSearch

namespace Planner

theorem plan_of_resolve {p : Planner} {first second : Selection}
    (same : p.resolve first = p.resolve second) (b : Book) (manualQuery : Option String) :
    p.plan b first manualQuery = p.plan b second manualQuery := by
  rw [plan, plan, same]

/-- Languages that come as one parameter resolve as those that come as a list. -/
theorem resolve_parameter (p : Planner) {codes : Option (List String)}
    (clean : ∀ list ∈ codes, ∀ code ∈ list, ',' ∉ code.toList) :
    p.resolve ((codes.map (",".intercalate ·)).elim .default .ofCommaList) =
      p.resolve (.ofRequest codes) := by
  cases codes with
  | none => rfl
  | some list =>
    exact (p.resolve_ofCommaList list (clean list rfl)).trans (p.resolve_ofCodes list).symm

end Planner

namespace Web.Service

/-- The service of a configuration over a catalog that read some entries and had others inserted. -/
def ofEntries (config : Config) (simplifier : Simplifier) (entries inserts : List CatalogEntry) :
    Service :=
  ofConfig config simplifier (.catalog ((Catalog.ofEntries simplifier entries).insertAll inserts))

variable {config : Config} (simplifier : Simplifier) {entries inserts : List CatalogEntry}

theorem planFor_withNormalCodes (valid : config.validate = .ok ()) (provider : Provider)
    {r : PlanRequest} (distinct : r.book.titlesByLanguage.Unambiguous) :
    (ofConfig config simplifier provider).planFor { r with book := r.book.withNormalCodes } =
      (ofConfig config simplifier provider).planFor r :=
  (Config.accepted_of_validate valid).plan_withNormalCodes
    (b := r.book.withSearchTerms simplifier) distinct (.ofRequest r.languages) r.manualQuery

/-- A book of the catalog has its search terms already. -/
theorem planForFound_withSearchTerms (s : Service) {r : PlanRequest}
    (clean : ∀ list ∈ r.languages, ∀ code ∈ list, ',' ∉ code.toList) :
    s.planForFound (r.book.withSearchTerms s.simplifier)
      ⟨r.languages.map (",".intercalate ·), r.manualQuery⟩ = s.planFor r := by
  rw [planForFound, planFor, prepare, prepare, Book.withSearchTerms_withSearchTerms]
  exact Planner.plan_of_resolve (s.planner.resolve_parameter clean) _ _

theorem bookPlanReply_ofEntries (id : String) (parameters : PlanParameters) :
    let s := ofEntries config simplifier entries inserts
    s.bookPlanReply id parameters =
      (match Catalog.lastBook? (entries ++ inserts) id with
        | some book => .ok (s.planForFound (book.withSearchTerms simplifier) parameters).toJson
        | none => .ofMetadataError (.notFound id), s) := by
  intro s
  have found := Catalog.lookup_ofEntries_insertAll simplifier entries inserts id
  have answered : s.provider.lookup id =
      (((Catalog.ofEntries simplifier entries).insertAll inserts).lookup id, s.provider) := rfl
  rw [bookPlanReply, answered, found]
  cases Catalog.lastBook? (entries ++ inserts) id with
  | none => rfl
  | some book => rfl

/-- A book of the catalog has the same plan by its id as it has by its description, and no other id
has a plan. -/
theorem plan_endpoints_agree (config : Config) (valid : config.validate = .ok ())
    (simplifier : Simplifier) (entries inserts : List CatalogEntry) :
    let s := ofEntries config simplifier entries inserts
    (∀ id book, Catalog.lastBook? (entries ++ inserts) id = some book →
      book.titlesByLanguage.Unambiguous →
      ∀ (codes : Option (List String)) (manualQuery : Option String),
        (∀ list ∈ codes, ∀ code ∈ list, ',' ∉ code.toList) →
        let described : PlanRequest := ⟨book, codes, manualQuery⟩
        let plan := s.planFor described
        (∀ request : Request,
          request.AsksForBook id ⟨codes.map (",".intercalate ·), manualQuery⟩ →
            s.handle request = (.ok plan.toJson, s)) ∧
        ∀ v, described.Written v →
          (∃ read, Json.readText PlanRequest.ofData v.render = .ok read ∧ s.planFor read = plan) ∧
          ∀ request : Request, request.Posts .plan v.render →
            s.handle request = (.ok plan.toJson, s)) ∧
    ∀ id, (∀ e ∈ entries ++ inserts, e.id ≠ id) → ∀ (request : Request) parameters,
      request.AsksForBook id parameters → s.handle request =
        (⟨404, some (.object [("error", .text (MetadataError.notFound id).message)])⟩, s) := by
  intro s
  constructor
  · intro id book last distinct codes manualQuery clean described plan
    constructor
    · intro request asks
      rw [handle_bookPlan asks, bookPlanReply_ofEntries, last]
      exact congrArg (fun plan => (Reply.ok plan.toJson, s))
        (s.planForFound_withSearchTerms (r := described) clean)
    · intro v written
      have same := planFor_withNormalCodes simplifier valid s.provider (r := described) distinct
      refine ⟨⟨_, written.readText, same⟩, fun request posts => ?_⟩
      rw [handle_plan posts written.readText]
      exact congrArg (fun plan => (Reply.ok plan.toJson, s)) same
  · intro id absent request parameters asks
    rw [handle_bookPlan asks, bookPlanReply_ofEntries, Catalog.lastBook?_eq_none absent]
    rfl

theorem plan_endpoints_agree_encoded :
    let config : Config := {}
    let book : Book :=
      { title := "Dune (Deluxe)"
        titlesByLanguage := ⟨[("HU ", " A Dűne "), (" ", "Duna")], by decide⟩ }
    let entries : List CatalogEntry := [⟨"b 1", { title := "Dune" }⟩]
    let inserts : List CatalogEntry := [⟨"b 1", book⟩, ⟨"b 3", { title := "Emma" }⟩]
    let s := ofEntries config .standard entries inserts
    let described : PlanRequest := ⟨book, some ["HU", " en"], none⟩
    let written : Json := .object [("book", book.toJson),
      ("languages", Json.texts ["HU", " en"]), ("manual_query", .null)]
    let get : Request := { target := "/api/v1/books/b%201/plan?languages=HU%2C+en" }
    let post : Request :=
      { method := "POST"
        target := "/api/v1/plan"
        contentType := some "application/json"
        body := written.render }
    let unknown : Request := { target := "/api/v1/books/b%202/plan" }
    config.validate = .ok () ∧ Catalog.lastBook? (entries ++ inserts) "b 1" = some book ∧
      book.titlesByLanguage.Unambiguous ∧
      (∀ list ∈ described.languages, ∀ code ∈ list, ',' ∉ code.toList) ∧
      get.AsksForBook "b 1" ⟨some "HU, en", none⟩ ∧ described.Written written ∧
      post.Posts .plan written.render ∧
      (∀ e ∈ entries ++ inserts, e.id ≠ "b 2") ∧ unknown.AsksForBook "b 2" ⟨none, none⟩ ∧
      s.handle get = (.ok (s.planFor described).toJson, s) ∧
      s.handle post = (.ok (s.planFor described).toJson, s) ∧
      (s.planFor described).titleVariants =
        [⟨"A Dűne", "A Dűne", some ["hu"]⟩, ⟨"Dune", "Dune", some ["en"]⟩] ∧
      s.handle unknown =
        (⟨404, some (.object [("error", .text "Book not found: b 2")])⟩, s) := by
  intro config book entries inserts s described written get post unknown
  have valid : config.validate = .ok () := by decide +kernel
  have last : Catalog.lastBook? (entries ++ inserts) "b 1" = some book := by decide +kernel
  have distinct : book.titlesByLanguage.Unambiguous := by decide +kernel
  have clean : ∀ list ∈ described.languages, ∀ code ∈ list, ',' ∉ code.toList := by decide +kernel
  have asks : get.AsksForBook "b 1" ⟨some "HU, en", none⟩ :=
    ⟨rfl, ⟨"b%201", by decide +kernel, by decide +kernel⟩,
      readParameters?_eq (by decide +kernel) (by decide +kernel)⟩
  have describes : described.Written written := ⟨_, _, .given ["HU", " en"], .null, rfl⟩
  have posts : post.Posts .plan written.render :=
    ⟨rfl, by decide +kernel, by decide +kernel, rfl, by decide +kernel⟩
  have absent : ∀ e ∈ entries ++ inserts, e.id ≠ "b 2" := by decide +kernel
  have misses : unknown.AsksForBook "b 2" ⟨none, none⟩ :=
    ⟨rfl, ⟨"b%202", by decide +kernel, by decide +kernel⟩,
      readParameters?_eq (by decide +kernel) (by decide +kernel)⟩
  obtain ⟨known, others⟩ := plan_endpoints_agree config valid .standard entries inserts
  obtain ⟨by_id, by_book⟩ := known "b 1" book last distinct described.languages none clean
  exact ⟨valid, last, distinct, clean, asks, describes, posts, absent, misses, by_id get asks,
    (by_book written describes).2 post posts, by decide +kernel,
    others "b 2" absent unknown _ misses⟩

end Web.Service

end ReleaseSearch
