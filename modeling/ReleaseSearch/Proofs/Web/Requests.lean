import ReleaseSearch.Proofs.Book.Json
import ReleaseSearch.Web.Service

/-! Requests that reach a handler: what a client has to send, and which answer is then given. -/
namespace ReleaseSearch

/-- How a member with an optional value is written: left out or null when there is none. -/
inductive Json.OptionalMember {α : Type} (name : String) (write : α → Json) :
    Option α → List (String × Json) → Prop where
  | given (a : α) : OptionalMember name write (some a) [(name, write a)]
  | omitted : OptionalMember name write none []
  | null : OptionalMember name write none [(name, .null)]

namespace Json.OptionalMember

variable {α : Type} {name : String} {write : α → Json} {value : Option α}
variable {members : List (String × Json)}

theorem names (h : OptionalMember name write value members) :
    (members.map Prod.fst).Sublist [name] := by
  cases h with
  | omitted => exact List.nil_sublist _
  | given | null => exact List.Sublist.refl _

theorem numberless (h : OptionalMember name write value members)
    (plain : ∀ a, Numberless (write a)) : ∀ m ∈ members, Numberless m.2 := by
  intro m member
  cases h with
  | omitted => cases member
  | given a =>
    cases List.mem_singleton.mp member
    exact plain a
  | null =>
    cases List.mem_singleton.mp member
    exact .null

theorem reads {σ : Type} {fields : List (Data.RecordField σ)} {field : Data.RecordField σ} {s : σ}
    (h : OptionalMember name write value members) (set : σ → Option α → σ)
    (found : fields.find? (·.name == name) = some field) (absent : set s none = s)
    (null : field.read s .null = .ok (set s none))
    (present : ∀ a, field.read s (write a).toData = .ok (set s (some a))) :
    Data.Reads fields members s (set s value) := by
  cases h with
  | given a => exact .member name found (present a)
  | omitted =>
    rw [absent]
    rfl
  | null => exact .member name found null

end Json.OptionalMember

namespace Web
open Data

namespace PlanRequest

/-- The JSON values that describe the request. -/
def Written (r : PlanRequest) (v : Json) : Prop :=
  ∃ languages manualQuery,
    Json.OptionalMember "languages" Json.texts r.languages languages ∧
    Json.OptionalMember "manual_query" .text r.manualQuery manualQuery ∧
    v = .object ([("book", r.book.toJson)] ++ languages ++ manualQuery)

variable {r : PlanRequest} {v : Json}

theorem Written.numberless (h : r.Written v) : v.Numberless := by
  obtain ⟨languages, manualQuery, codes, query, rfl⟩ := h
  refine .object ?_
  simp only [List.forall_mem_append, List.forall_mem_singleton, and_assoc]
  exact ⟨r.book.numberless_toJson, codes.numberless Json.numberless_texts,
    query.numberless .text⟩

theorem Written.ofData (h : r.Written v) :
    PlanRequest.ofData v.toData = .ok { r with book := r.book.withNormalCodes } := by
  obtain ⟨languages, manualQuery, codes, query, rfl⟩ := h
  have book : Reads fields [("book", r.book.toJson)] { book := { title := "" } }
      { book := r.book.withNormalCodes } := by
    refine .member "book" rfl ?_
    dsimp only
    rw [Book.ofData_toData]
    rfl
  have read_codes : ∀ (s : PlanRequest) (list : List String),
      (do return { s with languages := ← readLanguages (Json.texts list).toData }) =
        Except.ok (ε := Fault) { s with languages := some list } := by
    intro s list
    have filled : (Json.texts list).toData ≠ .null := by
      intro null
      cases null
    rw [readLanguages, readOption_of_ok filled (readTexts_toData list)]
    rfl
  have read := book
    |>.append (codes.reads (fun s x => { s with languages := x }) rfl rfl rfl (read_codes _))
    |>.append (query.reads (fun s x => { s with manualQuery := x }) rfl rfl rfl fun _ => rfl)
  have names : (([("book", r.book.toJson)] ++ languages ++ manualQuery).map Prod.fst).Sublist
      (["book"] ++ ["languages"] ++ ["manual_query"]) := by
    rw [List.map_append, List.map_append]
    exact ((List.Sublist.refl _).append codes.names).append query.names
  exact readRecord_object_of_head "book" rfl (names.nodup (by decide)) (by decide) read false

/-- A request that is written and read back has the language codes of its book in normal form, and
is the same otherwise. -/
theorem Written.readText (h : r.Written v) : Json.readText PlanRequest.ofData v.render =
    .ok { r with book := r.book.withNormalCodes } := by
  rw [Json.readText_render _ h.numberless, h.ofData]

end PlanRequest

/-- A request that posts a JSON text to a route. -/
structure Request.Posts (request : Request) (route : Route) (text : String) : Prop where
  method : request.method = "POST"
  routed : Route.ofSegments? (pathSegments request.target) = some route
  json : request.contentType.any MediaType.isJson = true
  body : request.body = text
  size : text.utf8ByteSize ≤ bodyLimit

/-- A request for the plan of a book of the catalog. -/
structure Request.AsksForBook (request : Request) (id : String)
    (parameters : Service.PlanParameters) : Prop where
  method : request.method = "GET"
  routed : ∃ segment, Route.ofSegments? (pathSegments request.target) = some (.bookPlan segment) ∧
    Percent.decodeSegment? segment = some id
  parameters : Service.readParameters? request.target = some parameters

theorem Service.readParameters?_eq {target : String} {languages manualQuery : Option String}
    (codes : parameter? (queryPairs target) "languages" = some languages)
    (query : parameter? (queryPairs target) "manual_query" = some manualQuery) :
    Service.readParameters? target = some ⟨languages, manualQuery⟩ := by
  rw [Service.readParameters?, codes, query]
  rfl

theorem Request.Posts.withBody {α : Type} {request : Request} {route : Route} {text : String}
    (posts : request.Posts route text) {read : Data → Except Fault α} {value : α}
    (readable : Json.readText read text = .ok value) (answer : α → Reply) :
    withBody read request answer = answer value := by
  have fits : ¬ bodyLimit < text.utf8ByteSize := Nat.not_lt.mpr posts.size
  rw [Web.withBody, posts.json, posts.body, if_neg (by decide), if_neg fits, readable]

namespace Service

variable {s : Service} {request : Request}

theorem handle_of_routed {route : Route}
    (routed : Route.ofSegments? (pathSegments request.target) = some route)
    (method : request.method = route.method) : s.handle request = s.answer request route := by
  rw [handle, routed]
  exact if_pos method

theorem handle_plan {text : String} {r : PlanRequest} (posts : request.Posts .plan text)
    (readable : Json.readText PlanRequest.ofData text = .ok r) :
    s.handle request = (.ok (s.planFor r).toJson, s) := by
  rw [handle_of_routed posts.routed posts.method, answer, posts.withBody readable]

theorem handle_bookPlan {id : String} {parameters : PlanParameters}
    (asks : request.AsksForBook id parameters) :
    s.handle request = s.bookPlanReply id parameters := by
  obtain ⟨segment, routed, decoded⟩ := asks.routed
  rw [handle_of_routed routed asks.method, answer, bookPlan, decoded, asks.parameters]

end Service

end Web

end ReleaseSearch
