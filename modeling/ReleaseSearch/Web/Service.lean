import ReleaseSearch.Config
import ReleaseSearch.Config.Json
import ReleaseSearch.Plan.Json
import ReleaseSearch.Planner
import ReleaseSearch.Provider
import ReleaseSearch.Web.MediaType
import ReleaseSearch.Web.Target

/-! The web service: what each request is answered with. -/
namespace ReleaseSearch.Web

open Data

structure Request where
  method : String := "GET"
  target : String
  contentType : Option String := none
  body : String := ""

structure Reply where
  status : Nat
  body : Option Json := none

namespace Reply

def ok (body : Json) : Reply := ⟨200, some body⟩

/-- A refusal without a body of its own. -/
def refusal (status : Nat) : Reply := ⟨status, none⟩

/-- A lookup that failed. -/
def ofMetadataError (e : MetadataError) : Reply where
  status := match e with
    | .notFound _ => 404
    | .unavailable _ => 502
    | .unreadable _ => 500
  body := some (.object [("error", .text e.message)])

end Reply

/-! Bodies of requests. -/

structure PlanRequest where
  book : Book
  languages : Option (List String) := none
  manualQuery : Option String := none

def PlanRequest.fields : List (RecordField PlanRequest) :=
  [⟨"book", .required, fun r d => return { r with book := ← Book.ofData d }⟩,
   ⟨"languages", .defaulted, fun r d => return { r with languages := ← readLanguages d }⟩,
   ⟨"manual_query", .defaulted,
    fun r d => return { r with manualQuery := ← d.readOption readText }⟩]

def PlanRequest.ofData (d : Data) : Except Fault PlanRequest :=
  d.readRecord PlanRequest.fields false { book := { title := "" } }

structure TitleRequest where
  title : String
  subtitle : Option String := none
  seriesName : Option String := none

def TitleRequest.fields : List (RecordField TitleRequest) :=
  [⟨"title", .required, fun r d => return { r with title := ← d.readText }⟩,
   ⟨"subtitle", .defaulted, fun r d => return { r with subtitle := ← d.readOption readText }⟩,
   ⟨"series_name", .defaulted,
    fun r d => return { r with seriesName := ← d.readOption readText }⟩]

def TitleRequest.ofData (d : Data) : Except Fault TitleRequest :=
  d.readRecord TitleRequest.fields false { title := "" }

structure AuthorRequest where
  author : String

def AuthorRequest.fields : List (RecordField AuthorRequest) :=
  [⟨"author", .required, fun r d => return { r with author := ← d.readText }⟩]

def AuthorRequest.ofData (d : Data) : Except Fault AuthorRequest :=
  d.readRecord AuthorRequest.fields false ⟨""⟩

/-- The greatest size of a body, in bytes. -/
def bodyLimit : Nat := 2 * 1024 * 1024

/-- Answers a request whose body is of a known type. The media type is looked at first, then the
size. -/
def withBody {α : Type} (read : Data → Except Fault α) (request : Request) (answer : α → Reply) :
    Reply :=
  if !request.contentType.any MediaType.isJson then .refusal 415
  else if bodyLimit < request.body.utf8ByteSize then .refusal 413
  else match Json.readText read request.body with
    | .ok value => answer value
    | .error .malformed => .refusal 400
    | .error .mismatch => .refusal 422

/-! Routes. -/

inductive Route where
  | health
  | config
  | plan
  /-- The segment that holds the id, as it is written. -/
  | bookPlan (segment : String)
  | simplifyTitle
  | simplifyAuthor
deriving DecidableEq

namespace Route

/-- Paths match to the letter, apart from the id. An empty segment is an id like any other. -/
def ofSegments? : List String → Option Route
  | ["", "api", "v1", "health"] => some .health
  | ["", "api", "v1", "config"] => some .config
  | ["", "api", "v1", "plan"] => some .plan
  | ["", "api", "v1", "books", segment, "plan"] => some (.bookPlan segment)
  | ["", "api", "v1", "simplify", "title"] => some .simplifyTitle
  | ["", "api", "v1", "simplify", "author"] => some .simplifyAuthor
  | _ => none

/-- The method of a route. -/
def method : Route → String
  | .health | .config | .bookPlan _ => "GET"
  | .plan | .simplifyTitle | .simplifyAuthor => "POST"

end Route

/-! The service. -/

structure Service where
  config : Config
  simplifier : Simplifier
  planner : Planner
  provider : Provider

namespace Service

/-- The planner takes its defaults from the configuration. -/
def ofConfig (config : Config) (simplifier : Simplifier) (provider : Provider) : Service where
  config := config
  simplifier := simplifier
  planner := Planner.ofDefaults config.search.defaultLanguages config.search.primaryLanguage
  provider := provider

/-- Fills the search terms that are not set. -/
def prepare (s : Service) (b : Book) : Book := b.withSearchTerms s.simplifier

def healthReply : Reply := .ok (.object [("status", .text "ok")])

def configReply (s : Service) : Reply :=
  .ok (.object [("search", s.config.search.toJson), ("simplifier", s.config.simplifier.toJson),
    ("metadata_provider", .text s.provider.name)])

/-- The plan for a book that the request describes. -/
def planFor (s : Service) (r : PlanRequest) : Plan :=
  s.planner.plan (s.prepare r.book) (Selection.ofRequest r.languages) r.manualQuery

/-- What a request asks of the plan for a book of the catalog. -/
structure PlanParameters where
  languages : Option String
  manualQuery : Option String

def readParameters? (target : String) : Option PlanParameters := do
  let pairs := queryPairs target
  return ⟨← parameter? pairs "languages", ← parameter? pairs "manual_query"⟩

/-- The plan for a book that the provider has. -/
def planForFound (s : Service) (b : Book) (p : PlanParameters) : Plan :=
  s.planner.plan (s.prepare b) (p.languages.elim .default Selection.ofCommaList) p.manualQuery

/-- Looks the book up and plans the search for it. -/
def bookPlanReply (s : Service) (id : String) (p : PlanParameters) : Reply × Service :=
  let (answer, provider) := s.provider.lookup id
  let reply := match answer with
    | .ok book => .ok (s.planForFound book p).toJson
    | .error e => .ofMetadataError e
  (reply, { s with provider := provider })

/-- The id and the parameters are read before anything is looked up. -/
def bookPlan (s : Service) (segment target : String) : Reply × Service :=
  match Percent.decodeSegment? segment, readParameters? target with
  | some id, some parameters => s.bookPlanReply id parameters
  | _, _ => (.refusal 400, s)

def simplified (o : Outcome) : Reply :=
  .ok (.object [("simplified", Json.ofOption .text o.toOption)])

def answer (s : Service) (request : Request) : Route → Reply × Service
  | .health => (healthReply, s)
  | .config => (s.configReply, s)
  | .plan => (withBody PlanRequest.ofData request fun r => .ok (s.planFor r).toJson, s)
  | .bookPlan segment => s.bookPlan segment request.target
  | .simplifyTitle =>
    (withBody TitleRequest.ofData request fun r =>
      simplified (s.simplifier.simplifyTitle r.title r.subtitle r.seriesName), s)
  | .simplifyAuthor =>
    (withBody AuthorRequest.ofData request fun r =>
      simplified (s.simplifier.simplifyAuthor r.author), s)

/-- Answers a request. A head request is answered as a get request, without the body. -/
def handle (s : Service) (request : Request) : Reply × Service :=
  match Route.ofSegments? (pathSegments request.target) with
  | none => (.refusal 404, s)
  | some route =>
    if request.method = route.method then s.answer request route
    else if request.method = "HEAD" ∧ route.method = "GET" then
      let (reply, s) := s.answer request route
      ({ reply with body := none }, s)
    else (.refusal 405, s)

/-- Answers requests one after the other. -/
def handleAll (s : Service) : List Request → List Reply × Service
  | [] => ([], s)
  | request :: rest =>
    let (reply, s) := s.handle request
    let (replies, s) := s.handleAll rest
    (reply :: replies, s)

end Service

end ReleaseSearch.Web
