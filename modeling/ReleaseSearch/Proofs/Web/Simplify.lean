import ReleaseSearch.Proofs.Book.NormalCodes
import ReleaseSearch.Proofs.Planner.Restricted
import ReleaseSearch.Proofs.Planner.Untranslated
import ReleaseSearch.Proofs.Web.Requests

/-! The three posts of the service tell the same story: the plan for a book searches for the title
and the author that the two simplifying posts answer with. -/
namespace ReleaseSearch.Web
open Data

namespace TitleRequest

/-- The JSON values that describe the request. -/
def Written (r : TitleRequest) (v : Json) : Prop :=
  ∃ subtitle series,
    Json.OptionalMember "subtitle" .text r.subtitle subtitle ∧
    Json.OptionalMember "series_name" .text r.seriesName series ∧
    v = .object ([("title", .text r.title)] ++ subtitle ++ series)

variable {r : TitleRequest} {v : Json}

theorem Written.numberless (h : r.Written v) : v.Numberless := by
  obtain ⟨subtitle, series, sub, ser, rfl⟩ := h
  refine .object ?_
  simp only [List.forall_mem_append, List.forall_mem_singleton, and_assoc]
  exact ⟨.text r.title, sub.numberless .text, ser.numberless .text⟩

theorem Written.readText (h : r.Written v) :
    Json.readText TitleRequest.ofData v.render = .ok r := by
  rw [Json.readText_render _ h.numberless]
  obtain ⟨subtitle, series, sub, ser, rfl⟩ := h
  have title : Reads fields [("title", .text r.title)] { title := "" } { title := r.title } :=
    .member "title" rfl rfl
  have read := title
    |>.append (sub.reads (fun s x => { s with subtitle := x }) rfl rfl rfl fun _ => rfl)
    |>.append (ser.reads (fun s x => { s with seriesName := x }) rfl rfl rfl fun _ => rfl)
  have names : (([("title", Json.text r.title)] ++ subtitle ++ series).map Prod.fst).Sublist
      (["title"] ++ ["subtitle"] ++ ["series_name"]) := by
    rw [List.map_append, List.map_append]
    exact ((List.Sublist.refl _).append sub.names).append ser.names
  exact readRecord_object_of_head "title" rfl (names.nodup (by decide)) (by decide) read false

end TitleRequest

namespace AuthorRequest

def toJson (r : AuthorRequest) : Json := .object [("author", .text r.author)]

theorem readText_toJson (r : AuthorRequest) :
    Json.readText AuthorRequest.ofData r.toJson.render = .ok r := by
  have plain : r.toJson.Numberless := .object (by simpa using .text r.author)
  have read : Reads fields [("author", .text r.author)] ⟨""⟩ r := .member "author" rfl rfl
  rw [Json.readText_render _ plain]
  exact readRecord_object_of_head "author" rfl (by simp) (by decide) read false

end AuthorRequest

namespace Service

variable {s : Service} {request : Request} {text : String}

theorem handle_simplifyTitle {r : TitleRequest} (posts : request.Posts .simplifyTitle text)
    (readable : Json.readText TitleRequest.ofData text = .ok r) :
    s.handle request =
      (simplified (s.simplifier.simplifyTitle r.title r.subtitle r.seriesName), s) := by
  rw [handle_of_routed posts.routed posts.method, answer, posts.withBody readable]

theorem handle_simplifyAuthor {r : AuthorRequest} (posts : request.Posts .simplifyAuthor text)
    (readable : Json.readText AuthorRequest.ofData text = .ok r) :
    s.handle request = (simplified (s.simplifier.simplifyAuthor r.author), s) := by
  rw [handle_of_routed posts.routed posts.method, answer, posts.withBody readable]

/-- The written forms of a value are read as the value, and whoever posts a text that is read so
gets this answer, which leaves the service as it is. -/
structure AnswersPost {α : Type} (s : Service) (route : Route) (read : Data → Except Fault α)
    (Written : Json → Prop) (value : α) (reply : Json) : Prop where
  readable : ∀ v, Written v → Json.readText read v.render = .ok value
  answered : ∀ request text, request.Posts route text → Json.readText read text = .ok value →
    s.handle request = (.ok reply, s)

/-- A book as a client describes it that knows no search terms and no editions. -/
def plainBook (title : String) (subtitle series : Option String) (authors : List String) : Book :=
  { title := title, subtitle := subtitle, seriesName := series, authors := authors }

theorem withNormalCodes_plainBook (title : String) (subtitle series : Option String)
    (authors : List String) :
    (plainBook title subtitle series authors).withNormalCodes =
      plainBook title subtitle series authors :=
  Book.HasNormalCodes.withNormalCodes_eq
    ⟨(Book.hasNormalCodes_titled title).editions, (Book.hasNormalCodes_titled title).declared⟩

theorem planFor_plainBook (s : Service) (title : String) (subtitle series : Option String)
    (authors : List String) (languages : Option (List String)) :
    let plan := s.planFor ⟨plainBook title subtitle series authors, languages, none⟩
    let searched :=
      (s.simplifier.simplifyTitle title subtitle series).toOption.getD (Text.trim title)
    (plan.author = authors.head?.bind fun author =>
      if Text.trim author = "" then none
      else some ((s.simplifier.simplifyAuthor author).toOption.getD (Text.trim author))) ∧
    ∃ tags, plan.titleVariants =
      [⟨searched ++ (plan.author.map (" " ++ ·)).getD "", searched, tags⟩] := by
  intro plan searched
  let book := (plainBook title subtitle series authors).withSearchTerms s.simplifier
  have derived : plan = s.planner.derivedPlan book
      (s.planner.resolve (.ofRequest languages)) := s.planner.plan_of_blank _ _ (by simp)
  have author : plan.author = book.primarySearchAuthor := by
    rw [derived]
    rfl
  have improves := s.simplifier.improves_simplifyTitle title subtitle series
  have titled : book.primarySearchTitle = searched :=
    (Book.primarySearchTitle_of_unset rfl).trans improves.trim_textOr
  obtain ⟨tags, variants⟩ := s.planner.titleVariants_of_untranslated
    (b := book) (Book.titleIn_of_no_editions rfl) (s.planner.resolve (.ofRequest languages))
  refine ⟨author.trans (Book.primarySearchAuthor_of_first rfl), tags, ?_⟩
  rw [author, derived, variants, Variant.ofTitle, Planner.composeQuery_author, titled]

/-- The plan for a plain book has one variant. It searches for the title and the author that the
simplifying posts answer with, or for the texts as they are, trimmed, where these answer null. -/
theorem plan_of_plainBook (s : Service) (title : String) (subtitle series : Option String)
    (authors : List String) (languages : Option (List String)) :
    let described : PlanRequest := ⟨plainBook title subtitle series authors, languages, none⟩
    let titled : TitleRequest := ⟨title, subtitle, series⟩
    let plan := s.planFor described
    let shorter := (s.simplifier.simplifyTitle title subtitle series).toOption
    let plainer := fun author => (s.simplifier.simplifyAuthor author).toOption
    let reply := fun term => Json.object [("simplified", Json.ofOption .text term)]
    s.AnswersPost .plan PlanRequest.ofData described.Written described plan.toJson ∧
      s.AnswersPost .simplifyTitle TitleRequest.ofData titled.Written titled (reply shorter) ∧
      (∀ author, s.AnswersPost .simplifyAuthor AuthorRequest.ofData
        (· = AuthorRequest.toJson ⟨author⟩) ⟨author⟩ (reply (plainer author))) ∧
      (plan.author = match authors with
        | [] => none
        | author :: _ =>
          if Text.trim author = "" then none
          else some ((plainer author).getD (Text.trim author))) ∧
      ∃ tags, plan.titleVariants =
        [⟨shorter.getD (Text.trim title) ++ (plan.author.map (" " ++ ·)).getD "",
          shorter.getD (Text.trim title), tags⟩] := by
  intro described titled plan shorter plainer reply
  obtain ⟨author, tags, variants⟩ := s.planFor_plainBook title subtitle series authors languages
  refine ⟨?_, ?_, ?_, ?_, tags, ?_⟩
  · constructor
    · intro v written
      rw [written.readText, withNormalCodes_plainBook]
    · intro request text posts readable
      rw [handle_plan posts readable]
  · constructor
    · exact fun v written => written.readText
    · intro request text posts readable
      rw [handle_simplifyTitle posts readable]
      rfl
  · intro author
    constructor
    · rintro v rfl
      exact AuthorRequest.readText_toJson ⟨author⟩
    · intro request text posts readable
      rw [handle_simplifyAuthor posts readable]
      rfl
  · refine author.trans ?_
    cases authors with
    | nil => rfl
    | cons author rest => rfl
  · exact variants

theorem plan_of_plainBook_inverted_name :
    let s := ofConfig {} .standard (.failing (.unavailable "timeout"))
    let plan := s.planFor
      ⟨plainBook "The Martian (Unabridged)" none none ["Weir, Andy"], some ["HU"], none⟩
    let body := (AuthorRequest.toJson ⟨"Weir, Andy"⟩).render
    let post : Request :=
      { method := "POST"
        target := "/api/v1/simplify/author"
        contentType := some "application/json"
        body := body }
    post.Posts .simplifyAuthor body ∧
      Json.readText AuthorRequest.ofData body = .ok ⟨"Weir, Andy"⟩ ∧
      s.handle post = (.ok (.object [("simplified", .text "Andy Weir")]), s) ∧
      plan.author = some "Andy Weir" ∧
      ∃ tags, plan.titleVariants = [⟨"The Martian Andy Weir", "The Martian", tags⟩] := by
  intro s plan body post
  have posts : post.Posts .simplifyAuthor body :=
    ⟨rfl, by decide +kernel, by decide +kernel, rfl, by decide +kernel⟩
  have titled : s.simplifier.simplifyTitle "The Martian (Unabridged)" none none =
      .simplified "The Martian" := by decide +kernel
  have named : s.simplifier.simplifyAuthor "Weir, Andy" = .simplified "Andy Weir" := by
    decide +kernel
  have filled : Text.trim "Weir, Andy" ≠ "" := by decide +kernel
  obtain ⟨_, _, names, author, tags, variants⟩ :=
    s.plan_of_plainBook "The Martian (Unabridged)" none none ["Weir, Andy"] (some ["HU"])
  have readable := (names "Weir, Andy").readable _ rfl
  have answered := (names "Weir, Andy").answered post body posts readable
  dsimp only at answered
  rw [named] at answered
  have known : plan.author = some "Andy Weir" := by
    refine author.trans ?_
    dsimp only
    rw [if_neg filled, named]
    rfl
  refine ⟨posts, readable, answered, known, tags, variants.trans ?_⟩
  rw [titled, known]
  rfl

end Service

end ReleaseSearch.Web
