import ReleaseSearch.Plan.Json
import ReleaseSearch.Proofs.Json.Record
import ReleaseSearch.Selection.Json

/-! Plans and selections on the wire. Whoever reads the text of a plan has that plan, and asks the
same queries. -/
namespace ReleaseSearch
open Data

theorem readLanguages_toData (languages : Option (List String)) :
    readLanguages (languagesToJson languages).toData = .ok languages := by
  cases languages with
  | none => rfl
  | some codes =>
    have filled : (Json.texts codes).toData ≠ .null := by simp [Json.texts, Json.toData]
    exact readOption_of_ok filled (readTexts_toData codes)

theorem numberless_languagesToJson (languages : Option (List String)) :
    (languagesToJson languages).Numberless := by
  cases languages with
  | none => exact .null
  | some codes => exact Json.numberless_texts codes

namespace Variant

theorem ofData_toData (v : Variant) : Variant.ofData v.toJson.toData = .ok v := by
  have query : Reads fields [("query", .text v.query)] ⟨"", "", none⟩ ⟨v.query, "", none⟩ :=
    .member "query" rfl rfl
  have title : Reads fields [("title", .text v.title)] ⟨v.query, "", none⟩
      ⟨v.query, v.title, none⟩ := .member "title" rfl rfl
  have languages : Reads fields [("languages", languagesToJson v.languages)]
      ⟨v.query, v.title, none⟩ v := by
    refine .member "languages" rfl ?_
    simp only [readLanguages_toData]
    rfl
  refine readRecord_object (by simp) ?_ ((query.append title).append languages) false
  simp [fields]

theorem numberless_toJson (v : Variant) : v.toJson.Numberless := by
  refine .object ?_
  simp [Json.Numberless.text, numberless_languagesToJson]

end Variant

namespace TitleGroup

theorem ofData_toData (g : TitleGroup) : TitleGroup.ofData g.toJson.toData = .ok g := by
  have title : Reads fields [("title", .text g.title)] ⟨"", none⟩ ⟨g.title, none⟩ :=
    .member "title" rfl rfl
  have languages : Reads fields [("languages", languagesToJson g.languages)] ⟨g.title, none⟩ g := by
    refine .member "languages" rfl ?_
    simp only [readLanguages_toData]
    rfl
  refine readRecord_object (by simp) ?_ (title.append languages) false
  simp [fields]

theorem numberless_toJson (g : TitleGroup) : g.toJson.Numberless := by
  refine .object ?_
  simp [Json.Numberless.text, numberless_languagesToJson]

end TitleGroup

namespace Plan

/-- What is written of the plan, member by member. -/
def members (p : Plan) : List (String × Json) :=
    [("languages", languagesToJson p.languages)] ++
    [("isbn_candidates", Json.texts p.isbnCandidates)] ++
    Json.member? "manual_query" .text p.manualQuery ++
    Json.member? "author" .text p.author ++
    [("title_variants", .list (p.titleVariants.map Variant.toJson))] ++
    [("grouped_title_variants", .list (p.groupedTitleVariants.map TitleGroup.toJson))]

theorem toJson_eq (p : Plan) : p.toJson = .object p.members := by
  simp [toJson, members]

theorem names_members (p : Plan) : (p.members.map Prod.fst).Sublist
    (["languages"] ++ ["isbn_candidates"] ++ ["manual_query"] ++ ["author"] ++
      ["title_variants"] ++ ["grouped_title_variants"]) := by
  simp only [members, List.map_append]
  apply List.Sublist.append _ (.refl _)
  apply List.Sublist.append _ (.refl _)
  apply List.Sublist.append _ (Json.names_member? ..)
  exact .append (.refl _) (Json.names_member? ..)

theorem reads_members (p : Plan) : Reads fields p.members
    { languages := none, isbnCandidates := [], titleVariants := [], groupedTitleVariants := [] }
    p := by
  have languages : ∀ s : Plan, Reads fields [("languages", languagesToJson p.languages)] s
      { s with languages := p.languages } := by
    intro s
    refine .member "languages" rfl ?_
    simp only [readLanguages_toData]
    rfl
  have isbns : ∀ s : Plan, Reads fields [("isbn_candidates", Json.texts p.isbnCandidates)] s
      { s with isbnCandidates := p.isbnCandidates } := by
    intro s
    refine .member "isbn_candidates" rfl ?_
    simp only [readTexts_toData]
    rfl
  have variants : ∀ s : Plan, Reads fields
      [("title_variants", .list (p.titleVariants.map Variant.toJson))] s
      { s with titleVariants := p.titleVariants } := by
    intro s
    refine .member "title_variants" rfl ?_
    simp only [readList_toData Variant.ofData_toData]
    rfl
  have groups : ∀ s : Plan, Reads fields
      [("grouped_title_variants", .list (p.groupedTitleVariants.map TitleGroup.toJson))] s
      { s with groupedTitleVariants := p.groupedTitleVariants } := by
    intro s
    refine .member "grouped_title_variants" rfl ?_
    simp only [readList_toData TitleGroup.ofData_toData]
    rfl
  exact (languages _)
    |>.append (isbns _)
    |>.append (.optional "manual_query" .text (fun s x => { s with manualQuery := x })
      rfl rfl (fun _ => rfl) p.manualQuery)
    |>.append (.optional "author" .text (fun s x => { s with author := x })
      rfl rfl (fun _ => rfl) p.author)
    |>.append (variants _)
    |>.append (groups _)

theorem ofData_toData (p : Plan) : Plan.ofData p.toJson.toData = .ok p := by
  rw [toJson_eq]
  refine readRecord_object (p.names_members.nodup (by decide)) ?_ p.reads_members false
  simp [fields, members]

theorem numberless_toJson (p : Plan) : p.toJson.Numberless := by
  have plain : ∀ m ∈ p.members, m.2.Numberless := by
    simp only [members, List.forall_mem_append, List.forall_mem_singleton, and_assoc]
    exact ⟨numberless_languagesToJson _, Json.numberless_texts _, Json.numberless_member? .text,
      Json.numberless_member? .text, Json.numberless_map Variant.numberless_toJson _,
      Json.numberless_map TitleGroup.numberless_toJson _⟩
  rw [toJson_eq]
  exact .object plain

end Plan

namespace Selection

theorem ofData_toData (s : Selection) : Selection.ofData s.toJson.toData = .ok s := by
  cases s with
  | default => rfl
  | all => rfl
  | explicit codes =>
    change (return .explicit (← (Json.texts codes).toData.readTexts) : Except Fault Selection) = _
    rw [readTexts_toData]
    rfl

theorem numberless_toJson (s : Selection) : s.toJson.Numberless := by
  cases s with
  | default => exact .text _
  | all => exact .text _
  | explicit codes =>
    refine .object ?_
    simp [Json.numberless_texts]

end Selection

/-- A plan that is written and read is the plan it was, whether the planner built it or not, so the
receiver makes the searches that the sender would make. A selection comes back as it is written,
not in normal form. -/
theorem wire_round_trip :
    (∀ p : Plan, ∃ received, Json.readText Plan.ofData p.toJson.render = .ok received ∧
      received = p ∧ received.isManual = p.isManual ∧
      ∀ strategy, received.textQueries strategy = p.textQueries strategy ∧
        received.callCount strategy = p.callCount strategy) ∧
    ∀ s : Selection, Json.readText Selection.ofData s.toJson.render = .ok s := by
  constructor
  · intro p
    refine ⟨p, ?_, rfl, rfl, fun strategy => ⟨rfl, rfl⟩⟩
    rw [Json.readText_render _ p.numberless_toJson, p.ofData_toData]
  · intro s
    rw [Json.readText_render _ s.numberless_toJson, s.ofData_toData]

end ReleaseSearch
