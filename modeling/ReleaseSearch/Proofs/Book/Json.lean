import ReleaseSearch.Book.Json
import ReleaseSearch.Proofs.Editions
import ReleaseSearch.Proofs.Json.Record

/-! Books that are written as JSON and read back. All that changes is how language codes are
written. -/
namespace ReleaseSearch
open Data

theorem Editions.ofData_toData (e : Editions) :
    Editions.ofData e.toJson.toData = .ok e.normalized := by
  rw [Editions.ofData, Editions.toJson, readTextTable_toData]
  exact congrArg (fun m => Except.ok (Editions.normalized m)) (Assoc.ofList_entries e)

namespace Book

/-- The book with its language codes in normal form, without those that are blank. -/
def withNormalCodes (b : Book) : Book :=
  { b with
    titlesByLanguage := b.titlesByLanguage.normalized
    primaryLanguage := b.declaredLanguage? }

/-- What is written of the book, member by member. -/
def members (b : Book) : List (String × Json) :=
    [("title", .text b.title)] ++
    Json.member? "subtitle" .text b.subtitle ++
    Json.member? "series_name" .text b.seriesName ++
    Json.member? "search_title" .text b.searchTitle ++
    [("authors", Json.texts b.authors)] ++
    Json.member? "search_author" .text b.searchAuthor ++
    [("titles_by_language", Editions.toJson b.titlesByLanguage)] ++
    Json.member? "primary_language" .text b.primaryLanguage ++
    Json.member? "isbn_13" .text b.isbn13 ++
    Json.member? "isbn_10" .text b.isbn10

theorem toJson_eq (b : Book) : b.toJson = .object b.members := rfl

theorem nodup_members (b : Book) : (b.members.map Prod.fst).Nodup := by
  have names : (b.members.map Prod.fst).Sublist
      (["title"] ++ ["subtitle"] ++ ["series_name"] ++ ["search_title"] ++ ["authors"] ++
        ["search_author"] ++ ["titles_by_language"] ++ ["primary_language"] ++ ["isbn_13"] ++
        ["isbn_10"]) := by
    simp only [members, List.map_append]
    refine .append (.append (.append (.append (.append (.append (.append (.append (.append
      (.refl _) ?_) ?_) ?_) (.refl _)) ?_) (.refl _)) ?_) ?_) ?_
    all_goals exact Json.names_member? ..
  exact names.nodup (by decide)

theorem reads_members (b : Book) : Reads fields b.members { title := "" } b.withNormalCodes := by
  have title : Reads fields [("title", .text b.title)] { title := "" } { title := b.title } :=
    .member "title" rfl rfl
  have authors : ∀ s : Book, Reads fields [("authors", Json.texts b.authors)] s
      { s with authors := b.authors } := by
    intro s
    refine .member "authors" rfl ?_
    dsimp only
    rw [readTexts_toData]
    rfl
  have editions : ∀ s : Book, Reads fields
      [("titles_by_language", Editions.toJson b.titlesByLanguage)] s
      { s with titlesByLanguage := b.titlesByLanguage.normalized } := by
    intro s
    refine .member "titles_by_language" rfl ?_
    dsimp only
    rw [Editions.ofData_toData]
    rfl
  have all := title
    |>.append (.optional "subtitle" .text (fun s x => { s with subtitle := x })
      rfl rfl (fun _ => rfl) b.subtitle)
    |>.append (.optional "series_name" .text (fun s x => { s with seriesName := x })
      rfl rfl (fun _ => rfl) b.seriesName)
    |>.append (.optional "search_title" .text (fun s x => { s with searchTitle := x })
      rfl rfl (fun _ => rfl) b.searchTitle)
    |>.append (authors _)
    |>.append (.optional "search_author" .text (fun s x => { s with searchAuthor := x })
      rfl rfl (fun _ => rfl) b.searchAuthor)
    |>.append (editions _)
    |>.append (.optional "primary_language" .text
      (fun s x => { s with primaryLanguage := (x.map Language.normalize).filter (· ≠ "") })
      rfl rfl (fun _ => rfl) b.primaryLanguage)
    |>.append (.optional "isbn_13" .text (fun s x => { s with isbn13 := x })
      rfl rfl (fun _ => rfl) b.isbn13)
    |>.append (.optional "isbn_10" .text (fun s x => { s with isbn10 := x })
      rfl rfl (fun _ => rfl) b.isbn10)
  exact all

theorem ofData_toData (b : Book) : Book.ofData b.toJson.toData = .ok b.withNormalCodes := by
  rw [toJson_eq]
  exact readRecord_object_of_head "title" rfl (nodup_members b) (by decide) (reads_members b) false

theorem numberless_toJson (b : Book) : b.toJson.Numberless := by
  have editions : (Editions.toJson b.titlesByLanguage).Numberless := by
    refine .object fun m h => ?_
    obtain ⟨e, _, rfl⟩ := List.mem_map.mp h
    exact .text e.2
  have plain : ∀ m ∈ b.members, m.2.Numberless := by
    simp only [members, List.forall_mem_append, List.forall_mem_singleton, and_assoc]
    exact ⟨.text _, Json.numberless_member? .text, Json.numberless_member? .text,
      Json.numberless_member? .text, Json.numberless_texts _, Json.numberless_member? .text,
      editions, Json.numberless_member? .text, Json.numberless_member? .text,
      Json.numberless_member? .text⟩
  rw [toJson_eq]
  exact .object plain

/-- A book that is written and read back has its language codes in normal form, and nothing else
about it has changed. -/
theorem readText_toJson (b : Book) :
    Json.readText Book.ofData b.toJson.render = .ok b.withNormalCodes := by
  rw [Json.readText_render _ (numberless_toJson b), ofData_toData]

end Book

end ReleaseSearch
