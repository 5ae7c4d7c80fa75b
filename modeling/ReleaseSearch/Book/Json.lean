import ReleaseSearch.Book
import ReleaseSearch.Data.Record
import ReleaseSearch.Json

/-! Books as JSON. Language codes are normalized when a book is read, and nothing else is. -/
namespace ReleaseSearch

def Editions.toJson (e : Editions) : Json :=
  .object (e.entries.map fun entry => (entry.1, .text entry.2))

def Editions.ofData (d : Data) : Except Fault Editions := do
  return Editions.normalized (Assoc.ofList (← d.readTextTable))

namespace Book

open Data

/-- Title, authors and titles by language are always written, all else only when it is there. -/
def toJson (b : Book) : Json :=
  .object <|
    [("title", .text b.title)] ++
    Json.member? "subtitle" .text b.subtitle ++
    Json.member? "series_name" .text b.seriesName ++
    Json.member? "search_title" .text b.searchTitle ++
    [("authors", Json.texts b.authors)] ++
    Json.member? "search_author" .text b.searchAuthor ++
    [("titles_by_language", Editions.toJson b.titlesByLanguage)] ++
    Json.member? "primary_language" .text b.primaryLanguage ++
    Json.member? "isbn_13" .text b.isbn13 ++
    Json.member? "isbn_10" .text b.isbn10

/-- A language in its normal form, none when it is blank. -/
def readLanguage (d : Data) : Except Fault (Option String) := do
  let code ← d.readOption readText
  return (code.map Language.normalize).filter (· ≠ "")

def fields : List (RecordField Book) :=
  [⟨"title", .required, fun b d => return { b with title := ← d.readText }⟩,
   ⟨"subtitle", .defaulted, fun b d => return { b with subtitle := ← d.readOption readText }⟩,
   ⟨"series_name", .defaulted, fun b d => return { b with seriesName := ← d.readOption readText }⟩,
   ⟨"search_title", .defaulted,
    fun b d => return { b with searchTitle := ← d.readOption readText }⟩,
   ⟨"authors", .defaulted, fun b d => return { b with authors := ← d.readTexts }⟩,
   ⟨"search_author", .defaulted,
    fun b d => return { b with searchAuthor := ← d.readOption readText }⟩,
   ⟨"titles_by_language", .defaulted,
    fun b d => return { b with titlesByLanguage := ← Editions.ofData d }⟩,
   ⟨"primary_language", .defaulted,
    fun b d => return { b with primaryLanguage := ← readLanguage d }⟩,
   ⟨"isbn_13", .defaulted, fun b d => return { b with isbn13 := ← d.readOption readText }⟩,
   ⟨"isbn_10", .defaulted, fun b d => return { b with isbn10 := ← d.readOption readText }⟩]

def ofData (d : Data) : Except Fault Book := d.readRecord fields false { title := "" }

end Book

end ReleaseSearch
