import ReleaseSearch.Data.Record
import ReleaseSearch.Json
import ReleaseSearch.Plan

/-! Plans and strategies as JSON. -/
namespace ReleaseSearch

open Data

def languagesToJson : Option (List String) → Json := Json.ofOption Json.texts

def readLanguages (d : Data) : Except Fault (Option (List String)) := d.readOption readTexts

namespace Variant

def toJson (v : Variant) : Json :=
  .object [("query", .text v.query), ("title", .text v.title),
    ("languages", languagesToJson v.languages)]

def fields : List (RecordField Variant) :=
  [⟨"query", .required, fun v d => return { v with query := ← d.readText }⟩,
   ⟨"title", .required, fun v d => return { v with title := ← d.readText }⟩,
   ⟨"languages", .nullable, fun v d => return { v with languages := ← readLanguages d }⟩]

def ofData (d : Data) : Except Fault Variant := d.readRecord fields false ⟨"", "", none⟩

end Variant

namespace TitleGroup

def toJson (g : TitleGroup) : Json :=
  .object [("title", .text g.title), ("languages", languagesToJson g.languages)]

def fields : List (RecordField TitleGroup) :=
  [⟨"title", .required, fun g d => return { g with title := ← d.readText }⟩,
   ⟨"languages", .nullable, fun g d => return { g with languages := ← readLanguages d }⟩]

def ofData (d : Data) : Except Fault TitleGroup := d.readRecord fields false ⟨"", none⟩

end TitleGroup

def Query.toJson (q : Query) : Json :=
  .object [("query", .text q.query), ("languages", languagesToJson q.languages)]

namespace Plan

/-- The manual query and the author are written only when they are there. -/
def toJson (p : Plan) : Json :=
  .object <|
    [("languages", languagesToJson p.languages),
     ("isbn_candidates", Json.texts p.isbnCandidates)] ++
    Json.member? "manual_query" .text p.manualQuery ++
    Json.member? "author" .text p.author ++
    [("title_variants", .list (p.titleVariants.map Variant.toJson)),
     ("grouped_title_variants", .list (p.groupedTitleVariants.map TitleGroup.toJson))]

def fields : List (RecordField Plan) :=
  [⟨"languages", .nullable, fun p d => return { p with languages := ← readLanguages d }⟩,
   ⟨"isbn_candidates", .required, fun p d => return { p with isbnCandidates := ← d.readTexts }⟩,
   ⟨"manual_query", .defaulted,
    fun p d => return { p with manualQuery := ← d.readOption readText }⟩,
   ⟨"author", .defaulted, fun p d => return { p with author := ← d.readOption readText }⟩,
   ⟨"title_variants", .required,
    fun p d => return { p with titleVariants := ← d.readList Variant.ofData }⟩,
   ⟨"grouped_title_variants", .required,
    fun p d => return { p with groupedTitleVariants := ← d.readList TitleGroup.ofData }⟩]

def ofData (d : Data) : Except Fault Plan :=
  d.readRecord fields false
    { languages := none, isbnCandidates := [], titleVariants := [], groupedTitleVariants := [] }

end Plan

end ReleaseSearch
