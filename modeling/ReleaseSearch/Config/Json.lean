import ReleaseSearch.Config
import ReleaseSearch.Data.Record
import ReleaseSearch.Json

/-! Configurations as data, and as JSON. Every setting has a default. Only the path of the catalog
may be null. -/
namespace ReleaseSearch

open Data

namespace Rules

def toJson (r : Rules) : Json :=
  .object [("max_short_subtitle_words", Json.natural r.maxShortSubtitleWords),
    ("connecting_phrases", Json.texts r.connectingPhrases),
    ("series_markers", Json.texts r.seriesMarkers),
    ("name_suffixes", Json.texts r.nameSuffixes)]

def fields : List (RecordField Rules) :=
  [⟨"max_short_subtitle_words", .defaulted,
    fun r d => return { r with maxShortSubtitleWords := ← d.readNatural UInt64.size }⟩,
   ⟨"connecting_phrases", .defaulted,
    fun r d => return { r with connectingPhrases := ← d.readTexts }⟩,
   ⟨"series_markers", .defaulted, fun r d => return { r with seriesMarkers := ← d.readTexts }⟩,
   ⟨"name_suffixes", .defaulted, fun r d => return { r with nameSuffixes := ← d.readTexts }⟩]

def ofData (ignoreSurplus : Bool) (d : Data) : Except Fault Rules :=
  d.readRecord fields ignoreSurplus {}

end Rules

def IpAddress.ofData (d : Data) : Except Fault IpAddress := do
  match IpAddress.ofText? (← d.readText) with
  | some address => return address
  | none => throw .mismatch

namespace ServerConfig

def toJson (c : ServerConfig) : Json :=
  .object [("host", .text c.host.render), ("port", Json.natural c.port.toNat)]

def fields : List (RecordField ServerConfig) :=
  [⟨"host", .defaulted, fun c d => return { c with host := ← IpAddress.ofData d }⟩,
   ⟨"port", .defaulted,
    fun c d => return { c with port := UInt16.ofNat (← d.readNatural UInt16.size) }⟩]

def ofData (ignoreSurplus : Bool) (d : Data) : Except Fault ServerConfig :=
  d.readRecord fields ignoreSurplus {}

end ServerConfig

namespace SearchConfig

def toJson (c : SearchConfig) : Json :=
  .object <|
    [("default_languages", Json.texts c.defaultLanguages),
     ("primary_language", .text c.primaryLanguage)] ++
    Json.member? "catalog_path" .text c.catalogPath

def fields : List (RecordField SearchConfig) :=
  [⟨"default_languages", .defaulted,
    fun c d => return { c with defaultLanguages := ← d.readTexts }⟩,
   ⟨"primary_language", .defaulted,
    fun c d => return { c with primaryLanguage := ← d.readText }⟩,
   ⟨"catalog_path", .defaulted,
    fun c d => return { c with catalogPath := ← d.readOption readText }⟩]

def ofData (ignoreSurplus : Bool) (d : Data) : Except Fault SearchConfig :=
  d.readRecord fields ignoreSurplus {}

end SearchConfig

namespace Config

def toJson (c : Config) : Json :=
  .object [("server", c.server.toJson), ("search", c.search.toJson),
    ("simplifier", c.simplifier.toJson)]

def fields (ignoreSurplus : Bool) : List (RecordField Config) :=
  [⟨"server", .defaulted,
    fun c d => return { c with server := ← ServerConfig.ofData ignoreSurplus d }⟩,
   ⟨"search", .defaulted,
    fun c d => return { c with search := ← SearchConfig.ofData ignoreSurplus d }⟩,
   ⟨"simplifier", .defaulted,
    fun c d => return { c with simplifier := ← Rules.ofData ignoreSurplus d }⟩]

def ofData (ignoreSurplus : Bool) (d : Data) : Except Fault Config :=
  d.readRecord (fields ignoreSurplus) ignoreSurplus {}

end Config

end ReleaseSearch
