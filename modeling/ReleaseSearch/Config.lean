import ReleaseSearch.Config.IpAddress
import ReleaseSearch.Rules
import ReleaseSearch.Text.Ascii

/-! The configuration and the conditions on it. -/
namespace ReleaseSearch

structure ServerConfig where
  host : IpAddress := .v4 0 0 0 0
  port : UInt16 := 8080
deriving DecidableEq

structure SearchConfig where
  /-- The languages of a request that names none. -/
  defaultLanguages : List String := ["en"]
  /-- The language of metadata that declare none. -/
  primaryLanguage : String := "en"
  /-- The file of the catalog to serve. -/
  catalogPath : Option String := none
deriving DecidableEq

structure Config where
  server : ServerConfig := {}
  search : SearchConfig := {}
  simplifier : Rules := {}
deriving DecidableEq

namespace Config

/-- What makes a configuration unusable. -/
inductive Violation where
  | zeroPort
  | noDefaultLanguage
  | blankDefaultLanguage
  | noPrimaryLanguage
  | noSubtitleWords
  | noSeriesMarker
deriving DecidableEq

def Violation.text : Violation → String
  | .zeroPort => "server.port cannot be 0"
  | .noDefaultLanguage =>
    "search.default_languages cannot be empty (use [\"all\"] for unrestricted)"
  | .blankDefaultLanguage => "search.default_languages cannot contain blank codes"
  | .noPrimaryLanguage => "search.primary_language must be a language code"
  | .noSubtitleWords => "simplifier.max_short_subtitle_words must be at least 1"
  | .noSeriesMarker => "simplifier.series_markers cannot be empty"

inductive Error where
  | fileNotFound (path : String)
  /-- The text, the file or a variable cannot be read. -/
  | unreadable
  | invalid (violation : Violation)
deriving DecidableEq

def Error.message : Error → String
  | .fileNotFound path => "Configuration file not found: " ++ path
  | .unreadable => "Failed to parse configuration"
  | .invalid violation => "Configuration validation failed: " ++ violation.text

/-- Whether a primary language names no language. -/
def namesNoLanguage (code : String) : Bool :=
  let code := Text.trim code
  code == "" || Text.sameLetters code "all"

/-- The first condition that does not hold. -/
def violation? (c : Config) : Option Violation :=
  if c.server.port = 0 then some .zeroPort
  else if c.search.defaultLanguages = [] then some .noDefaultLanguage
  else if c.search.defaultLanguages.any (fun code => Text.trim code == "") then
    some .blankDefaultLanguage
  else if namesNoLanguage c.search.primaryLanguage then some .noPrimaryLanguage
  else if c.simplifier.maxShortSubtitleWords = 0 then some .noSubtitleWords
  else if c.simplifier.seriesMarkers = [] then some .noSeriesMarker
  else none

def validate (c : Config) : Except Error Unit :=
  match c.violation? with
  | some violation => .error (.invalid violation)
  | none => .ok ()

end Config

end ReleaseSearch
