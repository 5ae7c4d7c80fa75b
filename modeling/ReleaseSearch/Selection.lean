import ReleaseSearch.Language
import ReleaseSearch.Text.Split

/-! Which languages a search should cover. -/
namespace ReleaseSearch

inductive Selection where
  /-- The configured preference list. -/
  | default
  /-- No restriction. -/
  | all
  /-- An explicit order of preference. -/
  | explicit (codes : List String)
deriving DecidableEq

namespace Selection

/-- A list of codes: without any code the default, with `all` among them no restriction. -/
def ofCodes (codes : List String) : Selection :=
  match Language.normalizeAll codes with
  | none => .all
  | some [] => .default
  | some codes => .explicit codes

/-- The optional list of a request. -/
def ofRequest : Option (List String) → Selection
  | none => .default
  | some codes => ofCodes codes

/-- A list such as `en,hu`. -/
def ofCommaList (list : String) : Selection :=
  ofCodes ((Text.splitOn ',' list.toList).map String.ofList)

end Selection

end ReleaseSearch
