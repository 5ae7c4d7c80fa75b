import ReleaseSearch.Data.Choice
import ReleaseSearch.Json
import ReleaseSearch.Plan
import ReleaseSearch.Selection

/-! Selections and strategies as JSON. -/
namespace ReleaseSearch

open Data

namespace Selection

def toJson : Selection → Json
  | .default => .text "default"
  | .all => .text "all"
  | .explicit codes => .object [("explicit", Json.texts codes)]

/-- Codes are kept as they are written. -/
def ofData (d : Data) : Except Fault Selection := do
  match ← d.readChoice with
  | ("default", carried) => readNothing carried; return .default
  | ("all", carried) => readNothing carried; return .all
  | ("explicit", some codes) => return .explicit (← codes.readTexts)
  | _ => throw .mismatch

end Selection

namespace Strategy

def toJson : Strategy → Json
  | .expanded => .text "expanded"
  | .reduced => .text "reduced"

def ofData (d : Data) : Except Fault Strategy := do
  match ← d.readChoice with
  | ("expanded", carried) => readNothing carried; return .expanded
  | ("reduced", carried) => readNothing carried; return .reduced
  | _ => throw .mismatch

end Strategy

end ReleaseSearch
