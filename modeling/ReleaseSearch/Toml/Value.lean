import ReleaseSearch.Data

/-! Values of configuration texts. -/
namespace ReleaseSearch.Toml

inductive Value where
  | text (value : String)
  | integer (value : Int)
  /-- A number with a fraction or an exponent, infinity or no number, as it is written. -/
  | float (written : String)
  | boolean (value : Bool)
  /-- A date, a time or both, as it is written. -/
  | dateTime (written : String)
  | array (items : List Value)
  | table (entries : List (String × Value))

/-- Tables of values. -/
abbrev Table := List (String × Value)

namespace Value

mutual

/-- Puts one value over another. Tables are joined, and any other value hides what is under it. -/
def overlay : Value → Value → Value
  | .table entries, base =>
    match base with
    | .table under => .table (overlayEntries entries under)
    | _ => .table entries
  | value, _ => value

/-- Puts the entries of one table over those of another. -/
def overlayEntries : Table → Table → Table
  | [], under => under
  | (key, value) :: entries, under =>
    overlayEntries entries <|
      if under.any (·.1 == key) then
        under.map fun entry => if entry.1 == key then (key, value.overlay entry.2) else entry
      else under ++ [(key, value)]

end

mutual

/-- The value as data. No setting takes a float, so its size is not kept; a date is a table that has
no setting in it. -/
def toData : Value → Data
  | .text s => .text (some s)
  | .integer n => .number (some ⟨n < 0, n.natAbs, 0, true⟩)
  | .float _ => .number (some ⟨false, 0, 0, false⟩)
  | .boolean b => .bool b
  | .dateTime s => .table [(some "date-time", .text (some s))] true
  | .array items => .list (itemsToData items) true
  | .table entries => .table (entriesToData entries) true

def itemsToData : List Value → List Data
  | [] => []
  | item :: items => item.toData :: itemsToData items

def entriesToData : Table → List (Option String × Data)
  | [] => []
  | (key, value) :: entries => (some key, value.toData) :: entriesToData entries

end

end Value

end ReleaseSearch.Toml
