import ReleaseSearch.Text.Case
import ReleaseSearch.Text.Blank

/-! Language codes and lists of them. Codes are compared trimmed and in small letters. -/
namespace ReleaseSearch.Language

/-- The form in which codes are compared and kept. -/
def normalize (code : String) : String := Text.lower (Text.trim code)

/-- The code that asks for a search without restriction. -/
def all : String := "all"

/-- Puts a code behind the others, unless it is there already. -/
def addCode (codes : List String) (code : String) : List String :=
  if codes.contains code then codes else codes ++ [code]

/-- Normalizes a list of codes: blank ones are dropped, repeated ones count once, where they came
first. A list that asks for all languages has no normal form. -/
def normalizeAll (codes : List String) : Option (List String) :=
  let normal := (codes.map normalize).filter (· ≠ "")
  if normal.contains all then none else some (normal.foldl addCode [])

end ReleaseSearch.Language
