import ReleaseSearch.Assoc
import ReleaseSearch.Language

/-! The titles of a book's editions. They are kept under the language codes as these were written,
and found under any spelling of the code. -/
namespace ReleaseSearch

/-- From language codes to titles. -/
abbrev Editions := Assoc String

namespace Editions

/-- The title of a language: under the normal form of its code, or else under a code that has this
normal form. -/
def find? (e : Editions) (language : String) : Option String :=
  let code := Language.normalize language
  match e.get? code with
  | some title => some title
  | none => (e.entries.find? fun entry => Language.normalize entry.1 == code).map Prod.snd

/-- Every code in its normal form; blank ones are dropped. -/
def normalized (e : Editions) : Editions :=
  Assoc.ofList
    ((e.entries.map fun entry => (Language.normalize entry.1, entry.2)).filter (·.1 ≠ ""))

end Editions

end ReleaseSearch
