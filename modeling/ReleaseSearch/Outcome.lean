import ReleaseSearch.Text.Blank

/-! What a simplification answers. -/
namespace ReleaseSearch

inductive Outcome where
  /-- A cleaner text to search for. -/
  | simplified (text : String)
  /-- Nothing to improve: the given text is searched as it is. -/
  | unchanged
deriving DecidableEq

namespace Outcome

/-- A candidate counts when, trimmed, it is not empty and not the trimmed text it was made from. -/
def ofCandidate (candidate given : String) : Outcome :=
  let text := Text.trim candidate
  if text = "" ∨ text = Text.trim given then .unchanged else .simplified text

def toOption : Outcome → Option String
  | .simplified text => some text
  | .unchanged => none

def isSimplified (o : Outcome) : Bool := o.toOption.isSome

/-- The simplified text, or the given one when nothing changed. -/
def textOr (o : Outcome) (given : String) : String := o.toOption.getD given

end Outcome

end ReleaseSearch
