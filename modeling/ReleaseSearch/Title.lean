import ReleaseSearch.Outcome
import ReleaseSearch.Simplifier
import ReleaseSearch.Text.Case
import ReleaseSearch.Title.Annotation
import ReleaseSearch.Title.SeriesMarker
import ReleaseSearch.Title.Subtitle

/-! Simplifying a title. Three rules are tried in this order: the title ends with the known subtitle,
the title begins with the known series, the title ends with an annotation. -/
namespace ReleaseSearch

namespace Title

/-- The text around the first colon that a space follows. -/
def splitAtColon : List Char → Option (List Char × List Char)
  | ':' :: ' ' :: rest => some ([], rest)
  | c :: rest => (splitAtColon rest).map fun parts => (c :: parts.1, parts.2)
  | [] => none

/-- The part before the first colon and the part after it, which is trimmed. -/
def parts? (title : String) : Option (String × String) :=
  (splitAtColon title.toList).map fun parts =>
    (String.ofList parts.1, Text.trim (String.ofList parts.2))

def withoutAnnotation (title : String) : Outcome :=
  match Annotation.kept? title.toList with
  | some kept => Outcome.ofCandidate (String.ofList kept) title
  | none => .unchanged

/-- Whether two texts agree but for case and surrounding blanks. -/
def sameName (a b : String) : Bool :=
  Text.lower (Text.trim a) == Text.lower (Text.trim b)

/-- The title ends with the known subtitle. A bare place in a series says too little to search for,
a descriptive subtitle says too much. -/
def ofSubtitle (rules : Rules) (title main subtitle : String) : Outcome :=
  if rules.isSeriesMarker subtitle then .unchanged
  else if rules.isDescriptive subtitle then Outcome.ofCandidate main title
  else Outcome.ofCandidate subtitle title

end Title

open Title in
/-- Simplifies a title whose subtitle and series may be known. -/
def Simplifier.simplifyTitle (s : Simplifier) (title : String)
    (subtitle series : Option String) : Outcome :=
  let title := Text.trim title
  match parts? title with
  | some (main, rest) =>
    if subtitle.map Text.trim = some rest then ofSubtitle s.rules title main rest
    else if series.any (sameName main) then Outcome.ofCandidate rest title
    else withoutAnnotation title
  | none => withoutAnnotation title

end ReleaseSearch
