import ReleaseSearch.Text.Blank

/-! Identifiers are compared without their punctuation. -/
namespace ReleaseSearch.Isbn

def isSeparator (c : Char) : Bool := Text.isBlank c || c == '-'

/-- The identifier without blanks and hyphens, ASCII letters in capitals, unless nothing is left. -/
def normalize? (raw : String) : Option String :=
  let kept := (raw.toList.filter fun c => !isSeparator c).map Char.toUpper
  if kept.isEmpty then none else some (String.ofList kept)

end ReleaseSearch.Isbn
