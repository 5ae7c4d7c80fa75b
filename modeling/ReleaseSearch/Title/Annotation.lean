import ReleaseSearch.Text.Ascii

/-! Trailing annotations: a last group in parentheses, such as an edition note. -/
namespace ReleaseSearch.Annotation

open Text

def isParenthesis (c : Char) : Bool := c == '(' || c == ')'

/-- What stands before the group that ends the text, read backwards. The group holds no parenthesis
of its own. -/
def beforeGroup? (cs : List Char) : Option (List Char) :=
  match cs.reverse with
  | ')' :: inside =>
    match inside.dropWhile (fun c => !isParenthesis c) with
    | '(' :: before => some before
    | _ => none
  | _ => none

/-- The text before a trailing group, without the blanks that set it off. A line break in what is
kept makes it no title. -/
def kept? (cs : List Char) : Option (List Char) :=
  match beforeGroup? cs with
  | some before =>
    let kept := (before.dropWhile isAsciiBlank).reverse
    if kept.contains '\n' then none else some kept
  | none => none

end ReleaseSearch.Annotation
