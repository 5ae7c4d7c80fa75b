import ReleaseSearch.Text.Split
import ReleaseSearch.Web.Percent

/-! Request targets: a path, and a query of names and values. A scheme and an authority may stand in
front of the path, and a fragment behind the query; neither is part of what is asked for. -/
namespace ReleaseSearch.Web

/-- What follows the mark between a scheme and its authority. -/
def afterScheme? : List Char → Option (List Char)
  | ':' :: '/' :: '/' :: rest => some rest
  | _ :: rest => afterScheme? rest
  | [] => none

/-- The path and the query of a target, without what stands around them. -/
def resource (target : String) : List Char :=
  let cs := target.toList.takeWhile (· != '#')
  if cs.head? = some '/' then cs
  else match afterScheme? cs with
    | some rest => rest.dropWhile fun c => c != '/' && c != '?'
    | none => cs

/-- The pieces of the path between slashes, as they are written. -/
def pathSegments (target : String) : List String :=
  (Text.splitOn '/' ((resource target).takeWhile (· != '?'))).map String.ofList

/-- The names and values of the query. Pieces that are empty do not count, and a piece without an
equals sign is a name with an empty value. -/
def queryPairs (target : String) : List (String × String) :=
  let query := ((resource target).dropWhile (· != '?')).drop 1
  ((Text.splitOn '&' query).filter fun piece => !piece.isEmpty).map fun piece =>
    (Percent.decodeFormPart (piece.takeWhile (· != '=')),
      Percent.decodeFormPart ((piece.dropWhile (· != '=')).drop 1))

/-- The value of a name in a query. A name that comes twice has none. -/
def parameter? (pairs : List (String × String)) (name : String) : Option (Option String) :=
  match pairs.filter (·.1 == name) with
  | [] => some none
  | [pair] => some (some pair.2)
  | _ => none

end ReleaseSearch.Web
