/-! Media types, and which of them announce JSON. -/
namespace ReleaseSearch.Web.MediaType

def isTokenChar (c : Char) : Bool := c.isAlphanum || "!#$%&'*+-.^_`|~".toList.contains c

/-- A character that may stand between quotes. -/
def isQuotedChar (c : Char) : Bool := 0x20 ≤ c.toNat && c.toNat < 0x7F

/-- Behind a quoted value: blanks, then the next parameter or the end. -/
def afterQuoted? : List Char → Option (List Char)
  | [] => some []
  | ';' :: rest => some rest
  | ' ' :: rest => afterQuoted? rest
  | _ => none

/-- One parameter behind its semicolon, and what follows the semicolon behind it. A quoted value has
at least one character, so a quote right behind the opening one belongs to the value. -/
def parameter? (cs : List Char) : Option (List Char) :=
  let name := cs.takeWhile fun c => isTokenChar c
  match cs.dropWhile fun c => isTokenChar c with
  | '=' :: '"' :: c :: rest =>
    match rest.dropWhile fun c => isQuotedChar c && c != '"' with
    | '"' :: rest => if name.isEmpty || !isQuotedChar c then none else afterQuoted? rest
    | _ => none
  | '=' :: rest =>
    let value := rest.takeWhile fun c => isTokenChar c
    if name.isEmpty then none
    else match rest.dropWhile fun c => isTokenChar c with
      | [] => some []
      | ';' :: rest => if value.isEmpty then none else some rest
      | _ => none
  | _ => none

/-- Whether parameters stand here up to the end, read in at most so many steps. -/
def areParameters : Nat → List Char → Bool
  | 0, _ => false
  | _ + 1, [] => true
  | steps + 1, cs =>
    let cs := cs.dropWhile (· == ' ')
    cs.isEmpty || match parameter? cs with
      | some rest => areParameters steps rest
      | none => false

/-- The part of a subtype before its last plus sign, and the suffix behind it. A plus sign in front
is none. -/
def splitSuffix (subtype : List Char) : List Char × Option (List Char) :=
  let suffix := (subtype.reverse.takeWhile (· != '+')).reverse
  match (subtype.reverse.dropWhile (· != '+')).reverse.dropLast with
  | [] => (subtype, none)
  | base => (base, some suffix)

/-- Whether the type is JSON, or one that is written as JSON. -/
def isJson (mediaType : String) : Bool :=
  let cs := mediaType.toList.map Char.toLower
  let type := cs.takeWhile fun c => isTokenChar c
  match cs.dropWhile fun c => isTokenChar c with
  | '/' :: rest =>
    let subtype := rest.takeWhile fun c => isTokenChar c
    let (base, suffix) := splitSuffix subtype
    let wellFormed := match rest.dropWhile fun c => isTokenChar c with
      | [] => true
      | ';' :: parameters => !subtype.isEmpty && areParameters (parameters.length + 1) parameters
      | _ => false
    wellFormed && type == "application".toList &&
      (base == "json".toList || suffix == some "json".toList)
  | _ => false

end ReleaseSearch.Web.MediaType
