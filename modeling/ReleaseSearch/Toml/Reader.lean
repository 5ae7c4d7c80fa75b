import ReleaseSearch.Toml.Number
import ReleaseSearch.Toml.Text
import ReleaseSearch.Toml.Tree

/-! Reading TOML text. -/
namespace ReleaseSearch.Toml

/-- Keys may have fewer parts, and values fewer levels, than this. -/
def depthLimit : Nat := 80

def isBareKeyChar (c : Char) : Bool := c.isAlphanum || c == '_' || c == '-'

/-- One part of a key. -/
def keyPart? : List Char → Option (String × List Char)
  | '"' :: rest => (basic? rest).map fun (text, rest) => (String.ofList text, rest)
  | '\'' :: rest => (literal? rest).map fun (text, rest) => (String.ofList text, rest)
  | cs =>
    let part := cs.takeWhile isBareKeyChar
    if part.isEmpty then none else some (String.ofList part, cs.dropWhile isBareKeyChar)

/-- The parts of a key from here on, in at most so many steps. -/
def keyParts? : Nat → List Char → Option (List String × List Char)
  | 0, _ => none
  | steps + 1, cs => do
    let (part, rest) ← keyPart? (skipSpace cs)
    match skipSpace rest with
    | '.' :: rest =>
      let (more, rest) ← keyParts? steps rest
      return (part :: more, rest)
    | rest => return ([part], rest)

/-- A key, as the parts before the last and the last one. -/
def key? (cs : List Char) : Option ((List String × String) × List Char) := do
  let (parts, rest) ← keyParts? (cs.length + 1) cs
  if parts.length < depthLimit then return ((parts.dropLast, ← parts.getLast?), rest) else none

/-- A value that holds no other values. -/
def scalar? (cs : List Char) : Option (Value × List Char) :=
  match cs with
  | 't' :: 'r' :: 'u' :: 'e' :: rest => some (.boolean true, rest)
  | 'f' :: 'a' :: 'l' :: 's' :: 'e' :: rest => some (.boolean false, rest)
  | _ =>
    match quoted? cs with
    | some (text, rest) => some (.text (String.ofList text), rest)
    | none => ((dateTime? cs).or (float? cs)).or (integer? cs)

/-- The items of an array and its end. A comma may stand behind the last item. -/
def arrayItems? (item : List Char → Option (Value × List Char)) :
    Nat → List Char → Option (List Value × List Char)
  | 0, _ => none
  | steps + 1, cs => do
    match ← skipLines? false cs with
    | ']' :: rest => return ([], rest)
    | cs =>
      let (v, rest) ← item cs
      match ← skipLines? false rest with
      | ',' :: rest =>
        let (more, rest) ← arrayItems? item steps rest
        return (v :: more, rest)
      | ']' :: rest => return ([v], rest)
      | _ => none

/-- A key, an equals sign and a value. -/
def pair? (item : List Char → Option (Value × List Char)) (cs : List Char) :
    Option ((List String × String × Value) × List Char) := do
  let ((path, key), rest) ← key? cs
  match rest with
  | '=' :: rest =>
    let (v, rest) ← item (skipSpace rest)
    return ((path, key, v), rest)
  | _ => none

/-- The pairs of an inline table and its end, put into the entries read so far. -/
def inlinePairs? (item : List Char → Option (Value × List Char)) :
    Nat → Entries → List Char → Option (Entries × List Char)
  | 0, _, _ => none
  | steps + 1, entries, cs => do
    let ((path, key, v), rest) ← pair? item cs
    let entries ← entries.insert path key v .header
    match skipSpace rest with
    | ',' :: rest => inlinePairs? item steps entries rest
    | '\x7d' :: rest => return (entries, rest)
    | _ => none

/-- An inline table behind its opening brace. -/
def inlineTable? (item : List Char → Option (Value × List Char)) (cs : List Char) :
    Option (Value × List Char) :=
  match skipSpace cs with
  | '\x7d' :: rest => some (.table [], rest)
  | _ => (inlinePairs? item (cs.length + 1) [] cs).map fun (entries, rest) =>
    (.table entries.toTable, rest)

/-- A value, with at most so many levels of arrays and inline tables in it. -/
def value? : Nat → List Char → Option (Value × List Char)
  | depth + 1, '[' :: rest =>
    (arrayItems? (value? depth) (rest.length + 1) rest).map fun (items, rest) =>
      (.array items, rest)
  | depth + 1, '\x7b' :: rest => inlineTable? (value? depth) rest
  | _, cs => scalar? cs

/-- What has been read of a text, and the header under which it goes on. -/
structure Reading where
  entries : Entries := []
  here : List String := []

/-- A header of either kind, behind its first bracket. -/
def header? (r : Reading) (cs : List Char) : Option (Reading × List Char) :=
  match cs with
  | '[' :: rest => do
    match ← key? rest with
    | ((path, key), ']' :: ']' :: rest) =>
      return (⟨← r.entries.openNext path key, path ++ [key]⟩, ← lineEnd? false rest)
    | _ => none
  | _ => do
    match ← key? cs with
    | ((path, key), ']' :: rest) =>
      return (⟨← r.entries.openTable path key, path ++ [key]⟩, ← lineEnd? false rest)
    | _ => none

/-- Reads lines up to the end of the text, in at most so many steps. -/
def lines? : Nat → Reading → List Char → Option Reading
  | 0, _, _ => none
  | steps + 1, r, cs => do
    match skipSpace cs with
    | [] => return r
    | '#' :: rest => lines? steps r (← lineEnd? true rest)
    | '\n' :: rest => lines? steps r rest
    | '\r' :: '\n' :: rest => lines? steps r rest
    | '[' :: rest =>
      let (r, rest) ← header? r rest
      lines? steps r rest
    | cs =>
      let ((path, key, v), rest) ← pair? (value? (depthLimit - 1)) cs
      let entries ← r.entries.insertIn r.here path key v
      lines? steps ⟨entries, r.here⟩ (← lineEnd? false rest)

/-- The root table of a text. A byte order mark in front is no part of it. -/
def read? (text : String) : Option Table :=
  let cs := match text.toList with
    | '\ufeff' :: rest => rest
    | cs => cs
  (lines? (cs.length + 1) {} cs).map fun r => r.entries.toTable

end ReleaseSearch.Toml
