import ReleaseSearch.Text.Blank
import ReleaseSearch.Text.Utf8
import ReleaseSearch.Toml.Text
import ReleaseSearch.Toml.Value

/-! Settings from environment variables. -/
namespace ReleaseSearch.Environment

open Toml (Value Table)

/-! The values of variables: truth values, numbers, quoted texts, arrays and tables. What is none of
these from its first to its last character is a text. -/

def isSpace (c : Char) : Bool := c == ' ' || ['\t', '\n', '\x0c', '\r'].contains c

def skipSpace (cs : List Char) : List Char := cs.dropWhile isSpace

def isSeparator (c : Char) : Bool := [',', '\x7b', '\x7d', '[', ']'].contains c

/-- Whether the text is a number with a decimal point. -/
def isFloat (cs : List Char) : Bool :=
  let unsigned := match cs with
    | '+' :: rest => rest
    | '-' :: rest => rest
    | rest => rest
  let whole := unsigned.takeWhile Char.isDigit
  match unsigned.dropWhile Char.isDigit with
  | '.' :: rest =>
    let fraction := rest.takeWhile Char.isDigit
    (!whole.isEmpty || !fraction.isEmpty) && isExponent (rest.dropWhile Char.isDigit)
  | _ => false
where
  isExponent : List Char → Bool
    | [] => true
    | e :: rest =>
      let digits := match rest with
        | '+' :: rest => rest
        | '-' :: rest => rest
        | rest => rest
      (e == 'e' || e == 'E') && !digits.isEmpty && digits.all Char.isDigit

/-- A whole number that 64 bits hold, without a sign or with one. -/
def integer? (cs : List Char) : Option Int :=
  let (negative, digits) := match cs with
    | '-' :: rest => (true, rest)
    | '+' :: rest => (false, rest)
    | rest => (false, rest)
  let n := Text.ofDigits 10 digits
  if digits.isEmpty || !digits.all Char.isDigit then none
  else if negative then if n ≤ 0x8000000000000000 then some (-(n : Int)) else none
  else if n < UInt64.size then some (n : Int) else none

/-- A value that stands without quotes. -/
def bare (cs : List Char) : Value :=
  let cs := Text.stripWhile Text.isBlank cs
  if isFloat cs then .float (String.ofList cs)
  else match integer? cs with
    | some n => .integer n
    | none => .text (String.ofList cs)

/-- A quoted text, up to its closing quote. In front of the first escape it keeps as many bytes as
there are characters; where these bytes end within a character it is no quoted text. -/
def quoted? (cs : List Char) : Option (List Char × List Char) := do
  let (text, rest) ← Toml.basic? cs
  let plain := cs.takeWhile fun c => c != '\\' && c != '"'
  if cs[plain.length]? = some '\\' then
    let kept ← Text.Utf8.takeBytes? plain.length plain
    return (kept ++ text.drop plain.length, rest)
  else return (text, rest)

def isKeyChar (c : Char) : Bool := c.isAlphanum || c == '_' || c == '-'

/-- A key of a table. -/
def key? : List Char → Option (String × List Char)
  | '"' :: rest => (quoted? rest).map fun (text, rest) => (String.ofList text, rest)
  | cs =>
    let key := cs.takeWhile isKeyChar
    if key.isEmpty then none else some (String.ofList key, cs.dropWhile isKeyChar)

/-- A later entry takes the place of an earlier one with its key. -/
def lastEntries (entries : Table) : Table :=
  entries.foldl (fun kept entry => kept.filter (·.1 ≠ entry.1) ++ [entry]) []

mutual

/-- A value and the blanks around it, in at most so many steps. -/
def value? : Nat → List Char → Option (Value × List Char)
  | 0, _ => none
  | steps + 1, cs => do
    let (v, rest) ← match skipSpace cs with
      | 't' :: 'r' :: 'u' :: 'e' :: rest => some (.boolean true, rest)
      | 'f' :: 'a' :: 'l' :: 's' :: 'e' :: rest => some (.boolean false, rest)
      | '[' :: rest => do
        let (items, rest) ← items? steps rest
        some (.array items, rest)
      | '\x7b' :: rest => do
        let (entries, rest) ← entries? steps rest
        some (.table (lastEntries entries), rest)
      | '"' :: rest => do
        let (text, rest) ← quoted? rest
        some (.text (String.ofList text), rest)
      | '\'' :: c :: '\'' :: rest => some (.text (String.ofList [c]), rest)
      | '\'' :: _ => none
      | cs => some (bare (cs.takeWhile fun c => !isSeparator c),
          cs.dropWhile fun c => !isSeparator c)
    return (v, skipSpace rest)

/-- The items of an array and its end. -/
def items? : Nat → List Char → Option (List Value × List Char)
  | 0, _ => none
  | _ + 1, ']' :: rest => some ([], rest)
  | steps + 1, cs => do
    let (v, rest) ← value? steps cs
    match rest with
    | ',' :: rest =>
      let (more, rest) ← items? steps rest
      return (v :: more, rest)
    | ']' :: rest => return ([v], rest)
    | _ => none

/-- The entries of a table and its end. -/
def entries? : Nat → List Char → Option (Table × List Char)
  | 0, _ => none
  | _ + 1, '\x7d' :: rest => some ([], rest)
  | steps + 1, cs => do
    let (key, rest) ← key? (skipSpace cs)
    match skipSpace rest with
    | '=' :: rest =>
      let (v, rest) ← value? steps rest
      match rest with
      | ',' :: rest =>
        let (more, rest) ← entries? steps rest
        return ((key, v) :: more, rest)
      | '\x7d' :: rest => return ([(key, v)], rest)
      | _ => none
    | _ => none

end

/-- The value of a variable. A text that is no value as a whole is kept with its blanks. -/
def readValue (text : String) : Value :=
  match value? (2 * text.length + 2) text.toList with
  | some (v, []) => v
  | _ => .text text

/-! The names of variables. -/

/-- Variables of this name and no other are settings, in letters of either case. -/
def marker : String := "BOOKSEEK_"

/-- Two underscores, or a period, lead from a table to a key in it. -/
def splitParts : List Char → List (List Char)
  | [] => [[]]
  | '_' :: '_' :: rest => [] :: splitParts rest
  | c :: rest =>
    if c = '.' then [] :: splitParts rest
    else match splitParts rest with
      | part :: parts => (c :: part) :: parts
      | [] => [[c]]

/-- The keys that a variable names, from the outermost table on. A part without letters makes it no
setting. -/
def keys? (name : String) : Option (List String) :=
  let cs := (Text.trim name).toList
  let start := marker.toList
  if (cs.take start.length).map Char.toUpper = start then
    let parts := splitParts (Text.stripWhile Text.isBlank ((cs.drop start.length).map Char.toLower))
    if parts.any List.isEmpty then none else some (parts.map String.ofList)
  else none

/-- The table that holds one value, under the given keys. -/
def nest (keys : List String) (v : Value) : Value :=
  keys.foldr (fun key inner => .table [(key, inner)]) v

/-- The settings of an environment; a later variable is put over an earlier one. -/
def settings (vars : List (String × String)) : Value :=
  vars.foldl (fun settings (name, text) =>
    match keys? name with
    | some keys => (nest keys (readValue text)).overlay settings
    | none => settings) (.table [])

end ReleaseSearch.Environment
