import ReleaseSearch.Data
import ReleaseSearch.Json.Magnitude
import ReleaseSearch.Text.Digits

/-! Reading JSON text. The reader goes on to the first place where the text is no JSON, and leaves
what it has read up to there. -/
namespace ReleaseSearch.Json

def isSpace (c : Char) : Bool := c == ' ' || c == '\t' || c == '\n' || c == '\r'

def skipSpace (cs : List Char) : List Char := cs.dropWhile isSpace

/-! Quoted text: characters that stand for themselves, and code units named by an escape. -/

inductive Piece where
  | char (c : Char)
  | unit (n : Nat)

/-- The code unit of four hexadecimal digits. -/
def hex4? (a b c d : Char) : Option Nat :=
  let digits := [a, b, c, d]
  if digits.all Text.isHexDigit then some (Text.ofDigits 16 digits) else none

/-- The character of a one-letter escape. -/
def escaped? : Char → Option Char
  | '"' => some '"'
  | '\\' => some '\\'
  | '/' => some '/'
  | 'b' => some '\x08'
  | 'f' => some '\x0c'
  | 'n' => some '\n'
  | 'r' => some '\r'
  | 't' => some '\t'
  | _ => none

/-- Reads up to the closing quote. -/
def pieces? : List Char → Option (List Piece × List Char)
  | [] => none
  | '"' :: rest => some ([], rest)
  | '\\' :: 'u' :: a :: b :: c :: d :: rest => do
    let n ← hex4? a b c d
    let (more, rest) ← pieces? rest
    return (.unit n :: more, rest)
  | '\\' :: e :: rest => do
    let c ← escaped? e
    let (more, rest) ← pieces? rest
    return (.char c :: more, rest)
  | c :: rest =>
    if c == '\\' || c.toNat < 0x20 then none
    else do
      let (more, rest) ← pieces? rest
      return (.char c :: more, rest)

def isHighSurrogate (n : Nat) : Bool := 0xD800 ≤ n && n < 0xDC00

def isLowSurrogate (n : Nat) : Bool := 0xDC00 ≤ n && n < 0xE000

/-- Joins code units to characters, unless a surrogate is without its other half. -/
def assemble? : List Piece → Option (List Char)
  | [] => some []
  | .char c :: rest => (assemble? rest).map (c :: ·)
  | .unit high :: .unit low :: rest =>
    if isHighSurrogate high then
      if isLowSurrogate low then
        (assemble? rest).map
          (Char.ofNat (0x10000 + (high - 0xD800) * 0x400 + (low - 0xDC00)) :: ·)
      else none
    else if isLowSurrogate high then none
    else (assemble? (.unit low :: rest)).map (Char.ofNat high :: ·)
  | .unit n :: rest =>
    if isHighSurrogate n || isLowSurrogate n then none
    else (assemble? rest).map (Char.ofNat n :: ·)

/-- The text behind an opening quote. -/
def quoted? (cs : List Char) : Option (Option String × List Char) :=
  (pieces? cs).map fun found => ((assemble? found.1).map String.ofList, found.2)

/-! Numbers. -/

/-- One or more digits. -/
def digits? (cs : List Char) : Option (List Char × List Char) :=
  let digits := cs.takeWhile Char.isDigit
  if digits.isEmpty then none else some (digits, cs.dropWhile Char.isDigit)

/-- Digits without a needless zero in front. -/
def integer? (cs : List Char) : Option (List Char × List Char) := do
  let (digits, rest) ← digits? cs
  if digits.head? = some '0' && 1 < digits.length then none else return (digits, rest)

/-- A fraction, which may be missing. -/
def fraction? : List Char → Option (List Char × List Char)
  | '.' :: rest => digits? rest
  | rest => some ([], rest)

/-- An exponent, which may be missing. -/
def exponent? : List Char → Option (Option Int × List Char)
  | c :: rest =>
    if c == 'e' || c == 'E' then
      let (negative, rest) := match rest with
        | '-' :: rest => (true, rest)
        | '+' :: rest => (false, rest)
        | rest => (false, rest)
      (digits? rest).map fun (digits, rest) =>
        let n : Int := Text.ofDigits 10 digits
        (some (if negative then -n else n), rest)
    else some (none, c :: rest)
  | [] => some (none, [])

/-- The number behind the sign, unless it is too large. -/
def unsigned? (negative : Bool) (cs : List Char) : Option (Option Numeral × List Char) := do
  let (whole, rest) ← integer? cs
  let (fraction, rest) ← fraction? rest
  let (exponent, rest) ← exponent? rest
  if isSmallEnough whole fraction (exponent.getD 0) then
    return (some ⟨negative, Text.ofDigits 10 (whole ++ fraction),
      exponent.getD 0 - fraction.length, fraction.isEmpty && exponent.isNone⟩, rest)
  else return (none, rest)

def numeral? : List Char → Option (Option Numeral × List Char)
  | '-' :: rest => unsigned? true rest
  | cs => unsigned? false cs

/-! Values. The text left behind a broken value is of no use and is given as empty. -/

/-- A value that is neither list nor object. -/
def scalar : List Char → Data × List Char
  | 'n' :: 'u' :: 'l' :: 'l' :: rest => (.null, rest)
  | 't' :: 'r' :: 'u' :: 'e' :: rest => (.bool true, rest)
  | 'f' :: 'a' :: 'l' :: 's' :: 'e' :: rest => (.bool false, rest)
  | '"' :: rest =>
    match quoted? rest with
    | some (value, rest) => (.text value, rest)
    | none => (.broken, [])
  | cs =>
    match numeral? cs with
    | some (n, rest) => (.number n, rest)
    | none => (.broken, [])

mutual

/-- Reads a value that begins here, in at most so many steps. -/
def value : Nat → List Char → Data × List Char
  | 0, _ => (.broken, [])
  | steps + 1, '[' :: rest =>
    match skipSpace rest with
    | ']' :: rest => (.list [] true, rest)
    | rest =>
      let (items, closed, rest) := items steps rest
      (.list items closed, rest)
  | steps + 1, '\x7b' :: rest =>
    match skipSpace rest with
    | '\x7d' :: rest => (.table [] true, rest)
    | rest =>
      let (members, closed, rest) := members steps rest
      (.table members closed, rest)
  | _ + 1, cs => scalar cs

/-- Reads one or more items and the end of their list. -/
def items : Nat → List Char → List Data × Bool × List Char
  | 0, _ => ([], false, [])
  | steps + 1, cs =>
    let (item, rest) := value steps (skipSpace cs)
    if item.isWhole then
      match skipSpace rest with
      | ',' :: rest =>
        let (more, closed, rest) := items steps rest
        (item :: more, closed, rest)
      | ']' :: rest => ([item], true, rest)
      | _ => ([item], false, [])
    else ([item], false, [])

/-- Reads one or more members and the end of their object. -/
def members : Nat → List Char → List (Option String × Data) × Bool × List Char
  | 0, _ => ([], false, [])
  | steps + 1, cs =>
    match skipSpace cs with
    | '"' :: rest =>
      match quoted? rest with
      | some (name, rest) =>
        match skipSpace rest with
        | ':' :: rest =>
          let (item, rest) := value steps (skipSpace rest)
          if item.isWhole then
            match skipSpace rest with
            | ',' :: rest =>
              let (more, closed, rest) := members steps rest
              ((name, item) :: more, closed, rest)
            | '\x7d' :: rest => ([(name, item)], true, rest)
            | _ => ([(name, item)], false, [])
          else ([(name, item)], false, [])
        | _ => ([(name, .broken)], false, [])
      | none => ([], false, [])
    | _ => ([], false, [])

end

/-- The value at the front of a text, and what follows it. Every step but the first of a list or an
object takes a character, so twice the length is enough of them. -/
def valueOf (text : String) : Data × List Char :=
  let cs := skipSpace text.toList
  value (2 * cs.length + 2) cs

/-- Reads a whole text as a value of the type that `read` asks for. Text behind the value is looked
at last. -/
def readText {α : Type} (read : Data → Except Fault α) (text : String) : Except Fault α := do
  let (data, rest) := valueOf text
  let result ← read data
  if (skipSpace rest).isEmpty then return result else throw .malformed

end ReleaseSearch.Json
