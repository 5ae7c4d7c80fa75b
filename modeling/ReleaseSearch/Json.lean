import ReleaseSearch.Numeral

/-! JSON values and the text they are written as. -/
namespace ReleaseSearch

inductive Json where
  | null
  | bool (value : Bool)
  | number (value : Numeral)
  | text (value : String)
  | list (items : List Json)
  | object (members : List (String × Json))

namespace Json

def natural (n : Nat) : Json := .number (Numeral.ofNat n)

/-- A value, or null when there is none. -/
def ofOption {α : Type} (write : α → Json) : Option α → Json
  | some value => write value
  | none => .null

def texts (values : List String) : Json := .list (values.map .text)

/-- A member that is left out when there is no value. -/
def member? {α : Type} (name : String) (write : α → Json) : Option α → List (String × Json)
  | some value => [(name, write value)]
  | none => []

def hexDigit (n : Nat) : Char :=
  if n < 10 then Char.ofNat (48 + n) else Char.ofNat (87 + n)

/-- Quotes, backslashes and control characters are escaped, all else stands for itself. -/
def escapeChar (c : Char) : List Char :=
  if c = '"' then ['\\', '"']
  else if c = '\\' then ['\\', '\\']
  else if c.toNat < 0x20 then
    ['\\', 'u', '0', '0', hexDigit (c.toNat / 16), hexDigit (c.toNat % 16)]
  else [c]

def quote (s : String) : List Char := '"' :: s.toList.flatMap escapeChar ++ ['"']

def renderNat (n : Nat) : List Char := Nat.toDigits 10 n

def renderNumeral (n : Numeral) : List Char :=
  (if n.negative then ['-'] else []) ++ renderNat n.digits ++
    if n.whole then []
    else 'e' :: (if n.exponent < 0 then ['-'] else []) ++ renderNat n.exponent.natAbs

mutual

def renderChars : Json → List Char
  | .null => "null".toList
  | .bool true => "true".toList
  | .bool false => "false".toList
  | .number n => renderNumeral n
  | .text s => quote s
  | .list [] => ['[', ']']
  | .list (item :: items) => '[' :: renderChars item ++ renderItems items
  | .object [] => ['\x7b', '\x7d']
  | .object ((name, value) :: members) =>
    '\x7b' :: quote name ++ ':' :: renderChars value ++ renderMembers members

/-- The items behind the first one, and the end of the list. -/
def renderItems : List Json → List Char
  | [] => [']']
  | item :: items => ',' :: renderChars item ++ renderItems items

/-- The members behind the first one, and the end of the object. -/
def renderMembers : List (String × Json) → List Char
  | [] => ['\x7d']
  | (name, value) :: members =>
    ',' :: quote name ++ ':' :: renderChars value ++ renderMembers members

end

/-- The text of a value, without blanks. -/
def render (v : Json) : String := String.ofList v.renderChars

end Json

end ReleaseSearch
