import ReleaseSearch.Numeral

/-! Data as a text gives it, and reading it as a value of a known type. A text may stop being well
formed half way. What precedes is kept, so that of two faults the one that comes first in the text
is found, and so that what no type asks for is only passed over. -/
namespace ReleaseSearch

/-- Why data are not a value of the type asked for. -/
inductive Fault where
  /-- The text is at fault. -/
  | malformed
  /-- The data have another shape. -/
  | mismatch
deriving DecidableEq

inductive Data where
  /-- Here the text breaks off. -/
  | broken
  | null
  | bool (value : Bool)
  /-- No value when the number is too large: it can only be skipped. -/
  | number (value : Option Numeral)
  /-- No value when an escape names half of a surrogate pair: it can only be skipped. -/
  | text (value : Option String)
  /-- Not closed when the text breaks off in it. -/
  | list (items : List Data) (closed : Bool)
  /-- A name may be no text, as with `text`. Not closed when the text breaks off in it. -/
  | table (members : List (Option String × Data)) (closed : Bool)

namespace Data

/-- Whether the text reaches the end of the data. Then they can be skipped. -/
def isWhole : Data → Bool
  | .broken => false
  | .list _ closed => closed
  | .table _ closed => closed
  | _ => true

/-- What is wrong with data of another kind than the one asked for. A text or a number is read
before it is refused. -/
def refusal : Data → Fault
  | .broken => .malformed
  | .text none => .malformed
  | .number none => .malformed
  | _ => .mismatch

/-- What the text gave, if it went on to the end of the data. -/
def ifClosed {α : Type} (closed : Bool) (value : α) : Except Fault α :=
  if closed then .ok value else .error .malformed

def readText : Data → Except Fault String
  | .text (some s) => .ok s
  | d => .error d.refusal

/-- A count below `limit`. -/
def readNatural (limit : Nat) : Data → Except Fault Nat
  | .number (some n) =>
    match n.natural? with
    | some value => if value < limit then .ok value else .error .mismatch
    | none => .error .mismatch
  | d => .error d.refusal

def readList {α : Type} (read : Data → Except Fault α) : Data → Except Fault (List α)
  | .list items closed => do ifClosed closed (← items.mapM read)
  | d => .error d.refusal

/-- Null stands for no value. -/
def readOption {α : Type} (read : Data → Except Fault α) : Data → Except Fault (Option α)
  | .null => .ok none
  | d => some <$> read d

def readTexts : Data → Except Fault (List String) := readList readText

/-- A name and the text under it. -/
def readEntry (member : Option String × Data) : Except Fault (String × String) := do
  match member.1 with
  | some name => return (name, ← member.2.readText)
  | none => throw .malformed

/-- A table of texts, in the order of the text. -/
def readTextTable : Data → Except Fault (List (String × String))
  | .table members closed => do ifClosed closed (← members.mapM readEntry)
  | d => .error d.refusal

end Data

end ReleaseSearch
