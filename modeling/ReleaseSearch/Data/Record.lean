import ReleaseSearch.Data

/-! Records. A record is a table of its fields, or a list of them in their order. -/
namespace ReleaseSearch.Data

/-- Whether a field can be missing. -/
inductive Presence where
  /-- It is always there. -/
  | required
  /-- It may be missing in a table, but has its place in a list. -/
  | nullable
  /-- It may be missing in a table, and at the end of a list. -/
  | defaulted
deriving DecidableEq

/-- A field of a record that is read into a state of type `σ`. -/
structure RecordField (σ : Type) where
  name : String
  presence : Presence
  read : σ → Data → Except Fault σ

variable {σ : Type}

/-- Reads the members of a table in their order. A field may come once; a member that is no field is
skipped. `seen` holds the fields that have come. -/
def readMembers (fields : List (RecordField σ)) (seen : List String) (state : σ) :
    List (Option String × Data) → Except Fault (σ × List String)
  | [] => .ok (state, seen)
  | (none, _) :: _ => .error .malformed
  | (some name, d) :: rest =>
    match fields.find? (·.name == name) with
    | some field =>
      if seen.contains name then .error .mismatch
      else do readMembers fields (name :: seen) (← field.read state d) rest
    | none =>
      if d.isWhole then readMembers fields seen state rest else .error .malformed

/-- Reads the items of a list as the fields in their order. Items behind the last field are a fault,
unless they are to be ignored. -/
def readItems (ignoreSurplus closed : Bool) (state : σ) :
    List (RecordField σ) → List Data → Except Fault σ
  | [], items =>
    if closed && (items.isEmpty || ignoreSurplus) then .ok state else .error .malformed
  | field :: fields, d :: items => do
    readItems ignoreSurplus closed (← field.read state d) fields items
  | field :: fields, [] =>
    if !closed then .error .malformed
    else if (field :: fields).all (·.presence == .defaulted) then .ok state
    else .error .mismatch

/-- Reads a record, starting from the state in which each field has its default. -/
def readRecord (fields : List (RecordField σ)) (ignoreSurplus : Bool) (start : σ) :
    Data → Except Fault σ
  | .table members closed => do
    let (state, seen) ← readMembers fields [] start members
    let state ← ifClosed closed state
    if fields.all fun f => f.presence != .required || seen.contains f.name then return state
    else throw .mismatch
  | .list items closed => readItems ignoreSurplus closed start fields items
  | d => .error d.refusal

end ReleaseSearch.Data
