import ReleaseSearch.Toml.Value

/-! The tables of a TOML text while it is read. How a table came to be decides what may still be put
into it. -/
namespace ReleaseSearch.Toml

inductive Origin where
  /-- A header names it. -/
  | header
  /-- A longer header or key runs through it. -/
  | implied
  /-- A dotted key runs through it. -/
  | dotted
deriving DecidableEq

inductive Item where
  | value (v : Value)
  | table (origin : Origin) (entries : List (String × Item))
  /-- The tables of a repeated header: those that are finished, and the last one. -/
  | tables (finished : List Value) (last : List (String × Item))

abbrev Entries := List (String × Item)

mutual

def Item.toValue : Item → Value
  | .value v => v
  | .table _ entries => .table (Entries.toTable entries)
  | .tables finished last => .array (finished ++ [.table (Entries.toTable last)])

def Entries.toTable : Entries → Table
  | [] => []
  | (key, item) :: entries => (key, item.toValue) :: Entries.toTable entries

end

namespace Entries

/-- Replaces the item under a key that is there. -/
def replace (key : String) (item : Item) (entries : Entries) : Entries :=
  entries.map fun entry => if entry.1 == key then (key, item) else entry

/-- Edits the table at a path, with the tables on the way made where they are missing. A dotted key
may not run through a table that a header names; nothing runs through a value. -/
def edit (byKey : Bool) (change : Origin → Entries → Option Entries) :
    (path : List String) → Origin → Entries → Option Entries
  | [], origin, entries => change origin entries
  | key :: path, _, entries =>
    match entries.lookup key with
    | none => do
      let origin := if byKey then .dotted else .implied
      return entries ++ [(key, .table origin (← edit byKey change path origin []))]
    | some (.table origin sub) =>
      if byKey && origin == .header then none
      else do return replace key (.table origin (← edit byKey change path origin sub)) entries
    | some (.tables finished last) => do
      return replace key (.tables finished (← edit byKey change path .header last)) entries
    | some (.value _) => none

/-- Puts a value under a key that is not there yet. A dotted key ends in a table of dotted keys, a
plain one in a table that is none. -/
def insert (path : List String) (key : String) (v : Value) (origin : Origin) (entries : Entries) :
    Option Entries :=
  edit true (fun origin entries =>
    if (origin == .dotted) == path.isEmpty then none
    else if entries.any (·.1 == key) then none
    else some (entries ++ [(key, .value v)])) path origin entries

/-- Opens the table of a header. One that is only implied so far may still be opened. -/
def openTable (path : List String) (key : String) (entries : Entries) : Option Entries :=
  edit false (fun _ entries =>
    match entries.lookup key with
    | none => some (entries ++ [(key, .table .header [])])
    | some (.table .implied sub) => some (replace key (.table .header sub) entries)
    | some _ => none) path .header entries

/-- Opens one more table of a repeated header. -/
def openNext (path : List String) (key : String) (entries : Entries) : Option Entries :=
  edit false (fun _ entries =>
    match entries.lookup key with
    | none => some (entries ++ [(key, .tables [] [])])
    | some (.tables finished last) =>
      some (replace key (.tables (finished ++ [.table (toTable last)]) []) entries)
    | some _ => none) path .header entries

/-- Puts a value into the table of a header. -/
def insertIn (here path : List String) (key : String) (v : Value) (entries : Entries) :
    Option Entries :=
  edit false (insert path key v) here .header entries

end Entries

end ReleaseSearch.Toml
