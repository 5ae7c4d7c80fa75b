import ReleaseSearch.Catalog

/-! Providers of metadata. -/
namespace ReleaseSearch

inductive Provider where
  /-- Answers from a catalog. -/
  | catalog (c : Catalog)
  /-- Answers every request with the same error. -/
  | failing (error : MetadataError)
  /-- Answers as the inner one does, and keeps the ids asked for, in order. -/
  | recording (inner : Provider) (log : List String)

namespace Provider

def name : Provider → String
  | .catalog _ => "static"
  | .failing _ => "failing"
  | .recording inner _ => inner.name

/-- The answer for an id, and the provider afterwards. -/
def lookup : Provider → String → Except MetadataError Book × Provider
  | .catalog c, id => (c.lookup id, .catalog c)
  | .failing error, _ => (.error error, .failing error)
  | .recording inner log, id =>
    let (answer, inner) := inner.lookup id
    (answer, .recording inner (log ++ [id]))

/-- Adds a book to the catalog, if there is one. -/
def insert : Provider → String → Book → Provider
  | .catalog c, id, book => .catalog (c.insert id book)
  | .failing error, _, _ => .failing error
  | .recording inner log, id, book => .recording (inner.insert id book) log

/-- How many books the catalog holds. -/
def size : Provider → Nat
  | .catalog c => c.size
  | .failing _ => 0
  | .recording inner _ => inner.size

/-- Whether there is no book in the catalog. -/
def isEmpty : Provider → Bool
  | .catalog c => c.isEmpty
  | .failing _ => true
  | .recording inner _ => inner.isEmpty

/-- The ids asked for, if they are recorded. -/
def recorded? : Provider → Option (List String)
  | .recording _ log => some log
  | _ => none

end Provider

end ReleaseSearch
