import ReleaseSearch.Book
import ReleaseSearch.Book.Json
import ReleaseSearch.Json.Reader
import ReleaseSearch.Metadata
import ReleaseSearch.Text.Utf8

/-! Catalogs of books held in memory. A book gets its search terms when it is added. -/
namespace ReleaseSearch

structure CatalogEntry where
  id : String
  book : Book
deriving DecidableEq

namespace CatalogEntry

open Data

def toJson (e : CatalogEntry) : Json :=
  .object [("id", .text e.id), ("book", e.book.toJson)]

def fields : List (RecordField CatalogEntry) :=
  [⟨"id", .required, fun e d => return { e with id := ← d.readText }⟩,
   ⟨"book", .required, fun e d => return { e with book := ← Book.ofData d }⟩]

def ofData (d : Data) : Except Fault CatalogEntry :=
  d.readRecord fields false ⟨"", { title := "" }⟩

end CatalogEntry

structure Catalog where
  simplifier : Simplifier
  books : Assoc Book

namespace Catalog

def empty (s : Simplifier) : Catalog := ⟨s, Assoc.empty⟩

/-- Adds a book, or replaces the one with this id. -/
def insert (c : Catalog) (id : String) (book : Book) : Catalog :=
  { c with books := c.books.insert id (book.withSearchTerms c.simplifier) }

def size (c : Catalog) : Nat := c.books.size

def isEmpty (c : Catalog) : Bool := c.books.isEmpty

def lookup (c : Catalog) (id : String) : Except MetadataError Book :=
  match c.books.get? id with
  | some book => .ok book
  | none => .error (.notFound id)

/-- Of the entries with one id the last counts. -/
def ofEntries (s : Simplifier) (entries : List CatalogEntry) : Catalog where
  simplifier := s
  books := Assoc.ofList (entries.map fun e => (e.id, e.book.withSearchTerms s))

/-- Reads a JSON list of entries. -/
def ofText (s : Simplifier) (text : String) : Except MetadataError Catalog :=
  match Json.readText (Data.readList CatalogEntry.ofData) text with
  | .ok entries => .ok (ofEntries s entries)
  | .error fault => .error (.unreadable fault.message)

/-- Why a file has no text. -/
inductive FileFault where
  | missing
  | notUtf8

def FileFault.message : FileFault → String
  | .missing => "No such file or directory (os error 2)"
  | .notUtf8 => "stream did not contain valid UTF-8"

/-- The text of a file, from its bytes if it exists. -/
def fileText (bytes : Option (List UInt8)) : Except FileFault String :=
  match bytes with
  | none => .error .missing
  | some bytes =>
    match Text.Utf8.decode? bytes with
    | some text => .ok text
    | none => .error .notUtf8

/-- Reads the file at a path. -/
def ofFile (s : Simplifier) (path : String) (bytes : Option (List UInt8)) :
    Except MetadataError Catalog :=
  match fileText bytes with
  | .ok text => ofText s text
  | .error fault =>
    .error (.unavailable ("cannot read " ++ path ++ ": " ++ fault.message))

end Catalog

end ReleaseSearch
