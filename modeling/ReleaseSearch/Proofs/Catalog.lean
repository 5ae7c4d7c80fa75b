import Mathlib.Data.List.Induction
import ReleaseSearch.Catalog

/-! What a catalog holds after any books were inserted. Under each id there is the book that came
last, with its search terms. -/
namespace ReleaseSearch

namespace Catalog

/-- Inserts books one after the other. -/
def insertAll (c : Catalog) (entries : List CatalogEntry) : Catalog :=
  entries.foldl (fun c e => c.insert e.id e.book) c

/-- The book that came last with this id. -/
def lastBook? (entries : List CatalogEntry) (id : String) : Option Book :=
  (entries.filter (·.id = id)).getLast?.map CatalogEntry.book

theorem lastBook?_append_singleton (entries : List CatalogEntry) (e : CatalogEntry) (id : String) :
    lastBook? (entries ++ [e]) id = if e.id = id then some e.book else lastBook? entries id := by
  rw [lastBook?, List.filter_append]
  by_cases same : e.id = id
  · rw [if_pos same, List.filter_cons_of_pos (by simpa using same), List.filter_nil,
      List.getLast?_concat, Option.map_some]
  · rw [if_neg same, List.filter_cons_of_neg (by simpa using same), List.filter_nil,
      List.append_nil, lastBook?]

theorem lastBook?_eq_none {entries : List CatalogEntry} {id : String}
    (absent : ∀ e ∈ entries, e.id ≠ id) : lastBook? entries id = none := by
  have empty : entries.filter (·.id = id) = [] := by
    rw [List.filter_eq_nil_iff]
    simpa using absent
  rw [lastBook?, empty]
  rfl

theorem insertAll_append_singleton (c : Catalog) (entries : List CatalogEntry) (e : CatalogEntry) :
    c.insertAll (entries ++ [e]) = (c.insertAll entries).insert e.id e.book := by
  rw [insertAll, List.foldl_append]
  rfl

theorem simplifier_insertAll (c : Catalog) (entries : List CatalogEntry) :
    (c.insertAll entries).simplifier = c.simplifier := by
  induction entries using List.reverseRecOn with
  | nil => rfl
  | append_singleton entries e ih =>
    rw [insertAll_append_singleton]
    exact ih

theorem get?_insertAll (c : Catalog) (entries : List CatalogEntry) (id : String) :
    (c.insertAll entries).books.get? id =
      ((lastBook? entries id).map (·.withSearchTerms c.simplifier)).or (c.books.get? id) := by
  induction entries using List.reverseRecOn with
  | nil => rfl
  | append_singleton entries e ih =>
    rw [insertAll_append_singleton, insert, Assoc.get?_insert, ih, simplifier_insertAll,
      lastBook?_append_singleton]
    by_cases same : e.id = id
    · rw [if_pos same, if_pos same.symm]
      rfl
    · rw [if_neg same, if_neg (Ne.symm same)]

/-- A catalog that was read is one into which its entries were inserted. -/
theorem ofEntries_eq_insertAll (s : Simplifier) (entries : List CatalogEntry) :
    ofEntries s entries = (empty s).insertAll entries := by
  induction entries using List.reverseRecOn with
  | nil => rfl
  | append_singleton entries e ih =>
    rw [insertAll_append_singleton, ← ih, ofEntries, List.map_append, Assoc.ofList,
      List.foldl_append]
    rfl

theorem insertAll_insertAll (c : Catalog) (first second : List CatalogEntry) :
    (c.insertAll first).insertAll second = c.insertAll (first ++ second) :=
  List.foldl_append.symm

/-- After any books were read and inserted a look-up finds the last one with the id. -/
theorem lookup_ofEntries_insertAll (s : Simplifier) (entries inserts : List CatalogEntry)
    (id : String) :
    ((ofEntries s entries).insertAll inserts).lookup id =
      match lastBook? (entries ++ inserts) id with
      | some book => .ok (book.withSearchTerms s)
      | none => .error (.notFound id) := by
  rw [ofEntries_eq_insertAll, insertAll_insertAll, lookup, get?_insertAll]
  cases lastBook? (entries ++ inserts) id with
  | none => rfl
  | some book => rfl

end Catalog

end ReleaseSearch
