import ReleaseSearch.Proofs.Book
import ReleaseSearch.Proofs.Book.NormalCodes
import ReleaseSearch.Proofs.Catalog

/-! Catalogs that were loaded from JSON. Loading a list inserts its entries one after the other, and
writing down what a loaded catalog holds and loading that gives its look-ups again. -/
namespace ReleaseSearch
open Data

namespace CatalogEntry

theorem ofData_toData (e : CatalogEntry) :
    CatalogEntry.ofData e.toJson.toData = .ok { e with book := e.book.withNormalCodes } := by
  have id : Reads fields [("id", .text e.id)] ⟨"", { title := "" }⟩ ⟨e.id, { title := "" }⟩ :=
    .member "id" rfl rfl
  have book : Reads fields [("book", e.book.toJson)] ⟨e.id, { title := "" }⟩
      { e with book := e.book.withNormalCodes } := by
    refine .member "book" rfl ?_
    dsimp only
    rw [Book.ofData_toData]
    rfl
  have required : ∀ f ∈ fields, f.name ∈ ["id", "book"] := by decide
  refine readRecord_object (by simp) ?_ (id.append book) false
  intro f member _
  exact required f member

theorem numberless_toJson (e : CatalogEntry) : e.toJson.Numberless := by
  refine .object ?_
  rw [List.forall_mem_cons, List.forall_mem_singleton]
  exact ⟨.text e.id, e.book.numberless_toJson⟩

theorem hasNormalCodes_of_read {d : Data} {e : CatalogEntry} (h : CatalogEntry.ofData d = .ok e) :
    e.book.HasNormalCodes := by
  refine readRecord_keeps (P := fun e => e.book.HasNormalCodes) ?_ (Book.hasNormalCodes_titled "") h
  intro f member e d e' kept read
  simp only [fields, List.mem_cons, List.not_mem_nil, or_false] at member
  rcases member with rfl | rfl
  · obtain ⟨id, _, same⟩ := bind_eq_ok_iff.mp read
    cases same
    exact kept
  · obtain ⟨book, got, same⟩ := bind_eq_ok_iff.mp read
    cases same
    exact Book.hasNormalCodes_of_read got

end CatalogEntry

namespace Catalog

/-- What a catalog holds, one entry for each id. -/
def contents (c : Catalog) : List CatalogEntry := c.books.entries.map fun e => ⟨e.1, e.2⟩

/-- The entries are the books that look-ups find, one for each id. -/
structure ListedBy (c : Catalog) (entries : List CatalogEntry) : Prop where
  distinct : (entries.map CatalogEntry.id).Nodup
  found : ∀ e ∈ entries, c.lookup e.id = .ok e.book
  complete : ∀ id book, c.lookup id = .ok book → id ∈ entries.map CatalogEntry.id

theorem lookup_eq_ok_iff (c : Catalog) (id : String) (book : Book) :
    c.lookup id = .ok book ↔ (id, book) ∈ c.books.entries := by
  rw [← Assoc.get?_eq_some_iff, lookup]
  cases c.books.get? id with
  | none => simp
  | some known => simp

theorem listedBy_contents (c : Catalog) : c.ListedBy c.contents := by
  have ids : c.contents.map CatalogEntry.id = c.books.entries.map Prod.fst := by
    rw [contents, List.map_map]
    rfl
  constructor
  · rw [ids]
    exact c.books.nodup
  · intro e member
    obtain ⟨entry, known, rfl⟩ := List.mem_map.mp member
    exact (c.lookup_eq_ok_iff entry.1 entry.2).mpr known
  · intro id book known
    rw [ids]
    exact List.mem_map_of_mem ((c.lookup_eq_ok_iff id book).mp known)

theorem lastBook?_of_mem {entries : List CatalogEntry} {e : CatalogEntry}
    (distinct : (entries.map CatalogEntry.id).Nodup) (member : e ∈ entries) :
    lastBook? entries e.id = some e.book := by
  have same : ∀ other ∈ entries, other.id = e.id → other = e :=
    fun other known => List.inj_on_of_nodup_map distinct known member
  have only : ∀ other ∈ entries.filter (·.id = e.id), other = e := by
    intro other kept
    obtain ⟨known, fits⟩ := List.mem_filter.mp kept
    exact same other known (by simpa using fits)
  have kept : e ∈ entries.filter (·.id = e.id) := List.mem_filter.mpr ⟨member, by simp⟩
  rw [lastBook?, List.getLast?_eq_some_getLast (List.ne_nil_of_mem kept), Option.map_some,
    only _ (List.getLast_mem _)]

theorem ofText_of_read {s : Simplifier} {text : String} {entries : List CatalogEntry}
    (read : Json.readText (readList CatalogEntry.ofData) text = .ok entries) :
    ofText s text = .ok ((empty s).insertAll entries) := by
  rw [ofText, read, ← ofEntries_eq_insertAll]

theorem lookup_insertAll (s : Simplifier) (entries : List CatalogEntry) (id : String) :
    ((empty s).insertAll entries).lookup id =
      match lastBook? entries id with
      | some book => .ok (book.withSearchTerms s)
      | none => .error (.notFound id) :=
  lookup_ofEntries_insertAll s [] entries id

theorem lookup_of_missing {c : Catalog} {id : String} (missing : ∀ book, c.lookup id ≠ .ok book) :
    c.lookup id = .error (.notFound id) := by
  unfold lookup at missing ⊢
  cases found : c.books.get? id with
  | none => rfl
  | some book =>
    rw [found] at missing
    exact absurd rfl (missing book)

/-- Books that have their search terms can be taken out of a catalog and inserted again. -/
theorem lookup_of_listedBy {c : Catalog} {written : List CatalogEntry} (listed : c.ListedBy written)
    {s : Simplifier} (filled : ∀ e ∈ written, e.book.withSearchTerms s = e.book) (id : String) :
    ((empty s).insertAll written).lookup id = c.lookup id := by
  rw [lookup_insertAll]
  by_cases known : ∃ e ∈ written, e.id = id
  · obtain ⟨e, member, rfl⟩ := known
    rw [lastBook?_of_mem listed.distinct member, listed.found e member]
    exact congrArg Except.ok (filled e member)
  · have absent : ∀ e ∈ written, e.id ≠ id := fun e member same => known ⟨e, member, same⟩
    rw [lastBook?_eq_none absent, lookup_of_missing]
    intro book found
    obtain ⟨e, member, same⟩ := List.mem_map.mp (listed.complete id book found)
    exact absent e member same

theorem readText_entries (written : List CatalogEntry)
    (normal : ∀ e ∈ written, e.book.HasNormalCodes) :
    Json.readText (readList CatalogEntry.ofData)
      (Json.list (written.map CatalogEntry.toJson)).render = .ok written := by
  have plain : (Json.list (written.map CatalogEntry.toJson)).Numberless :=
    Json.numberless_map CatalogEntry.numberless_toJson written
  have same : written.map (fun e => { e with book := e.book.withNormalCodes }) = written := by
    rw [List.map_congr_left (g := id) fun e member => ?_, List.map_id]
    rw [(normal e member).withNormalCodes_eq, id]
  rw [Json.readText_render _ plain, readList_map_toData CatalogEntry.ofData_toData, same]

/-- Loading a list of entries inserts them one after the other, unless one of them cannot be read;
and what was loaded can be written down and loaded again. -/
theorem bulk_loading (s : Simplifier) (text : String) :
    (∀ entries, Json.readText (readList CatalogEntry.ofData) text = .ok entries →
      let inserted := (empty s).insertAll entries
      ∃ c, ofText s text = .ok c ∧
        (∀ id, c.lookup id = inserted.lookup id) ∧ c.size = inserted.size ∧
        c.isEmpty = inserted.isEmpty ∧
        (∀ id, c.lookup id = match lastBook? entries id with
          | some book => .ok (book.withSearchTerms s)
          | none => .error (.notFound id)) ∧
        c.ListedBy c.contents ∧
        ∀ written, c.ListedBy written →
          ∃ again, ofText s (Json.list (written.map CatalogEntry.toJson)).render = .ok again ∧
            ∀ id, again.lookup id = c.lookup id) ∧
    ∀ items closed rest, Json.valueOf text = (.list items closed, rest) →
      (∃ item ∈ items, ∀ e, CatalogEntry.ofData item ≠ .ok e) →
      ∃ reason, ofText s text = .error (.unreadable reason) := by
  constructor
  · intro entries read inserted
    have lookups := lookup_insertAll s entries
    have normal : ∀ e ∈ entries, e.book.HasNormalCodes := by
      intro e member
      obtain ⟨item, got⟩ := exists_of_mem_readList (Json.read_of_readText read) member
      exact CatalogEntry.hasNormalCodes_of_read got
    -- a stored book is one of those that were read, with its search terms
    have stored : ∀ id book, inserted.lookup id = .ok book →
        book.HasNormalCodes ∧ book.withSearchTerms s = book := by
      intro id book found
      rw [lookups] at found
      split at found
      · rename_i raw last
        cases found
        obtain ⟨e, kept, rfl⟩ := Option.map_eq_some_iff.mp last
        have member := (List.mem_filter.mp (List.mem_of_getLast? kept)).1
        exact ⟨(normal e member).withSearchTerms s, e.book.withSearchTerms_withSearchTerms s⟩
      · cases found
    refine ⟨inserted, ofText_of_read read, fun id => rfl, rfl, rfl, lookups,
      inserted.listedBy_contents, fun written listed => ?_⟩
    have back := readText_entries written fun e member =>
      (stored e.id e.book (listed.found e member)).1
    exact ⟨_, ofText_of_read back, lookup_of_listedBy listed fun e member =>
      (stored e.id e.book (listed.found e member)).2⟩
  · rintro items closed rest value ⟨item, member, unreadable⟩
    cases read : Json.readText (readList CatalogEntry.ofData) text with
    | error fault => exact ⟨fault.message, by rw [ofText, read]⟩
    | ok entries =>
      have got := Json.read_of_readText read
      rw [value] at got
      exact absurd got (readList_of_unreadable member unreadable closed entries)

theorem bulk_loading_repeated_id :
    let entry := fun (id : String) (book : List (String × Json)) =>
      Json.object [("id", .text id), ("book", .object book)]
    let text := (Json.list
      [entry "a" [("title", .text "Emma")],
       entry "b" [("title", .text "Emma")],
       entry "a" [("title", .text "Dune (Deluxe)"),
         ("titles_by_language", .object [(" HU", .text "A Dűne")])]]).render
    let dune : Book :=
      { title := "Dune (Deluxe)", titlesByLanguage := Assoc.ofList [("hu", "A Dűne")] }
    let entries : List CatalogEntry :=
      [⟨"a", { title := "Emma" }⟩, ⟨"b", { title := "Emma" }⟩, ⟨"a", dune⟩]
    let written : List CatalogEntry :=
      [⟨"b", { title := "Emma" }⟩, ⟨"a", { dune with searchTitle := some "Dune" }⟩]
    let item := Json.object [("id", .text "a")]
    Json.readText (readList CatalogEntry.ofData) text = .ok entries ∧
      (∃ c, ofText .standard text = .ok c ∧ c.size = 2 ∧ c.ListedBy written ∧
        ∃ again, ofText .standard (Json.list (written.map CatalogEntry.toJson)).render = .ok again ∧
          again.lookup "a" = .ok { dune with searchTitle := some "Dune" }) ∧
      (∀ e, CatalogEntry.ofData item.toData ≠ .ok e) ∧
      Json.valueOf (Json.list [item]).render = (.list [item.toData] true, []) ∧
      ∃ reason, ofText .standard (Json.list [item]).render = .error (.unreadable reason) := by
  intro entry text dune entries written item
  have read : Json.readText (readList CatalogEntry.ofData) text = .ok entries := by decide +kernel
  have unreadable : ∀ e, CatalogEntry.ofData item.toData ≠ .ok e := by
    intro e got
    have refused : CatalogEntry.ofData item.toData = .error .mismatch := by decide +kernel
    rw [refused] at got
    cases got
  have value : Json.valueOf (Json.list [item]).render = (.list [item.toData] true, []) := by
    rw [Json.valueOf_render (.list (by simpa [item] using .object (by simpa using .text "a")))]
    rfl
  have covered : ∀ e ∈ entries, e.id ∈ written.map CatalogEntry.id := by decide +kernel
  obtain ⟨loading, _⟩ := bulk_loading .standard text
  obtain ⟨c, loaded, _, size, _, lookups, _, reload⟩ := loading entries read
  have listed : c.ListedBy written := by
    refine ⟨by decide, ?_, ?_⟩
    · intro e member
      rw [lookups]
      revert e
      decide +kernel
    · intro id book found
      by_contra absent
      have missing : ∀ e ∈ entries, e.id ≠ id := by
        rintro e member rfl
        exact absent (covered e member)
      rw [lookups, lastBook?_eq_none missing] at found
      cases found
  obtain ⟨again, reloaded, same⟩ := reload written listed
  refine ⟨read, ⟨c, loaded, size.trans (by decide +kernel), listed, again, reloaded, ?_⟩,
    unreadable, value, (bulk_loading .standard _).2 _ _ _ value
      ⟨item.toData, List.mem_singleton_self _, unreadable⟩⟩
  rw [same, lookups]
  decide +kernel

end Catalog

end ReleaseSearch
