import ReleaseSearch.Proofs.Book.NormalCodes

/-! Books that are written and read again, once and more often. What was read has its language codes
in normal form, and so has what is built from it; such books are kept as they are. -/
namespace ReleaseSearch

namespace Editions

theorem Normal.insert {e : Editions} (h : e.Normal) {language : String}
    (named : Text.trim language ≠ "") (title : String) :
    Normal (Assoc.insert e (Language.normalize language) title) := by
  intro code member
  rcases (Assoc.mem_keys_put _ title e.entries code).mp member with rfl | known
  · refine ⟨Language.normalize_normalize language, ?_⟩
    rwa [Ne, Language.normalize_eq_empty_iff]
  · exact h code known

end Editions

namespace Book

/-- One thing that is said about a book while it is described. -/
inductive Change where
  | subtitle (text : String)
  | seriesName (text : String)
  | authors (names : List String)
  | titleIn (language title : String)
  | primaryLanguage (language : String)
  | searchTitle (text : String)
  | searchAuthor (text : String)
  | isbn13 (text : String)
  | isbn10 (text : String)
  | searchTerms (s : Simplifier)

def Change.apply (b : Book) : Change → Book
  | .subtitle text => { b with subtitle := some text }
  | .seriesName text => { b with seriesName := some text }
  | .authors names => { b with authors := names }
  | .titleIn language title => b.withTitleIn language title
  | .primaryLanguage language => b.withPrimaryLanguage language
  | .searchTitle text => { b with searchTitle := some text }
  | .searchAuthor text => { b with searchAuthor := some text }
  | .isbn13 text => { b with isbn13 := some text }
  | .isbn10 text => { b with isbn10 := some text }
  | .searchTerms s => b.withSearchTerms s

/-- The languages that the change speaks of. -/
def Change.languages : Change → List String
  | .titleIn language _ => [language]
  | .primaryLanguage language => [language]
  | _ => []

/-- Books that come from a JSON text, or from a title that changes were made to. No change names a
blank language. -/
inductive Obtained : Book → Prop where
  | read {text : String} {b : Book} (h : Json.readText Book.ofData text = .ok b) : Obtained b
  | readIn {d : Data} {b : Book} (h : Book.ofData d = .ok b) : Obtained b
  | titled (title : String) : Obtained { title := title }
  | change {b : Book} (h : Obtained b) (c : Change)
    (named : ∀ language ∈ c.languages, Text.trim language ≠ "") : Obtained (c.apply b)

theorem HasNormalCodes.apply {b : Book} (h : b.HasNormalCodes) (c : Change)
    (named : ∀ language ∈ c.languages, Text.trim language ≠ "") : (c.apply b).HasNormalCodes := by
  cases c with
  | titleIn language title =>
    exact ⟨h.editions.insert (named language (List.mem_singleton_self _)) title, h.declared⟩
  | primaryLanguage language =>
    refine ⟨h.editions, fun code declared => ?_⟩
    cases Option.mem_some.mp declared
    refine ⟨Language.normalize_normalize language, ?_⟩
    rw [Ne, Language.normalize_eq_empty_iff]
    exact named language (List.mem_singleton_self _)
  | subtitle | seriesName | authors | searchTitle | searchAuthor | isbn13 | isbn10
  | searchTerms => exact ⟨h.editions, h.declared⟩

theorem Obtained.hasNormalCodes {b : Book} (h : b.Obtained) : b.HasNormalCodes := by
  induction h with
  | read h => exact hasNormalCodes_of_read (Json.read_of_readText h)
  | readIn h => exact hasNormalCodes_of_read h
  | titled title => exact hasNormalCodes_titled title
  | change _ c named ih => exact ih.apply c named

theorem hasNormalCodes_withNormalCodes (b : Book) : b.withNormalCodes.HasNormalCodes :=
  hasNormalCodes_of_read b.ofData_toData

theorem HasNormalCodes.readText_toJson {b : Book} (h : b.HasNormalCodes) :
    Json.readText Book.ofData b.toJson.render = .ok b := by
  rw [b.readText_toJson, h.withNormalCodes_eq]

/-- Writing and reading a book brings its language codes into normal form, drops those that are
blank, and changes nothing else. A second time nothing changes at all, and neither does it for a
book that was read or built. -/
theorem reading_written_book :
    (∀ b : Book, b.titlesByLanguage.Unambiguous →
      ∃ back, Json.readText Book.ofData b.toJson.render = .ok back ∧
        back = { b with
          titlesByLanguage := back.titlesByLanguage
          primaryLanguage := (b.primaryLanguage.map Language.normalize).filter (· ≠ "") } ∧
        back.titlesByLanguage.entries =
          (b.titlesByLanguage.entries.map fun entry =>
            (Language.normalize entry.1, entry.2)).filter (·.1 ≠ "") ∧
        Json.readText Book.ofData back.toJson.render = .ok back) ∧
    ∀ b : Book, b.Obtained → Json.readText Book.ofData b.toJson.render = .ok b := by
  constructor
  · intro b distinct
    refine ⟨b.withNormalCodes, b.readText_toJson, rfl, Editions.entries_normalized distinct, ?_⟩
    exact b.hasNormalCodes_withNormalCodes.readText_toJson
  · intro b obtained
    exact obtained.hasNormalCodes.readText_toJson

theorem reading_written_book_mixed_codes :
    let b : Book :=
      { title := ""
        subtitle := some " "
        titlesByLanguage := ⟨[("HU ", " A Dűne "), (" ", "Duna"), ("fr", "")], by decide⟩
        primaryLanguage := some " DE"
        isbn13 := some "" }
    let back : Book :=
      { b with
        titlesByLanguage := ⟨[("hu", " A Dűne "), ("fr", "")], by decide⟩
        primaryLanguage := some "de" }
    let changed := (Change.titleIn " EN" "Dune").apply back
    b.titlesByLanguage.Unambiguous ∧ Json.readText Book.ofData b.toJson.render = .ok back ∧
      back.Obtained ∧ changed.Obtained ∧ changed.titlesByLanguage.get? "en" = some "Dune" ∧
      Json.readText Book.ofData changed.toJson.render = .ok changed := by
  intro b back changed
  have distinct : b.titlesByLanguage.Unambiguous := by decide +kernel
  obtain ⟨found, read, same, editions, _⟩ := reading_written_book.1 b distinct
  have eq : found = back := by
    have entries : found.titlesByLanguage = back.titlesByLanguage :=
      Assoc.ext_entries (editions.trans (by decide +kernel))
    rw [same, entries]
    decide +kernel
  rw [eq] at read
  have obtained : changed.Obtained := .change (.read read) _ (by decide +kernel)
  exact ⟨distinct, read, .read read, obtained, by decide +kernel,
    reading_written_book.2 changed obtained⟩

end Book

end ReleaseSearch
