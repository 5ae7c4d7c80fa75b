import Mathlib.Data.List.Nodup
import ReleaseSearch.Book
import ReleaseSearch.Proofs.Assoc
import ReleaseSearch.Proofs.Language

/-! Titles by language. A look-up reads the entries of its language only, and a title that is put in
is found under every spelling of its code. Where no two codes have the same normal form, a language
has one title at most, and bringing the codes into normal form changes no look-up. -/
namespace ReleaseSearch

namespace Editions

/-- The entries of a language, however its code is written there. -/
def entriesFor (e : Editions) (language : String) : List (String × String) :=
  e.entries.filter fun entry => Language.normalize entry.1 == Language.normalize language

theorem get?_eq_of_entriesFor {e f : Editions} {language : String}
    (same : e.entriesFor language = f.entriesFor language) :
    e.get? (Language.normalize language) = f.get? (Language.normalize language) := by
  have known : ∀ (g : Editions) (title : String),
      g.get? (Language.normalize language) = some title ↔
        (Language.normalize language, title) ∈ g.entriesFor language := by
    intro g title
    rw [Assoc.get?_eq_some_iff, entriesFor, List.mem_filter]
    simp
  ext title
  rw [known, known, same]

/-- A look-up reads the entries of its language and no others. -/
theorem find?_congr {e f : Editions} {language : String}
    (same : e.entriesFor language = f.entriesFor language) :
    find? e language = find? f language := by
  have scanned : ∀ g : Editions,
      g.entries.find? (fun entry => Language.normalize entry.1 == Language.normalize language) =
        (g.entriesFor language).head? := by
    intro g
    rw [entriesFor, List.head?_filter]
  unfold find?
  dsimp only
  rw [get?_eq_of_entriesFor same, scanned, scanned, same]

/-- A look-up does not see how the code is spelled. -/
theorem find?_spelling (e : Editions) {code language : String}
    (same : Language.normalize code = Language.normalize language) :
    find? e code = find? e language := by
  unfold find?
  rw [same]

theorem find?_insert (e : Editions) (code title language : String) :
    find? (e.insert (Language.normalize code) title) language =
      if Language.normalize language = Language.normalize code then some title
      else find? e language := by
  by_cases same : Language.normalize language = Language.normalize code
  · unfold find?
    dsimp only
    rw [Assoc.get?_insert, if_pos same, if_pos same]
  · rw [if_neg same]
    apply find?_congr
    have apart : (Language.normalize (Language.normalize code) == Language.normalize language) =
        false := by
      rw [Language.normalize_normalize]
      exact beq_false_of_ne (Ne.symm same)
    exact Assoc.filter_put (p := (Language.normalize · == Language.normalize language)) apart
      title e.entries

/-- No two codes have the same normal form. -/
def Unambiguous (e : Editions) : Prop :=
  (e.entries.map fun entry => Language.normalize entry.1).Nodup

instance (e : Editions) : Decidable e.Unambiguous :=
  inferInstanceAs (Decidable (List.Nodup _))

/-- The one entry of a language, however its code is written there. -/
theorem find?_entry {e : Editions} (h : e.Unambiguous) {entry : String × String}
    (member : entry ∈ e.entries) {code : String} (same : Language.normalize entry.1 = code) :
    e.entries.find? (fun entry => Language.normalize entry.1 == code) = some entry := by
  cases found : e.entries.find? (fun entry => Language.normalize entry.1 == code) with
  | none =>
    have apart := List.find?_eq_none.mp found entry member
    simp [same] at apart
  | some other =>
    have fits : Language.normalize other.1 = code := by simpa using List.find?_some found
    have known := List.mem_of_find?_eq_some found
    rw [List.inj_on_of_nodup_map h known member (fits.trans same.symm)]

/-- Where the codes are told apart by their normal forms, the first look-up finds what the second
one does. -/
theorem find?_of_unambiguous {e : Editions} (h : e.Unambiguous) (language : String) :
    Editions.find? e language =
      (e.entries.find? fun entry =>
        Language.normalize entry.1 == Language.normalize language).map Prod.snd := by
  unfold find?
  dsimp only
  cases exact_code : e.get? (Language.normalize language) with
  | none => rfl
  | some title =>
    obtain ⟨before, after, split, _⟩ := List.lookup_eq_some_iff.mp exact_code
    have member : (Language.normalize language, title) ∈ e.entries := by
      rw [split]
      exact List.mem_append_right _ (List.mem_cons_self ..)
    rw [find?_entry h member (Language.normalize_normalize language)]
    rfl

/-- The entries with their codes in normal form, without those whose code is blank. -/
def normalEntries (e : Editions) : List (String × String) :=
  (e.entries.map fun entry => (Language.normalize entry.1, entry.2)).filter (·.1 ≠ "")

theorem entries_normalized {e : Editions} (h : e.Unambiguous) :
    e.normalized.entries = e.normalEntries := by
  refine Assoc.entries_ofList (List.Nodup.sublist (List.filter_sublist.map Prod.fst) ?_)
  rw [List.map_map]
  exact h

theorem unambiguous_normalized {e : Editions} (h : e.Unambiguous) : e.normalized.Unambiguous := by
  rw [Unambiguous, entries_normalized h]
  have normal : ∀ entry ∈ e.normalEntries, Language.normalize entry.1 = entry.1 := by
    intro entry member
    obtain ⟨raw, _, rfl⟩ := List.mem_map.mp (List.mem_filter.mp member).1
    exact Language.normalize_normalize raw.1
  rw [List.map_congr_left normal]
  refine List.Nodup.sublist (List.filter_sublist.map Prod.fst) ?_
  rw [List.map_map]
  exact h

/-- A language that is named has the title it had before the codes were brought into normal form. -/
theorem find?_normalized {e : Editions} (h : e.Unambiguous) {language : String}
    (named : Language.normalize language ≠ "") :
    Editions.find? e.normalized language = Editions.find? e language := by
  have same_test : ∀ entry : String × String,
      (decide (decide (Language.normalize entry.1 ≠ "") = true ∧
        (Language.normalize (Language.normalize entry.1) == Language.normalize language) = true)) =
      (Language.normalize entry.1 == Language.normalize language) := by
    intro entry
    rw [Language.normalize_normalize]
    by_cases same : Language.normalize entry.1 = Language.normalize language
    · simp [same, named]
    · simp [same]
  rw [find?_of_unambiguous (unambiguous_normalized h), find?_of_unambiguous h,
    entries_normalized h, normalEntries, List.find?_filter, List.find?_map, Option.map_map]
  simp only [Function.comp_def, same_test]

end Editions

namespace Book

theorem titleIn_spelling (b : Book) {code language : String}
    (same : Language.normalize code = Language.normalize language) :
    b.titleIn code = b.titleIn language :=
  congrArg (·.bind Text.nonBlank) (Editions.find?_spelling b.titlesByLanguage same)

theorem titleIn_withTitleIn (b : Book) (code title language : String) :
    (b.withTitleIn code title).titleIn language =
      if Language.normalize language = Language.normalize code then Text.nonBlank title
      else b.titleIn language := by
  rw [titleIn, titleIn, withTitleIn, Editions.find?_insert]
  split <;> rfl

end Book

end ReleaseSearch
