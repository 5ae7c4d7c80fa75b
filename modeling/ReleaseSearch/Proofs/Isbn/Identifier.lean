import ReleaseSearch.Proofs.Isbn
import ReleaseSearch.Proofs.Planner.Plans
import ReleaseSearch.Proofs.Text.Ascii

/-! Texts that identify a book. Normalizing takes the separators out of a text and asks for nothing
else, so what it answers is an identifier only if the text was one, however it was separated. -/
namespace ReleaseSearch

namespace Isbn

/-- Decimal digits, and behind them at most one check character. -/
inductive DigitsThen (checks : List Char) : List Char → Prop where
  | plain {digits} : (∀ c ∈ digits, c.isDigit = true) → DigitsThen checks digits
  | checked {digits check} : (∀ c ∈ digits, c.isDigit = true) → check ∈ checks →
      DigitsThen checks (digits ++ [check])

/-- An identifier in normal form. -/
def Identifier (isbn : String) : Prop := DigitsThen ['X'] isbn.toList

/-- An identifier in any spelling. A text of separators alone counts as one without digits. -/
def Spelled (raw : String) : Prop := DigitsThen ['x', 'X'] (kept raw)

theorem digitsThen_iff (checks cs : List Char) :
    DigitsThen checks cs ↔
      (cs.dropWhile Char.isDigit).length ≤ 1 ∧
        (cs.dropWhile Char.isDigit).all checks.contains = true := by
  constructor
  · intro h
    cases h with
    | plain digits =>
      have none_left : cs.dropWhile Char.isDigit = [] := List.dropWhile_eq_nil_iff.mpr digits
      simp [none_left]
    | @checked _ check digits known =>
      rw [List.dropWhile_append_of_pos digits, List.dropWhile_cons, List.dropWhile_nil]
      split
      · simp
      · simpa using known
  · rintro ⟨short, known⟩
    have digits : ∀ c ∈ cs.takeWhile Char.isDigit, c.isDigit = true := fun c member =>
      List.mem_takeWhile_imp member
    rw [← List.takeWhile_append_dropWhile (p := Char.isDigit) (l := cs)]
    cases left : cs.dropWhile Char.isDigit with
    | nil =>
      rw [List.append_nil]
      exact .plain digits
    | cons check more =>
      rw [left] at short known
      have single : more = [] := by simpa using short
      subst single
      exact .checked digits (by simpa using known)

instance (checks cs : List Char) : Decidable (DigitsThen checks cs) :=
  decidable_of_iff _ (digitsThen_iff checks cs).symm

instance (isbn : String) : Decidable (Identifier isbn) := inferInstanceAs (Decidable (DigitsThen ..))

instance (raw : String) : Decidable (Spelled raw) := inferInstanceAs (Decidable (DigitsThen ..))

theorem isDigit_toUpper (c : Char) : c.toUpper.isDigit = c.isDigit :=
  Text.forall_of_ascii (p := fun c => c.toUpper.isDigit = c.isDigit) (by decide)
    (fun c _ upper => by rw [upper]) c

theorem toUpper_eq_check_iff (c : Char) : c.toUpper = 'X' ↔ c ∈ ['x', 'X'] := by
  apply Text.forall_of_ascii (p := fun c => c.toUpper = 'X' ↔ c ∈ ['x', 'X']) (by decide)
  intro c _ upper
  have small : c ≠ 'x' := by
    rintro rfl
    exact absurd upper (by decide)
  rw [upper, List.mem_cons, List.mem_singleton, or_iff_right small]

theorem digitsThen_map_toUpper (cs : List Char) :
    DigitsThen ['X'] (cs.map Char.toUpper) ↔ DigitsThen ['x', 'X'] cs := by
  have digits_iff : ∀ ds : List Char,
      (∀ c ∈ ds.map Char.toUpper, c.isDigit = true) ↔ ∀ c ∈ ds, c.isDigit = true := by
    intro ds
    rw [List.forall_mem_map]
    simp only [isDigit_toUpper]
  constructor
  · intro h
    generalize capitals : cs.map Char.toUpper = ds at h
    cases h with
    | plain digits =>
      rw [← capitals, digits_iff] at digits
      exact .plain digits
    | @checked digits _ plain known =>
      -- The capitals end in a check character, so the text ends in one character that becomes it.
      obtain ⟨front, back, rfl, rfl, last⟩ := List.map_eq_append_iff.mp capitals
      obtain ⟨check, rfl, same⟩ := List.map_eq_singleton_iff.mp last
      rw [List.mem_singleton.mp known] at same
      exact .checked ((digits_iff front).mp plain) ((toUpper_eq_check_iff check).mp same)
  · intro h
    cases h with
    | plain digits => exact .plain ((digits_iff cs).mpr digits)
    | @checked digits check plain known =>
      rw [List.map_append, List.map_singleton, (toUpper_eq_check_iff check).mpr known]
      exact .checked ((digits_iff digits).mpr plain) (List.mem_singleton_self _)

theorem identifier_iff_spelled {raw isbn : String} (h : normalize? raw = some isbn) :
    Identifier isbn ↔ Spelled raw := by
  obtain ⟨_, same⟩ := (normalize?_eq_some_iff raw isbn).mp h
  rw [Identifier, same, digitsThen_map_toUpper, Spelled]

theorem spelled_of_dropped {raw : String} (h : normalize? raw = none) : Spelled raw := by
  rw [Spelled, (normalize?_eq_none_iff raw).mp h]
  exact .plain (by simp)

/-- A text is dropped or becomes an identifier exactly when it spells one. -/
theorem forall_identifier_iff (raw : String) :
    (∀ isbn, normalize? raw = some isbn → Identifier isbn) ↔ Spelled raw := by
  cases answer : normalize? raw with
  | none => simp [spelled_of_dropped answer]
  | some isbn =>
    rw [← identifier_iff_spelled answer]
    simp

/-- Hyphens separate, a minus sign does not. -/
example : Spelled " 0-8044-2957-x" ∧ ¬ Spelled "978−0" := by decide +kernel

end Isbn

namespace Planner

theorem forall_isbnCandidates_iff (b : Book) :
    (∀ isbn ∈ isbnCandidates b, Isbn.Identifier isbn) ↔
      ∀ raw, b.isbn13 = some raw ∨ b.isbn10 = some raw → Isbn.Spelled raw := by
  simp only [← Isbn.forall_identifier_iff, mem_isbnCandidates_iff]
  constructor
  · intro every raw given isbn answer
    exact every isbn ⟨raw, given, answer⟩
  · rintro every isbn ⟨raw, given, answer⟩
    exact every raw given isbn answer

/-- What normalizing answers is an identifier exactly for the texts that spell one. So the candidates
of a plan that is derived from a book are identifiers exactly when both of its texts spell one; any
other text is sent as it is. -/
theorem isbnCandidates_identify_iff (p : Planner) (b : Book) (selection : Selection)
    (manualQuery : Option String) :
    (∀ raw, (∀ isbn, Isbn.normalize? raw = some isbn → Isbn.Identifier isbn) ↔
      Isbn.Spelled raw) ∧
    ((∀ isbn ∈ (p.plan b selection manualQuery).isbnCandidates, Isbn.Identifier isbn) ↔
      (∃ query ∈ manualQuery, Text.trim query ≠ "") ∨
        ∀ raw, b.isbn13 = some raw ∨ b.isbn10 = some raw → Isbn.Spelled raw) := by
  refine ⟨Isbn.forall_identifier_iff, ?_⟩
  by_cases manual : ∃ query ∈ manualQuery, Text.trim query ≠ ""
  · obtain ⟨query, given, filled⟩ := manual
    cases Option.mem_def.mp given
    rw [p.plan_of_query b selection filled]
    refine iff_of_true ?_ (Or.inl ⟨query, rfl, filled⟩)
    intro isbn member
    cases member
  · rw [or_iff_right manual, p.plan_of_blank b selection (by simpa using manual)]
    exact forall_isbnCandidates_iff b

/-- A note in the place of a number is sent as a number. -/
theorem isbnCandidates_keep_note :
    let b : Book := { title := "Dune", isbn13 := some "unknown" }
    let plan := (ofDefaults ["en"] "en").plan b .default none
    Isbn.normalize? "unknown" = some "UNKNOWN" ∧ plan.isbnCandidates = ["UNKNOWN"] ∧
      ¬ Isbn.Identifier "UNKNOWN" ∧
      ¬ ∀ raw isbn, Isbn.normalize? raw = some isbn → Isbn.Identifier isbn := by
  intro b plan
  have answer : Isbn.normalize? "unknown" = some "UNKNOWN" := by decide +kernel
  have foreign : ¬ Isbn.Identifier "UNKNOWN" := by decide
  exact ⟨answer, by decide +kernel, foreign, fun every => foreign (every "unknown" _ answer)⟩

end Planner

end ReleaseSearch
