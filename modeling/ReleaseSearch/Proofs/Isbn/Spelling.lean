import ReleaseSearch.Proofs.Isbn
import ReleaseSearch.Proofs.Planner.Plans

/-! Spellings of one identifier. They differ in separators and in the case of ASCII letters, and
normalizing takes away no other difference. So the candidates of a plan depend on what the two
numbers of the book are, and not on how they are written or which languages are asked for. -/
namespace ReleaseSearch

namespace Isbn

/-- What the spellings of one identifier have in common: the characters other than blanks and
hyphens, ASCII letters in one case. -/
def bare (raw : String) : List Char :=
  (raw.toList.filter fun c => !Text.isBlank c && c != '-').map Char.toLower

theorem bare_eq (raw : String) : bare raw = (kept raw).map Char.toLower := by
  have test : (fun c => !Text.isBlank c && c != '-') = fun c => !isSeparator c := by
    funext c
    rw [isSeparator, Bool.not_or]
    rfl
  rw [bare, kept, test]

/-- Nothing but separators is in a text that is dropped. -/
theorem normalize?_eq_none_iff_separators (raw : String) :
    normalize? raw = none ↔ ∀ c ∈ raw.toList, Text.isBlank c = true ∨ c = '-' := by
  rw [normalize?_eq_none_iff, kept, List.filter_eq_nil_iff]
  refine forall₂_congr fun c _ => ?_
  rw [Bool.not_eq_true', Bool.not_eq_false, isSeparator, Bool.or_eq_true, beq_iff_eq]

theorem bare_of_normalize? {raw isbn : String} (h : normalize? raw = some isbn) :
    bare raw = isbn.toList.map Char.toLower := by
  obtain ⟨_, capitals⟩ := (normalize?_eq_some_iff raw isbn).mp h
  rw [bare_eq, capitals, Text.map_toLower_map_toUpper]

/-- Two texts have the same normal form exactly when they spell the same characters. -/
theorem normalize?_eq_normalize?_iff (raw other : String) :
    normalize? raw = normalize? other ↔ bare raw = bare other := by
  constructor
  · intro same
    cases answer : normalize? raw with
    | none =>
      have dropped : normalize? other = none := same ▸ answer
      rw [bare_eq, bare_eq, (normalize?_eq_none_iff raw).mp answer,
        (normalize?_eq_none_iff other).mp dropped]
    | some isbn =>
      have answer' : normalize? other = some isbn := same ▸ answer
      rw [bare_of_normalize? answer, bare_of_normalize? answer']
  · intro same
    have capitals : ∀ text, (kept text).map Char.toUpper = (bare text).map Char.toUpper := by
      intro text
      rw [bare_eq, Text.map_toUpper_map_toLower]
    have read : ∀ text, normalize? text =
        if ((kept text).map Char.toUpper).isEmpty then none
        else some (String.ofList ((kept text).map Char.toUpper)) := fun _ => rfl
    rw [read, read, capitals, capitals, same]

/-- A normal form is its own. -/
theorem normalize?_of_normal {raw isbn : String} (h : normalize? raw = some isbn) :
    normalize? isbn = some isbn := by
  obtain ⟨filled, clean⟩ := normalize?_clean h
  have whole : kept isbn = isbn.toList := by
    rw [kept, List.filter_eq_self]
    intro c member
    rw [clean c member]
    rfl
  have capitals : isbn.toList.map Char.toUpper = isbn.toList := by
    obtain ⟨_, same⟩ := (normalize?_eq_some_iff raw isbn).mp h
    rw [same, List.map_map]
    apply List.map_congr_left
    intro c _
    exact Text.forall_of_ascii (p := fun c => c.toUpper.toUpper = c.toUpper) (by decide)
      (fun c _ upper => by rw [upper, upper]) c
  rw [normalize?_eq_some_iff, whole, capitals]
  exact ⟨by simpa using filled, rfl⟩

end Isbn

namespace Planner

/-- The numbers of a book that are sent: the long one, and the short one if it is another. -/
def sentNumbers : Option String → Option String → List String
  | some long, some short => if short = long then [long] else [long, short]
  | some long, none => [long]
  | none, some short => [short]
  | none, none => []

theorem isbnCandidates_eq (b : Book) : isbnCandidates b =
    sentNumbers (b.isbn13.bind Isbn.normalize?) (b.isbn10.bind Isbn.normalize?) := by
  unfold isbnCandidates
  cases b.isbn13.bind Isbn.normalize? with
  | none => cases b.isbn10.bind Isbn.normalize? <;> rfl
  | some long =>
    cases b.isbn10.bind Isbn.normalize? with
    | none => rfl
    | some short =>
      by_cases same : short = long
      · simp [sentNumbers, same]
      · simp [sentNumbers, same]

theorem isbnCandidates_of_derived (p : Planner) (b : Book) {selection : Selection}
    {manualQuery : Option String} (derived : (p.plan b selection manualQuery).isManual = false) :
    (p.plan b selection manualQuery).isbnCandidates = isbnCandidates b := by
  rcases p.plan_cases b selection manualQuery with ⟨query, _, eq⟩ | eq
  · rw [eq] at derived
    cases derived
  · rw [eq]
    rfl

theorem normalForm_of_spelling {number other : Option String}
    (same : number.map Isbn.bare = other.map Isbn.bare) :
    number.bind Isbn.normalize? = other.bind Isbn.normalize? := by
  cases number with
  | none =>
    cases other with
    | none => rfl
    | some text => cases same
  | some raw =>
    cases other with
    | none => cases same
    | some text => exact (Isbn.normalize?_eq_normalize?_iff raw text).mpr (Option.some.inj same)

/-- Texts that spell the same characters have one normal form, which is its own, and only texts of
separators have none. A plan that is derived from a book sends the normal forms of its numbers, the
long one first and each once, whatever the planner, the languages, and the spelling of the numbers. -/
theorem isbnCandidates_of_spelling :
    (∀ raw other, Isbn.normalize? raw = Isbn.normalize? other ↔ Isbn.bare raw = Isbn.bare other) ∧
    (∀ raw, Isbn.normalize? raw = none ↔ ∀ c ∈ raw.toList, Text.isBlank c = true ∨ c = '-') ∧
    (∀ raw isbn, Isbn.normalize? raw = some isbn → Isbn.normalize? isbn = some isbn) ∧
    ∀ (p : Planner) (b : Book) (selection : Selection) (manualQuery : Option String),
      let plan := p.plan b selection manualQuery
      plan.isManual = false →
        plan.isbnCandidates =
          sentNumbers (b.isbn13.bind Isbn.normalize?) (b.isbn10.bind Isbn.normalize?) ∧
        (∀ raw other, b.isbn13 = some raw → b.isbn10 = some other →
          Isbn.bare raw = Isbn.bare other →
            plan.isbnCandidates = (Isbn.normalize? raw).toList) ∧
        ∀ (q : Planner) (c : Book) (selection' : Selection) (manualQuery' : Option String),
          (q.plan c selection' manualQuery').isManual = false →
          c.isbn13.map Isbn.bare = b.isbn13.map Isbn.bare →
          c.isbn10.map Isbn.bare = b.isbn10.map Isbn.bare →
            (q.plan c selection' manualQuery').isbnCandidates = plan.isbnCandidates := by
  refine ⟨Isbn.normalize?_eq_normalize?_iff, Isbn.normalize?_eq_none_iff_separators,
    fun _ _ => Isbn.normalize?_of_normal, ?_⟩
  intro p b selection manualQuery plan derived
  have sent : plan.isbnCandidates = isbnCandidates b := p.isbnCandidates_of_derived b derived
  refine ⟨sent.trans (isbnCandidates_eq b), ?_, ?_⟩
  · intro raw other long short same
    have one : Isbn.normalize? raw = Isbn.normalize? other :=
      (Isbn.normalize?_eq_normalize?_iff raw other).mpr same
    rw [sent, isbnCandidates_eq, long, short, Option.bind_some, Option.bind_some, ← one]
    cases Isbn.normalize? raw with
    | none => rfl
    | some isbn => exact if_pos rfl
  · intro q c selection' manualQuery' derived' long short
    rw [q.isbnCandidates_of_derived c derived', sent, isbnCandidates_eq, isbnCandidates_eq,
      normalForm_of_spelling long, normalForm_of_spelling short]

theorem isbnCandidates_of_spelling_check_letter :
    let p := ofDefaults ["en"] "en"
    let b : Book := { title := "Emma", isbn13 := some " 0-8044-2957-x", isbn10 := some "080442957X" }
    let c : Book :=
      { title := "Dune", isbn13 := some "0\u00a08044 2957 X\u3000", isbn10 := some "0804-42957-x" }
    Isbn.bare " 0-8044-2957-x" = Isbn.bare "080442957X" ∧
      Isbn.normalize? " 0-8044-2957-x" = some "080442957X" ∧
      Isbn.normalize? "080442957X" = some "080442957X" ∧
      (p.plan b .all (some " ")).isManual = false ∧
      (p.plan b .all (some " ")).isbnCandidates = ["080442957X"] ∧
      (p.plan c (.explicit ["hu"]) none).isManual = false ∧
      c.isbn13.map Isbn.bare = b.isbn13.map Isbn.bare ∧
      c.isbn10.map Isbn.bare = b.isbn10.map Isbn.bare ∧
      (p.plan c (.explicit ["hu"]) none).isbnCandidates = ["080442957X"] := by
  intro p b c
  have same : Isbn.bare " 0-8044-2957-x" = Isbn.bare "080442957X" := by decide +kernel
  have answer : Isbn.normalize? " 0-8044-2957-x" = some "080442957X" := by decide +kernel
  have derived : (p.plan b .all (some " ")).isManual = false := by decide +kernel
  have derived' : (p.plan c (.explicit ["hu"]) none).isManual = false := by decide +kernel
  have long : c.isbn13.map Isbn.bare = b.isbn13.map Isbn.bare := by decide +kernel
  have short : c.isbn10.map Isbn.bare = b.isbn10.map Isbn.bare := by decide +kernel
  obtain ⟨_, _, fixed, plans⟩ := isbnCandidates_of_spelling
  obtain ⟨_, once, respelled⟩ := plans p b .all (some " ") derived
  have sent : (p.plan b .all (some " ")).isbnCandidates = ["080442957X"] := by
    rw [once _ _ rfl rfl same, answer]
    rfl
  exact ⟨same, answer, fixed _ _ answer, derived, sent, derived', long, short,
    (respelled p c _ _ derived' long short).trans sent⟩

end Planner

end ReleaseSearch
