import ReleaseSearch.Config
import ReleaseSearch.Proofs.Rules
import ReleaseSearch.Simplifier
import ReleaseSearch.Title.SeriesMarker

/-! Places in a series, as they are written: a marker of the table, a gap, a number. Where the table
has a marker that is not blank, these texts are the ones the test accepts. A table of blank entries
is accepted as well; it has no marker to ask for, and every number passes the test. -/
namespace ReleaseSearch
open Text

namespace SeriesMarker

/-- Digits only, or roman letters only. -/
inductive Number : List Char → Prop where
  | arabic {cs} : cs ≠ [] → (∀ c ∈ cs, c ∈ "0123456789".toList) → Number cs
  | roman {cs} : cs ≠ [] → (∀ c ∈ cs, c ∈ "ivxlcdmIVXLCDM".toList) → Number cs

/-- The marker in letters of either case, and a number behind it. Without a gap the marker ends with
a period. -/
inductive Numbered (marker : List Char) : List Char → Prop where
  | mk {word gap number} : word.map Char.toLower = marker.map Char.toLower →
      (∀ c ∈ gap, isAsciiBlank c = true) → (gap = [] → marker.getLast? = some '.') →
      Number number → Numbered marker (word ++ (gap ++ number))

/-- The text begins with the marker, in letters of either case, but for blanks around them. -/
def Begins (marker text : String) : Prop :=
  ∃ word, word <+: (trim text).toList ∧
    word.map Char.toLower = (trim marker).toList.map Char.toLower

theorem isDigit_iff (c : Char) : c.isDigit = true ↔ c ∈ "0123456789".toList := by
  apply mem_of_ascii_class (by decide) _ (by decide)
  intro c above
  rw [Char.isDigit, Bool.and_eq_false_iff]
  right
  rw [decide_eq_false_iff_not, UInt32.le_iff_toNat_le]
  change ¬ c.toNat ≤ 57
  omega

theorem isRomanLetter_iff (c : Char) :
    isRomanLetter c = true ↔ c ∈ "ivxlcdmIVXLCDM".toList := by
  apply mem_of_ascii_class (by decide) _ (by decide)
  intro c above
  rw [isRomanLetter, toLower_of_not_ascii above, Bool.eq_false_iff, Ne, List.contains_iff_mem]
  intro member
  have low : ['i', 'v', 'x', 'l', 'c', 'd', 'm'].all (fun d => decide (d.toNat < 0x80)) = true := by
    decide
  have := of_decide_eq_true (List.all_eq_true.mp low c member)
  omega

theorem isNumber_iff (cs : List Char) : isNumber cs = true ↔ Number cs := by
  simp only [isNumber, Bool.and_eq_true, Bool.or_eq_true, List.all_eq_true, isDigit_iff,
    isRomanLetter_iff]
  constructor
  · rintro ⟨filled, digits | letters⟩
    · exact .arabic (by simpa using filled) digits
    · exact .roman (by simpa using filled) letters
  · intro h
    cases h with
    | arabic filled digits => exact ⟨by simpa using filled, Or.inl digits⟩
    | roman filled letters => exact ⟨by simpa using filled, Or.inr letters⟩

/-- No blank and no period is in a number. -/
theorem Number.plain {cs : List Char} (h : Number cs) :
    ∀ c ∈ cs, isAsciiBlank c = false ∧ c.toLower ≠ '.' := by
  have plain : ∀ signs : List Char,
      signs.all (fun c => !isAsciiBlank c && c.toLower != '.') = true →
        ∀ c ∈ signs, isAsciiBlank c = false ∧ c.toLower ≠ '.' := by
    intro signs all c member
    simpa using List.all_eq_true.mp all c member
  intro c member
  cases h with
  | arabic _ digits => exact plain _ (by decide) c (digits c member)
  | roman _ letters => exact plain _ (by decide) c (letters c member)

theorem Number.dropWhile_append {number gap : List Char} (h : Number number)
    (blank : ∀ c ∈ gap, isAsciiBlank c = true) :
    (gap ++ number).dropWhile isAsciiBlank = number :=
  (split_run blank fun c member => (h.plain c (List.mem_of_mem_head? member)).1).2

theorem numberAfter?_eq_some_iff {marker cs number : List Char} :
    numberAfter? marker cs = some number ↔ ∃ gap, (∀ c ∈ gap, isAsciiBlank c = true) ∧
      (gap = [] → marker.getLast? = some '.') ∧ Number number ∧ cs = gap ++ number := by
  unfold numberAfter?
  dsimp only
  rw [Option.ite_none_right_eq_some]
  simp only [Option.some_inj, mayTouch, Bool.and_eq_true, Bool.or_eq_true, isNumber_iff, beq_iff_eq,
    decide_eq_true_eq]
  constructor
  · rintro ⟨⟨isNumber, apart⟩, rfl⟩
    have split := List.takeWhile_append_dropWhile (p := isAsciiBlank) (l := cs)
    refine ⟨_, fun c member => List.mem_takeWhile_imp member, ?_, isNumber, split.symm⟩
    intro touching
    rw [touching, List.nil_append] at split
    exact apart.resolve_right (by rw [split]; omega)
  · rintro ⟨gap, blank, touching, isNumber, rfl⟩
    rw [isNumber.dropWhile_append blank]
    refine ⟨⟨isNumber, ?_⟩, rfl⟩
    by_cases apart : gap = []
    · exact Or.inl (touching apart)
    · right
      have filled := List.length_pos_iff.mpr apart
      rw [List.length_append]
      omega

theorem admits_number_iff {marker text number : List Char} :
    Admits sameLetter numberAfter? marker text number ↔
      ∃ word gap, word.map Char.toLower = marker.map Char.toLower ∧
        (∀ c ∈ gap, isAsciiBlank c = true) ∧ (gap = [] → marker.getLast? = some '.') ∧
        Number number ∧ text = word ++ (gap ++ number) := by
  simp only [Admits, Option.bind_eq_some_iff, afterWord?_sameLetter, numberAfter?_eq_some_iff]
  constructor
  · rintro ⟨_, ⟨word, spelled, rfl⟩, gap, blank, touching, isNumber, rfl⟩
    exact ⟨word, gap, spelled, blank, touching, isNumber, rfl⟩
  · rintro ⟨word, gap, spelled, blank, touching, isNumber, rfl⟩
    exact ⟨gap ++ number, ⟨word, spelled, rfl⟩, gap, blank, touching, isNumber, rfl⟩

theorem numbered_iff {marker text : List Char} :
    Numbered marker text ↔ ∃ number, Admits sameLetter numberAfter? marker text number := by
  simp only [admits_number_iff]
  constructor
  · rintro @⟨word, gap, number, spelled, blank, touching, isNumber⟩
    exact ⟨number, word, gap, spelled, blank, touching, isNumber, rfl⟩
  · rintro ⟨number, word, gap, spelled, blank, touching, isNumber, rfl⟩
    exact .mk spelled blank touching isNumber

/-- The signs that part a number from what stands before it: blanks and the period. -/
def isBound (c : Char) : Bool := isAsciiBlank c || c.toLower == '.'

theorem Number.no_bound {cs : List Char} (h : Number cs) : ∀ c ∈ cs, isBound c = false := by
  intro c member
  obtain ⟨noBlank, noPeriod⟩ := h.plain c member
  simp [isBound, noBlank, noPeriod]

/-- A bound stands before the number, whichever marker is read: the last blank of the gap, or the
period that ends the marker. -/
theorem exists_bound {marker text number : List Char}
    (h : Admits sameLetter numberAfter? marker text number) :
    ∃ b, isBound b = true ∧ b :: number <:+ text := by
  obtain ⟨word, gap, spelled, blank, touching, _, rfl⟩ := admits_number_iff.mp h
  cases gap using List.reverseRecOn with
  | append_singleton gap b =>
    refine ⟨b, by simp [isBound, blank b (by simp)], word ++ gap, ?_⟩
    simp
  | nil =>
    have period : '.' ∈ (word.map Char.toLower).getLast? := by
      rw [spelled, List.getLast?_map, touching rfl]
      rfl
    rw [List.getLast?_map] at period
    obtain ⟨b, last, lower⟩ := Option.map_eq_some_iff.mp period
    obtain ⟨front, rfl⟩ := List.getLast?_eq_some_iff.mp last
    refine ⟨b, by simp [isBound, lower], front, ?_⟩
    simp

/-- The number is what stands behind the last bound, so any two markers leave the same one. -/
theorem oneAnswer_number (text : List Char) : OneAnswer sameLetter numberAfter? text := by
  intro marker other number number' first second
  obtain ⟨b, bound, ends⟩ := exists_bound first
  obtain ⟨b', bound', ends'⟩ := exists_bound second
  obtain ⟨_, _, _, _, _, isNumber, _⟩ := admits_number_iff.mp first
  obtain ⟨_, _, _, _, _, isNumber', _⟩ := admits_number_iff.mp second
  exact eq_of_last bound bound' isNumber.no_bound isNumber'.no_bound ends ends'

theorem Numbered.begins {marker text : String}
    (h : Numbered (trim marker).toList (trim text).toList) : Begins marker text := by
  generalize split : (trim text).toList = cs at h
  obtain @⟨word, gap, number, spelled, _, _, _⟩ := h
  exact ⟨word, by rw [split]; exact List.prefix_append _ _, spelled⟩

/-- A marker leaves its trace in front of the number: a blank or a period. -/
theorem Numbered.not_number {marker cs : List Char} (h : Numbered marker cs) : ¬ Number cs := by
  intro isNumber
  obtain ⟨number, admitted⟩ := numbered_iff.mp h
  obtain ⟨b, bound, ends⟩ := exists_bound admitted
  rw [isNumber.no_bound b (ends.mem (List.mem_cons_self ..))] at bound
  cases bound

end SeriesMarker

open SeriesMarker

theorem Rules.isSeriesMarker_eq (rules : Rules) (text : String) :
    rules.isSeriesMarker text =
      if vocabulary rules.seriesMarkers = [] then isNumber (trim text).toList
      else (markedNumber? ((vocabulary rules.seriesMarkers).map String.toList)
        (trim text).toList).isSome := by
  unfold isSeriesMarker
  dsimp only
  cases vocabulary rules.seriesMarkers with
  | nil => rfl
  | cons marker rest => rfl

theorem Rules.isSeriesMarker_iff (rules : Rules) (text : String) :
    rules.isSeriesMarker text = true ↔
      (∃ entry ∈ rules.seriesMarkers, trim entry ≠ "" ∧
        Numbered (trim entry).toList (trim text).toList) ∨
      (∀ entry ∈ rules.seriesMarkers, trim entry = "") ∧ Number (trim text).toList := by
  rw [isSeriesMarker_eq, ← vocabulary_eq_nil_iff]
  split
  · rename_i blank
    have unnamed := vocabulary_eq_nil_iff.mp blank
    rw [isNumber_iff]
    constructor
    · exact fun number => Or.inr ⟨blank, number⟩
    · rintro (⟨entry, listed, filled, _⟩ | ⟨_, number⟩)
      · exact absurd (unnamed entry listed) filled
      · exact number
  · rename_i worded
    rw [or_iff_left fun h => worded h.1, markedNumber?, isSome_firstMatch?_iff]
    simp only [← numbered_iff]
    constructor
    · rintro ⟨_, member, numbered⟩
      obtain ⟨_, worded, rfl⟩ := List.mem_map.mp member
      obtain ⟨entry, listed, rfl, filled⟩ := mem_vocabulary_iff.mp worded
      exact ⟨entry, listed, filled, numbered⟩
    · rintro ⟨entry, listed, filled, numbered⟩
      exact ⟨_, List.mem_map_of_mem (mem_vocabulary_iff.mpr ⟨entry, listed, rfl, filled⟩), numbered⟩

namespace Simplifier

/-- Of a table with a marker that is not blank, the test accepts exactly the texts that are such a
marker with a number. -/
theorem isSeriesMarker_iff_numbered (s : Simplifier)
    (worded : ∃ entry ∈ s.rules.seriesMarkers, trim entry ≠ "") (text : String) :
    s.rules.isSeriesMarker text = true ↔
      ∃ entry ∈ s.rules.seriesMarkers, trim entry ≠ "" ∧
        Numbered (trim entry).toList (trim text).toList := by
  rw [Rules.isSeriesMarker_iff, or_iff_left]
  rintro ⟨blank, _⟩
  obtain ⟨entry, listed, filled⟩ := worded
  exact filled (blank entry listed)

theorem isSeriesMarker_iff_numbered_overlapping :
    let rules : Rules := { seriesMarkers := ["no", " No.\u00a0", "part (", ""] }
    ∃ s, ofRules rules = .ok s ∧ (∃ entry ∈ s.rules.seriesMarkers, trim entry ≠ "") ∧
      s.rules.isSeriesMarker "\u3000nO.xIv\n" = true ∧
      (∃ entry ∈ s.rules.seriesMarkers, trim entry ≠ "" ∧
        Numbered (trim entry).toList (trim "\u3000nO.xIv\n").toList) ∧
      s.rules.isSeriesMarker "no7" = false ∧
      ¬ ∃ entry ∈ s.rules.seriesMarkers, trim entry ≠ "" ∧
        Numbered (trim entry).toList (trim "no7").toList := by
  intro rules
  have accepted : ofRules rules = .ok ⟨rules, by decide⟩ := rfl
  have worded : ∃ entry ∈ rules.seriesMarkers, trim entry ≠ "" := ⟨"no", by decide, by decide⟩
  have accepts := isSeriesMarker_iff_numbered ⟨rules, by decide⟩ worded
  have touching : rules.isSeriesMarker "\u3000nO.xIv\n" = true := by decide +kernel
  have apart : rules.isSeriesMarker "no7" = false := by decide +kernel
  refine ⟨_, accepted, worded, touching, (accepts _).mp touching, apart, ?_⟩
  intro numbered
  rw [(accepts _).mpr numbered] at apart
  cases apart

/-- The text of a series marker begins with a marker of the table exactly when the table has one that
is not blank. Otherwise a number alone is a series marker, and then only. -/
theorem marker_of_table_iff (s : Simplifier) (text : String) :
    (s.rules.isSeriesMarker text = true →
      ((∃ entry ∈ s.rules.seriesMarkers, trim entry ≠ "" ∧ Begins entry text) ↔
        ∃ entry ∈ s.rules.seriesMarkers, trim entry ≠ "")) ∧
    (Number (trim text).toList →
      (s.rules.isSeriesMarker text = true ↔ ∀ entry ∈ s.rules.seriesMarkers, trim entry = "")) := by
  rw [Rules.isSeriesMarker_iff]
  constructor
  · intro marked
    constructor
    · rintro ⟨entry, listed, filled, _⟩
      exact ⟨entry, listed, filled⟩
    · rintro ⟨other, worded, word⟩
      rcases marked with ⟨entry, listed, filled, numbered⟩ | ⟨blank, _⟩
      · exact ⟨entry, listed, filled, numbered.begins⟩
      · exact absurd (blank other worded) word
  · intro number
    constructor
    · rintro (⟨entry, _, _, numbered⟩ | ⟨blank, _⟩)
      · exact absurd number numbered.not_number
      · exact blank
    · exact fun blank => Or.inr ⟨blank, number⟩

theorem marker_of_table_iff_volume :
    let s : Simplifier := ⟨{ seriesMarkers := [" ", "Vol."] }, by decide⟩
    s.rules.isSeriesMarker "vOL.7" = true ∧
      (∃ entry ∈ s.rules.seriesMarkers, trim entry ≠ "" ∧ Begins entry "vOL.7") ∧
      Number (trim "1984").toList ∧ ¬ s.rules.isSeriesMarker "1984" = true := by
  intro s
  have listed : "Vol." ∈ s.rules.seriesMarkers := by decide
  have filled : trim "Vol." ≠ "" := by decide
  have marked : s.rules.isSeriesMarker "vOL.7" = true := by decide +kernel
  have number : Number (trim "1984").toList := (isNumber_iff _).mp (by decide +kernel)
  refine ⟨marked, ((marker_of_table_iff s "vOL.7").1 marked).mpr ⟨"Vol.", listed, filled⟩, number, ?_⟩
  rw [(marker_of_table_iff s "1984").2 number]
  exact fun blank => filled (blank "Vol." listed)

/-- A configuration whose one marker is blank passes the check, and with it a year or a word of roman
letters is a series marker. -/
theorem bare_number_of_blank_table :
    let config : Config := { simplifier := { seriesMarkers := [" "] } }
    config.validate = .ok () ∧ ∃ s, ofRules config.simplifier = .ok s ∧
      s.rules.isSeriesMarker "1984" = true ∧ s.rules.isSeriesMarker "Civic" = true ∧
      ¬ ∃ entry ∈ s.rules.seriesMarkers, trim entry ≠ "" ∧ Begins entry "1984" := by
  intro config
  refine ⟨by decide +kernel, ⟨config.simplifier, by decide⟩, rfl, by decide +kernel,
    by decide +kernel, ?_⟩
  rintro ⟨entry, listed, filled, _⟩
  cases List.mem_singleton.mp listed
  exact filled (by decide)

end Simplifier

end ReleaseSearch
