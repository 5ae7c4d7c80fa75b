import ReleaseSearch.Proofs.Author.Grammar
import ReleaseSearch.Proofs.Text.Padding

/-! The suffix behind a name. A suffix of the table that ends the name ends the simplified name too,
unless it is read as another part of the name: it holds the comma or the initial, it begins in the
names, or it ends a longer suffix behind another blank than a space. Even then the names may repeat
it at the end of the answer. -/
namespace ReleaseSearch
open Text

namespace AuthorName

/-- The simplified name ends in the suffix, behind a space. -/
def KeepsSuffix (suffix : List Char) (name : AuthorName) : Prop :=
  ' ' :: suffix <:+ (trim name.display).toList

/-- Given names and a family name, one space apart, end in these characters behind a space. -/
inductive NamesEnd (given family : List Char) : List Char → Prop where
  | inFamily {cs} : ' ' :: cs <:+ family → NamesEnd given family cs
  | family : given ≠ [] → NamesEnd given family family
  | inGiven {front} : ' ' :: front <:+ given → NamesEnd given family (front ++ ' ' :: family)

/-- The suffix that was read, as it stands in the answer. -/
def attached (name : AuthorName) : List Char :=
  match name.suffix with
  | some word => ' ' :: word
  | none => []

/-- The names, in the order of the answer and with what is attached to them, end in the suffix. -/
def RepeatedByNames (suffix : List Char) (name : AuthorName) : Prop :=
  ∃ front, suffix = front ++ name.attached ∧
    NamesEnd (stripWhile isBlank name.given) (stripWhile isBlank name.family) front

/-- A suffix that ends a name and is lost. -/
inductive Mistaken (suffixes : List (List Char)) (author suffix : List Char) : Prop where
  /-- A longer entry of the table ends in the suffix, behind another blank than a space. -/
  | insideEntry {name front b} : Reading suffixes author name → isBlank b = true → b ≠ ' ' →
      name.suffix = some (front ++ b :: suffix) → Mistaken suffixes author suffix
  /-- A comma that parts the name is in the suffix, so it has more of them than the suffix that is
  read. -/
  | acrossComma {name} : Reading suffixes author name →
      (name.suffix.getD []).count ',' < suffix.count ',' → Mistaken suffixes author suffix
  /-- The initial of a name in forward order is in the suffix, with its period. -/
  | acrossInitial {name} : Forward suffixes author name →
      name.family.count '.' + (name.suffix.getD []).count '.' < suffix.count '.' →
      Mistaken suffixes author suffix
  /-- The suffix begins in the family name of a name in forward order. -/
  | inFamilyName {name front part tail} : Forward suffixes author name →
      name.family = front ++ part → part ≠ [] → Ending suffixes tail name.suffix →
      suffix = part ++ tail → ¬ RepeatedByNames suffix name → Mistaken suffixes author suffix
  /-- In inverted order the suffix begins the given names, or begins in them behind a blank that
  parts no names. A suffix alone behind the comma is such a given name. -/
  | inGivenNames {name front part initial tail} : (∀ other, ¬ Forward suffixes author other) →
      Inverted suffixes author name → name.given = front ++ part → part ≠ [] →
      (∀ b ∈ front.getLast?, isBlank b = true ∧ isAsciiBlank b = false) →
      (initial = [] ∨ Initial initial) → Ending suffixes tail name.suffix →
      suffix = part ++ (initial ++ tail) → ¬ RepeatedByNames suffix name →
      Mistaken suffixes author suffix
  /-- In inverted order the suffix begins with the initial, which is dropped. -/
  | asInitial {name m tail} : (∀ other, ¬ Forward suffixes author other) →
      Inverted suffixes author name → m.isUpper = true → Ending suffixes tail name.suffix →
      suffix = m :: '.' :: tail → ¬ RepeatedByNames suffix name → Mistaken suffixes author suffix

theorem Reading.unique {rules : Rules} {author : String} {name other : AuthorName}
    (clear : Trimmed author) (h : Reading (suffixesOf rules) author.toList name)
    (h' : Reading (suffixesOf rules) author.toList other) : name = other := by
  have first := (ofText?_eq_some_iff clear).mpr h
  have second := (ofText?_eq_some_iff clear).mpr h'
  exact Option.some.inj (first.symm.trans second)

section Answer

/-! What the simplified name is made of. -/

/-- The names of the answer. Given names that are blank leave no space behind. -/
def oneSpaceApart (given family : List Char) : List Char :=
  if given = [] then family else given ++ ' ' :: family

theorem namesEnd_iff {given family cs : List Char} :
    ' ' :: cs <:+ oneSpaceApart given family ↔ NamesEnd given family cs := by
  unfold oneSpaceApart
  split
  · rename_i blank
    constructor
    · exact .inFamily
    · intro h
      cases h with
      | inFamily inside => exact inside
      | family filled => exact absurd blank filled
      | inGiven inside => simp [blank] at inside
  · rename_i filled
    rw [cons_suffix_append_iff, List.suffix_cons_iff]
    constructor
    · rintro ((same | inside) | ⟨front, rfl, inside⟩)
      · rw [(List.cons.inj same).2]
        exact .family filled
      · exact .inFamily inside
      · exact .inGiven inside
    · intro h
      cases h with
      | inFamily inside => exact Or.inl (Or.inr inside)
      | family _ => exact Or.inl (Or.inl rfl)
      | inGiven inside => exact Or.inr ⟨_, rfl, inside⟩

variable {rules : Rules} {author : String} {name : AuthorName} (clear : Trimmed author)
  (h : Reading (suffixesOf rules) author.toList name)
include clear h

/-- One of the names begins the text, and where no suffix is read, one ends it. -/
theorem Reading.names_filled :
    (stripWhile isBlank name.given = [] → stripWhile isBlank name.family ≠ []) ∧
      (name.suffix = none → stripWhile isBlank name.family ≠ []) := by
  have filled : ∀ part : List Char,
      trim (String.ofList part) ≠ "" → stripWhile isBlank part ≠ [] := by
    intro part text blank
    exact text (by rw [trim, String.toList_ofList, blank])
  rcases h with forward | ⟨_, inverted⟩
  · generalize split : author.toList = cs at forward
    obtain @⟨given, initial, blanks, family, tail, _, names, _, _, word, ends⟩ := forward
    constructor
    · intro blank
      obtain ⟨c, d, more, eq, _⟩ := names.exists_cons
      exact absurd blank
        (filled given (trim_ne_empty_of_front clear (by rw [eq]; simp) split))
    · rintro ⟨⟩
      cases ends
      rw [List.append_nil, ← List.append_assoc, ← List.append_assoc] at split
      exact filled family (trim_ne_empty_of_back clear word.ne_nil split)
  · generalize split : author.toList = cs at inverted
    obtain ⟨begun, _, _, _⟩ := inverted
    have family := filled _ (trim_ne_empty_of_front clear begun split)
    exact ⟨fun _ => family, fun _ => family⟩

theorem Reading.toList_answer : (trim name.display).toList =
    oneSpaceApart (stripWhile isBlank name.given) (stripWhile isBlank name.family) ++
      name.attached := by
  obtain ⟨begun, ended⟩ := h.names_filled clear
  have words : ∀ word ∈ name.suffix, word ≠ [] ∧ ∀ c ∈ word.getLast?, isBlank c = false := by
    intro word read
    obtain ⟨entry, _, rfl, tidy⟩ :=
      exists_of_mem_suffixesOf (h.suffix_known (noBlankAhead_suffixesOf rules) word read).1
    exact ⟨tidy.toList_ne_nil, tidy.trimmed.2⟩
  have whole : name.display.toList = stripWhile isBlank name.given ++
      ' ' :: (stripWhile isBlank name.family ++ name.attached) := by
    unfold display attached
    cases name.suffix <;> simp
  generalize stripped : stripWhile isBlank name.given = given,
    stripped' : stripWhile isBlank name.family = family at begun ended whole ⊢
  have first : ∀ c ∈ given.head?, isBlank c = false := stripped ▸ (clearEnds_stripWhile ..).1
  have family_clear : ClearEnds isBlank family := stripped' ▸ clearEnds_stripWhile ..
  -- the answer ends in the suffix that was read, or else in the family name
  have last : family ++ name.attached ≠ [] ∧
      ∀ c ∈ (family ++ name.attached).getLast?, isBlank c = false := by
    unfold attached
    cases read : name.suffix with
    | none => simpa [ended read] using family_clear.2
    | some word =>
      obtain ⟨filled, back⟩ := words word read
      dsimp only
      rw [List.getLast?_append_of_ne_nil _ (by simp), List.getLast?_cons_of_ne_nil filled]
      exact ⟨by simp, back⟩
  rw [toList_trim, whole, oneSpaceApart]
  split
  · rename_i blank
    have core : ClearEnds isBlank (family ++ name.attached) := by
      refine ⟨?_, last.2⟩
      rw [List.head?_append_of_ne_nil _ (begun blank)]
      exact family_clear.1
    have space : ∀ c ∈ [' '], isBlank c = true := List.forall_mem_singleton.mpr rfl
    have cut := stripWhile_pad space (List.forall_mem_nil _) (family ++ name.attached)
    rw [List.append_nil, stripWhile_of_clearEnds core] at cut
    rw [blank]
    exact cut
  · rename_i filled
    rw [List.append_assoc]
    apply stripWhile_of_clearEnds
    constructor
    · rw [List.head?_append_of_ne_nil _ filled]
      exact first
    · rw [List.getLast?_append_of_ne_nil _ (by simp), List.getLast?_cons_of_ne_nil last.1]
      exact last.2

/-- The suffix is kept where it was read, or ends what was read behind a space, or where the names
repeat it. -/
theorem Reading.keepsSuffix_iff {suffix : List Char} : KeepsSuffix suffix name ↔
    (∃ word ∈ name.suffix, suffix = word ∨ ' ' :: suffix <:+ word) ∨
      RepeatedByNames suffix name := by
  rw [KeepsSuffix, h.toList_answer clear, RepeatedByNames]
  unfold attached
  cases name.suffix with
  | none => simp [namesEnd_iff]
  | some word =>
    rw [cons_suffix_append_iff, List.suffix_cons_iff]
    simp only [namesEnd_iff, List.cons.injEq, true_and, Option.mem_def, Option.some_inj,
      exists_eq_left']

theorem Reading.not_repeated {suffix : List Char} (lost : ¬ KeepsSuffix suffix name) :
    ¬ RepeatedByNames suffix name := by
  intro repeated
  exact lost ((h.keepsSuffix_iff clear).mpr (Or.inr repeated))

end Answer

section Signs

/-! Commas and periods. The answer has those of the names and of the suffix that was read. -/

theorem count_answer_le {c : Char} (sign : c ≠ ' ') (name : AuthorName) :
    (trim name.display).toList.count c ≤
      name.given.count c + name.family.count c + (name.suffix.getD []).count c := by
  have parts : name.display.toList.count c = (trim (String.ofList name.given)).toList.count c +
      (trim (String.ofList name.family)).toList.count c + (name.suffix.getD []).count c := by
    unfold display
    cases name.suffix <;> simp [sign.symm, Nat.add_assoc]
  have left := (trim_sublist (String.ofList name.given)).count_le c
  have right := (trim_sublist (String.ofList name.family)).count_le c
  rw [String.toList_ofList] at left right
  have cut := (trim_sublist name.display).count_le c
  omega

theorem not_keepsSuffix_of_count {c : Char} (sign : c ≠ ' ') {suffix : List Char}
    {name : AuthorName}
    (more : name.given.count c + name.family.count c + (name.suffix.getD []).count c <
      suffix.count c) : ¬ KeepsSuffix suffix name := by
  intro kept
  have there : (' ' :: suffix).count c ≤ _ := kept.sublist.count_le c
  have names := count_answer_le sign name
  rw [List.count_cons_of_ne sign.symm] at there
  omega

variable {suffixes : List (List Char)} {cs : List Char} {name : AuthorName}

theorem Given.count_eq_zero {given : List Char} (h : Given given) :
    given.count '.' = 0 ∧ given.count ',' = 0 := by
  obtain ⟨period, comma⟩ := (find?_isStop_eq_none_iff given).mp h.find?_isStop
  exact ⟨List.count_eq_zero_of_not_mem period, List.count_eq_zero_of_not_mem comma⟩

theorem Forward.given (h : Forward suffixes cs name) : Given name.given := by
  obtain ⟨names, _, _, _, _⟩ := h
  exact names

theorem Reading.no_comma (h : Reading suffixes cs name) :
    name.given.count ',' = 0 ∧ name.family.count ',' = 0 := by
  rcases h with ⟨names, _, _, word, _⟩ | ⟨_, ⟨_, free, _, reading⟩⟩
  · refine ⟨names.count_eq_zero.2, List.count_eq_zero_of_not_mem ?_⟩
    intro comma
    exact absurd (word.plain _ comma) (by decide)
  · obtain ⟨_, _, names, _⟩ := reading.exists_rest
    exact ⟨names.count_eq_zero.2, List.count_eq_zero_of_not_mem free⟩

theorem Ending.count_le {tail : List Char} {suffix : Option (List Char)}
    (h : Ending suffixes tail suffix) (c : Char) : (suffix.getD []).count c ≤ tail.count c := by
  cases h with
  | nothing => simp
  | spaced _ _ => exact (List.suffix_append _ _).sublist.count_le c
  | announced _ _ =>
    exact ((List.suffix_append _ _).trans (List.suffix_cons ..)).sublist.count_le c

/-- An ending has a comma of its own, or begins with a blank if at all. -/
theorem Ending.comma_or_blank {tail : List Char} {suffix : Option (List Char)}
    (h : Ending suffixes tail suffix) :
    (suffix.getD []).count ',' < tail.count ',' ∨ ∀ c ∈ tail.head?, isBlank c = true := by
  cases h with
  | nothing => simp
  | spaced gap _ =>
    obtain ⟨c, more, rfl, blank⟩ := gap.exists_cons
    right
    rintro d ⟨⟩
    exact isBlank_of_isAsciiBlank blank
  | announced _ _ =>
    left
    simp only [Option.getD_some, List.count_cons_self, List.count_append]
    omega

/-- What ends an initial behind one character that is no period has the period in it. -/
theorem Initial.period_mem {initial part : List Char} {b : Char} (h : Initial initial)
    (other : b ≠ '.') (ends : b :: part <:+ initial) : '.' ∈ part := by
  obtain @⟨gap, m, _, _⟩ := h
  rcases cons_suffix_append_iff.mp ends with inside | ⟨_, rfl, _⟩
  · rw [List.suffix_cons_iff, List.suffix_cons_iff] at inside
    rcases inside with same | same | none_left
    · simp [(List.cons.inj same).2]
    · exact absurd (List.cons.inj same).1 other
    · simp at none_left
  · simp

theorem invertedRest?_ne_none (ahead : ∀ suffix ∈ suffixes, NoBlankAhead suffix)
    {gap word : List Char} (blanks : Gap gap) (known : word ∈ suffixes) :
    invertedRest? suffixes (gap ++ word) ≠ none := by
  have ends := (ending?_eq_some_iff ahead).mpr (.spaced blanks known)
  rw [invertedRest?, ends, Ne, Option.or_eq_none_iff]
  rintro ⟨_, ⟨⟩⟩

/-- A suffix that begins in the given names does not stand behind an ASCII blank, for there it would
have been read. -/
theorem Reads.not_asciiBlank (ahead : ∀ suffix ∈ suffixes, NoBlankAhead suffix)
    {given part rest : List Char} {b : Char} {suffix : Option (List Char)}
    (h : Reads (invertedRest? suffixes) (given ++ rest) given suffix) (filled : part ≠ [])
    (known : part ++ rest ∈ suffixes) (within : b :: part <:+ given) : isAsciiBlank b = false := by
  rw [Bool.eq_false_iff]
  intro blank
  have starts : NoBlankAhead part := by
    have whole := ahead _ known
    rwa [NoBlankAhead, List.head?_append_of_ne_nil _ filled] at whole
  obtain ⟨gap, behind, isGap, split, refused⟩ := h.exists_refused blank starts within
  cases List.append_cancel_left split
  exact invertedRest?_ne_none ahead isGap known refused

end Signs

section Mistakes

variable {rules : Rules} {author : String} {suffix : List Char} {name : AuthorName}

/-- A suffix that begins in front of the one that was read is kept only where the names repeat
it. -/
theorem Reading.not_keepsSuffix_of_longer (clear : Trimmed author)
    (h : Reading (suffixesOf rules) author.toList name) {tail : List Char}
    (ends : Ending (suffixesOf rules) tail name.suffix) (longer : tail.length < suffix.length)
    (single : ¬ RepeatedByNames suffix name) : ¬ KeepsSuffix suffix name := by
  rw [h.keepsSuffix_iff clear, not_or]
  refine ⟨?_, single⟩
  rintro ⟨word, read, inside⟩
  obtain ⟨_, b, _, behind⟩ := ends.suffix_known word read
  have within := behind.length_le
  rw [List.length_cons] at within
  rcases inside with rfl | inside
  · omega
  · have more := inside.length_le
    rw [List.length_cons] at more
    omega

theorem Mistaken.not_keepsSuffix (clear : Trimmed author)
    (h : Mistaken (suffixesOf rules) author.toList suffix)
    (read : Reading (suffixesOf rules) author.toList name) : ¬ KeepsSuffix suffix name := by
  have longer : ∀ {part tail : List Char}, part ≠ [] → tail.length < (part ++ tail).length := by
    intro part tail filled
    have := List.length_pos_iff.mpr filled
    rw [List.length_append]
    omega
  cases h with
  | @insideEntry other front b otherRead blank noSpace entry =>
    rw [read.unique clear otherRead]
    intro kept
    have behind : b :: suffix <:+ (trim other.display).toList := by
      rw [otherRead.toList_answer clear, attached, entry]
      exact List.suffix_append_of_suffix
        ((List.suffix_append front _).trans (List.suffix_cons ..))
    have same := (List.suffix_of_suffix_length_le behind kept (Nat.le_refl _)).eq_of_length rfl
    exact noSpace (List.cons.inj same).1
  | acrossComma otherRead more =>
    rw [read.unique clear otherRead]
    apply not_keepsSuffix_of_count (c := ',') (by decide)
    obtain ⟨given, family⟩ := otherRead.no_comma
    omega
  | acrossInitial forward more =>
    rw [read.unique clear (Or.inl forward)]
    apply not_keepsSuffix_of_count (c := '.') (by decide)
    have given := forward.given.count_eq_zero.1
    omega
  | inFamilyName forward _ filled ends split single =>
    rw [read.unique clear (Or.inl forward)]
    exact Reading.not_keepsSuffix_of_longer clear (Or.inl forward) ends (split ▸ longer filled)
      single
  | inGivenNames other inverted _ filled _ _ ends split single =>
    rw [read.unique clear (Or.inr ⟨other, inverted⟩)]
    rw [← List.append_assoc] at split
    exact Reading.not_keepsSuffix_of_longer clear (Or.inr ⟨other, inverted⟩) ends
      (split ▸ longer (by simp [filled])) single
  | asInitial other inverted _ ends split single =>
    rw [read.unique clear (Or.inr ⟨other, inverted⟩)]
    exact Reading.not_keepsSuffix_of_longer clear (Or.inr ⟨other, inverted⟩) ends
      (by rw [split, List.length_cons, List.length_cons]; omega) single

end Mistakes

section Places

/-! Where the suffix begins: in the ending of the name, or in the names. -/

/-- A suffix that begins behind a blank of a run begins where the run ends. -/
theorem eq_nil_of_blanks {run begun rest : List Char} {b : Char}
    (blanks : ∀ c ∈ run, isAsciiBlank c = true) (ends : b :: begun <:+ run)
    (starts : ∀ c ∈ (begun ++ rest).head?, isBlank c = false) : begun = [] :=
  eq_nil_of_run (fun c member => isBlank_of_isAsciiBlank (blanks c member)) ends starts

variable {rules : Rules} {author : String} {suffix : List Char} {name : AuthorName} {b : Char}
  (clear : Trimmed author) (filled : suffix ≠ []) (starts : ∀ c ∈ suffix.head?, isBlank c = false)
  (blank : isBlank b = true) (lost : ¬ KeepsSuffix suffix name)
include clear filled starts blank lost

omit filled in
theorem mistaken_of_inside (read : Reading (suffixesOf rules) author.toList name) {tail : List Char}
    (ends : Ending (suffixesOf rules) tail name.suffix) (inside : b :: suffix <:+ tail) :
    Mistaken (suffixesOf rules) author.toList suffix := by
  have within : ∀ {gap word : List Char}, Gap gap → b :: suffix <:+ gap ++ word →
      suffix = word ∨ b :: suffix <:+ word := by
    intro gap word isGap behind
    rcases cons_suffix_append_iff.mp behind with inWord | ⟨begun, rfl, inGap⟩
    · exact Or.inr inWord
    · cases eq_nil_of_blanks isGap.blank inGap starts
      exact Or.inl rfl
  have found : ∃ word, name.suffix = some word ∧ (suffix = word ∨ b :: suffix <:+ word) := by
    generalize name.suffix = attached at ends
    cases ends with
    | nothing => simp at inside
    | spaced gap _ => exact ⟨_, rfl, within gap inside⟩
    | announced gap _ =>
      rcases List.suffix_cons_iff.mp inside with same | behind
      · rw [(List.cons.inj same).1] at blank
        exact absurd blank (by decide)
      · exact ⟨_, rfl, within gap behind⟩
  obtain ⟨word, entry, same | ⟨front, whole⟩⟩ := found
  · exact absurd ((read.keepsSuffix_iff clear).mpr (Or.inl ⟨word, entry, Or.inl same⟩)) lost
  · by_cases space : b = ' '
    · have kept : ' ' :: suffix <:+ word := ⟨front, space ▸ whole⟩
      exact absurd ((read.keepsSuffix_iff clear).mpr (Or.inl ⟨word, entry, Or.inr kept⟩)) lost
    · exact .insideEntry read blank space (entry.trans (congrArg some whole.symm))

/-- Where it does not lie in the ending, the suffix has the comma of the ending in it or begins in
the names. -/
theorem mistaken_or_begun (read : Reading (suffixesOf rules) author.toList name)
    {names tail : List Char} (tailEnds : Ending (suffixesOf rules) tail name.suffix)
    (ends : b :: suffix <:+ names ++ tail) :
    Mistaken (suffixesOf rules) author.toList suffix ∨
      ∃ begun, suffix = begun ++ tail ∧ begun ≠ [] ∧ (∀ c ∈ begun.head?, isBlank c = false) ∧
        b :: begun <:+ names := by
  rcases cons_suffix_append_iff.mp ends with inside | ⟨begun, rfl, inNames⟩
  · exact Or.inl (mistaken_of_inside clear starts blank lost read tailEnds inside)
  · rcases tailEnds.comma_or_blank with comma | blanks
    · refine Or.inl (.acrossComma read ?_)
      rw [List.count_append]
      exact Nat.lt_add_left _ comma
    · have left : begun ≠ [] := by
        rintro rfl
        rw [List.nil_append] at filled starts
        obtain ⟨c, more, rfl⟩ := List.exists_cons_of_ne_nil filled
        have first := starts c rfl
        rw [blanks c rfl] at first
        cases first
      rw [List.head?_append_of_ne_nil _ left] at starts
      exact Or.inr ⟨begun, rfl, left, starts, inNames⟩

omit clear filled lost in
/-- Behind the initial of a name in forward order a text that begins behind a blank and with none
begins in the family name; otherwise it has the period in it. -/
theorem begins_in_forward {given initial blanks family : List Char} (capital : Initial initial)
    (isBlank' : ∀ c ∈ blanks, isAsciiBlank c = true)
    (ends : b :: suffix <:+ given ++ (initial ++ (blanks ++ family))) :
    suffix <:+ family ∨ ∃ front, '.' ∈ front ∧ suffix = front ++ (blanks ++ family) := by
  rcases cons_suffix_append_iff.mp ends with behind | ⟨front, rfl, _⟩
  · rcases cons_suffix_append_iff.mp behind with behind | ⟨front, rfl, inInitial⟩
    · rcases cons_suffix_append_iff.mp behind with within | ⟨front, rfl, inBlanks⟩
      · exact Or.inl ((List.suffix_cons ..).trans within)
      · cases eq_nil_of_blanks isBlank' inBlanks starts
        exact Or.inl List.suffix_rfl
    · have other : b ≠ '.' := by
        rintro rfl
        exact absurd blank (by decide)
      exact Or.inr ⟨front, capital.period_mem other inInitial, rfl⟩
  · obtain @⟨gap, m, _, _⟩ := capital
    exact Or.inr ⟨front ++ (gap ++ [m, '.']), by simp, by simp⟩

theorem mistaken_of_forward (read : Forward (suffixesOf rules) author.toList name)
    (ends : b :: suffix <:+ author.toList) : Mistaken (suffixesOf rules) author.toList suffix := by
  have reading : Reading (suffixesOf rules) author.toList name := Or.inl read
  have single := reading.not_repeated clear lost
  obtain ⟨cs, split⟩ : ∃ cs, author.toList = cs := ⟨_, rfl⟩
  have written := split ▸ read
  obtain @⟨given, initial, blanks, family, tail, entry, _, capital, isBlank', _, tailEnds⟩ :=
    written
  have parts : author.toList = given ++ (initial ++ (blanks ++ family)) ++ tail := by simp [split]
  rw [parts] at ends
  rcases mistaken_or_begun clear filled starts blank lost reading tailEnds ends with
    mistaken | ⟨begun, rfl, left, begins, inNames⟩
  · exact mistaken
  · rcases begins_in_forward begins blank capital isBlank' inNames with
      ⟨front, whole⟩ | ⟨front, there, rfl⟩
    · exact .inFamilyName read whole.symm left tailEnds rfl single
    · refine .acrossInitial read ?_
      have period := List.count_pos_iff.mpr there
      have entry_le := tailEnds.count_le '.'
      simp only [List.count_append]
      omega

omit clear filled lost in
/-- What begins behind a blank and with none in an initial is the initial without its blanks. -/
theorem begins_in_initial {initial : List Char} (capital : Initial initial)
    (ends : b :: suffix <:+ initial) : ∃ m, m.isUpper = true ∧ suffix = [m, '.'] := by
  obtain @⟨gap, m, isGap, upper⟩ := capital
  rcases cons_suffix_append_iff.mp ends with inside | ⟨front, rfl, inGap⟩
  · -- neither the capital nor the period is a blank
    have sign : b = m ∨ b = '.' := by simpa using inside.mem (List.mem_cons_self ..)
    rcases sign with rfl | rfl
    · rw [isBlank_of_isUpper upper] at blank
      cases blank
    · exact absurd blank (by decide)
  · cases eq_nil_of_blanks isGap.blank inGap starts
    exact ⟨m, upper, rfl⟩

omit clear lost in
/-- In a name in inverted order a text that begins behind a blank and with none has the comma in it,
or is the initial, or begins in the given names. -/
theorem begins_in_inverted {family blanks given initial : List Char} (names : Given given)
    (capital : initial = [] ∨ Initial initial) (isBlank' : ∀ c ∈ blanks, isAsciiBlank c = true)
    (ends : b :: suffix <:+ family ++ ',' :: (blanks ++ (given ++ initial))) :
    ',' ∈ suffix ∨ (∃ m, m.isUpper = true ∧ suffix = [m, '.']) ∨
      ∃ part, part ≠ [] ∧ suffix = part ++ initial ∧ (part = given ∨ b :: part <:+ given) := by
  rcases cons_suffix_append_iff.mp ends with behind | ⟨front, rfl, _⟩
  · rcases List.suffix_cons_iff.mp behind with same | behind
    · rw [(List.cons.inj same).1] at blank
      exact absurd blank (by decide)
    · right
      rcases cons_suffix_append_iff.mp behind with behind | ⟨front, rfl, inBlanks⟩
      · rcases cons_suffix_append_iff.mp behind with inInitial | ⟨part, rfl, within⟩
        · rcases capital with rfl | capital
          · simp at inInitial
          · exact Or.inl (begins_in_initial starts blank capital inInitial)
        · refine Or.inr ⟨part, ?_, rfl, Or.inr within⟩
          -- the initial has blanks in front of its capital
          rintro rfl
          rw [List.nil_append] at filled starts
          rcases capital with rfl | @⟨gap, m, isGap, _⟩
          · exact filled rfl
          · obtain ⟨c, more, rfl, isBlank⟩ := isGap.exists_cons
            have clear_first := starts c rfl
            rw [isBlank_of_isAsciiBlank isBlank] at clear_first
            cases clear_first
      · cases eq_nil_of_blanks isBlank' inBlanks starts
        obtain ⟨c, d, more, rfl, _⟩ := names.exists_cons
        exact Or.inr ⟨_, List.cons_ne_nil _ _, rfl, Or.inl rfl⟩
  · exact Or.inl (by simp)

theorem mistaken_of_inverted (known : suffix ∈ suffixesOf rules)
    (other : ∀ other, ¬ Forward (suffixesOf rules) author.toList other)
    (read : Inverted (suffixesOf rules) author.toList name)
    (ends : b :: suffix <:+ author.toList) : Mistaken (suffixesOf rules) author.toList suffix := by
  have reading : Reading (suffixesOf rules) author.toList name := Or.inr ⟨other, read⟩
  have single := reading.not_repeated clear lost
  obtain ⟨cs, split⟩ : ∃ cs, author.toList = cs := ⟨_, rfl⟩
  have written := split ▸ read
  obtain @⟨family, blanks, _, given, entry, _, _, isBlank', reads⟩ := written
  obtain ⟨rest, rfl, names, accepted⟩ := reads.exists_rest
  obtain ⟨initial, tail, capital, tailEnds, rfl⟩ :=
    exists_of_invertedRest? (noBlankAhead_suffixesOf rules) accepted
  have parts : author.toList = family ++ ',' :: (blanks ++ (given ++ initial)) ++ tail := by
    simp [split]
  rw [parts] at ends
  rcases mistaken_or_begun clear filled starts blank lost reading tailEnds ends with
    mistaken | ⟨begun, rfl, left, begins, inNames⟩
  · exact mistaken
  · rcases begins_in_inverted left begins blank names capital isBlank' inNames with
      there | ⟨m, upper, rfl⟩ | ⟨part, named, rfl, place⟩
    · refine .acrossComma reading (Nat.lt_of_le_of_lt (tailEnds.count_le ',') ?_)
      rw [List.count_append]
      exact Nat.lt_add_of_pos_left (List.count_pos_iff.mpr there)
    · exact .asInitial other read upper tailEnds rfl single
    · rw [List.append_assoc] at known single ⊢
      rcases place with rfl | ⟨front, within⟩
      · exact .inGivenNames other read (List.nil_append _).symm named (by simp) capital tailEnds rfl
          single
      · have apart : isAsciiBlank b = false :=
          reads.not_asciiBlank (noBlankAhead_suffixesOf rules) named known ⟨front, within⟩
        have behind : given = (front ++ [b]) ++ part := by simp [← within]
        refine .inGivenNames other read behind named ?_ capital tailEnds rfl single
        rw [List.getLast?_concat]
        rintro c ⟨⟩
        exact ⟨blank, apart⟩

end Places

end AuthorName

namespace Simplifier

open AuthorName

/-- A suffix that ends a name, behind a blank, ends the simplified name behind a space, unless it is
read as another part of the name. -/
theorem simplifyAuthor_keeps_suffix_iff (s : Simplifier) {author suffix text : String} {b : Char}
    (entry : suffix ∈ vocabulary s.rules.nameSuffixes) (blank : isBlank b = true)
    (ends : b :: suffix.toList <:+ (trim author).toList)
    (h : s.simplifyAuthor author = .simplified text) :
    ' ' :: suffix.toList <:+ text.toList ↔
      ¬ Mistaken (suffixesOf s.rules) (trim author).toList suffix.toList := by
  obtain ⟨name, found, rfl, _, _⟩ := simplifyAuthor_eq_simplified_iff.mp h
  have clear := trimmed_trim author
  have read : Reading (suffixesOf s.rules) (trim author).toList name :=
    (ofText?_eq_some_iff clear).mp found
  constructor
  · intro kept mistaken
    exact mistaken.not_keepsSuffix clear read kept
  · intro sound
    by_contra lost
    have known : suffix.toList ∈ suffixesOf s.rules := List.mem_map_of_mem entry
    obtain ⟨word, _, same, tidy⟩ := exists_of_mem_suffixesOf known
    cases String.toList_inj.mp same
    have filled := tidy.toList_ne_nil
    have starts := tidy.trimmed.1
    rcases read with forward | ⟨other, inverted⟩
    · exact sound (mistaken_of_forward clear filled starts blank lost forward ends)
    · exact sound (mistaken_of_inverted clear filled starts blank lost known other inverted ends)

theorem simplifyAuthor_keeps_suffix_iff_davis :
    let degrees : Simplifier := ⟨{ nameSuffixes := ["Jr", "PhD MD"] }, by decide⟩
    standard.simplifyAuthor "Davis, Sammy G.,\tJr." = .simplified "Sammy Davis Jr." ∧
      ' ' :: "Jr.".toList <:+ "Sammy Davis Jr.".toList ∧
      ¬ Mistaken (suffixesOf standard.rules) (trim "Davis, Sammy G.,\tJr.").toList "Jr.".toList ∧
      standard.simplifyAuthor "Sammy Davis, Jr" = .simplified "Jr Sammy Davis" ∧
      Mistaken (suffixesOf standard.rules) (trim "Sammy Davis, Jr").toList "Jr".toList ∧
      degrees.simplifyAuthor "Jane Q. Doe PhD MD" = .simplified "Jane Doe PhD MD" ∧
      ¬ Mistaken (suffixesOf degrees.rules) (trim "Jane Q. Doe PhD MD").toList "PhD MD".toList ∧
      degrees.simplifyAuthor "Doe, Jane\u00a0PhD MD" = .simplified "Jane\u00a0PhD MD Doe" ∧
      Mistaken (suffixesOf degrees.rules) (trim "Doe, Jane\u00a0PhD MD").toList
        "PhD MD".toList := by
  intro degrees
  have kept : standard.simplifyAuthor "Davis, Sammy G.,\tJr." = .simplified "Sammy Davis Jr." := by
    decide +kernel
  have moved : standard.simplifyAuthor "Sammy Davis, Jr" = .simplified "Jr Sammy Davis" := by
    decide +kernel
  have two_kept : degrees.simplifyAuthor "Jane Q. Doe PhD MD" = .simplified "Jane Doe PhD MD" := by
    decide +kernel
  have two_moved :
      degrees.simplifyAuthor "Doe, Jane\u00a0PhD MD" = .simplified "Jane\u00a0PhD MD Doe" := by
    decide +kernel
  have entries : "Jr." ∈ vocabulary standard.rules.nameSuffixes ∧
      "Jr" ∈ vocabulary standard.rules.nameSuffixes ∧
      "PhD MD" ∈ vocabulary degrees.rules.nameSuffixes := by decide +kernel
  obtain ⟨jrPeriod, jr, two⟩ := entries
  have keeps := simplifyAuthor_keeps_suffix_iff standard jrPeriod
    (show isBlank '\t' = true by decide) (by decide +kernel) kept
  have moves := simplifyAuthor_keeps_suffix_iff standard jr
    (show isBlank ' ' = true by decide) (by decide +kernel) moved
  have two_keeps := simplifyAuthor_keeps_suffix_iff degrees two
    (show isBlank ' ' = true by decide) (by decide +kernel) two_kept
  have two_moves := simplifyAuthor_keeps_suffix_iff degrees two
    (show isBlank '\u00a0' = true by decide) (by decide +kernel) two_moved
  have ends : ' ' :: "Jr.".toList <:+ "Sammy Davis Jr.".toList := by decide
  have lost : ¬ ' ' :: "Jr".toList <:+ "Jr Sammy Davis".toList := by decide
  have two_end : ' ' :: "PhD MD".toList <:+ "Jane Doe PhD MD".toList := by decide
  have two_lost : ¬ ' ' :: "PhD MD".toList <:+ "Jane\u00a0PhD MD Doe".toList := by decide
  exact ⟨kept, ends, keeps.mp ends, moved, not_not.mp (mt moves.mpr lost), two_kept,
    two_keeps.mp two_end, two_moved, not_not.mp (mt two_moves.mpr two_lost)⟩

/-- A suffix that stands alone behind the comma is put in front of the name. -/
theorem simplifyAuthor_moves_suffix :
    "Jr" ∈ vocabulary standard.rules.nameSuffixes ∧
      ' ' :: "Jr".toList <:+ (trim "Sammy Davis, Jr").toList ∧
      standard.simplifyAuthor "Sammy Davis, Jr" = .simplified "Jr Sammy Davis" ∧
      ¬ ' ' :: "Jr".toList <:+ "Jr Sammy Davis".toList := by
  decide +kernel

end Simplifier

end ReleaseSearch
