import ReleaseSearch.Author
import ReleaseSearch.Proofs.Text.Ascii

/-! Given names, as they are written and as they are read. They are read one at a time, and the reading
ends behind the first of them whose rest is accepted. -/
namespace ReleaseSearch.AuthorName
open Text

/-- A given name: two or more characters, without blank, period or comma. -/
structure GivenName (cs : List Char) : Prop where
  long : 2 ≤ cs.length
  plain : ∀ c ∈ cs, isGivenChar c = true

/-- One or more blanks. -/
structure Gap (cs : List Char) : Prop where
  ne_nil : cs ≠ []
  blank : ∀ c ∈ cs, isAsciiBlank c = true

/-- Given names with gaps between them. -/
inductive Given : List Char → Prop where
  | single {name} : GivenName name → Given name
  | more {name gap rest} : GivenName name → Gap gap → Given rest → Given (name ++ (gap ++ rest))

def NoBlankAhead (cs : List Char) : Prop := ∀ c ∈ cs.head?, isAsciiBlank c = false

/-- Nothing that could belong to a given name begins the text. -/
def NameEnds (cs : List Char) : Prop := ∀ c ∈ cs.head?, isGivenChar c = false

theorem isGivenChar_of_blank {c : Char} (h : isAsciiBlank c = true) : isGivenChar c = false := by
  simp [isGivenChar, h]

theorem blank_of_isGivenChar {c : Char} (h : isGivenChar c = true) : isAsciiBlank c = false := by
  cases blank : isAsciiBlank c with
  | false => rfl
  | true => rw [isGivenChar_of_blank blank] at h; cases h

theorem noBlankAhead_dropWhile (cs : List Char) : NoBlankAhead (cs.dropWhile isAsciiBlank) := by
  intro c member
  have clear := List.head?_dropWhile_not isAsciiBlank cs
  rw [Option.mem_def.mp member] at clear
  simpa using clear

theorem NoBlankAhead.dropWhile_eq {cs : List Char} (h : NoBlankAhead cs) :
    cs.dropWhile isAsciiBlank = cs := by
  cases cs with
  | nil => rfl
  | cons c rest => simp [h c rfl]

theorem gap_space : Gap [' '] where
  ne_nil := by simp
  blank := by
    intro c member
    cases List.mem_singleton.mp member
    rfl

theorem Gap.exists_cons {gap : List Char} (h : Gap gap) :
    ∃ c rest, gap = c :: rest ∧ isAsciiBlank c = true := by
  obtain ⟨c, rest, rfl⟩ := List.exists_cons_of_ne_nil h.ne_nil
  exact ⟨c, rest, rfl, h.blank c (List.mem_cons_self ..)⟩

theorem Gap.nameEnds_append {gap : List Char} (h : Gap gap) (rest : List Char) :
    NameEnds (gap ++ rest) := by
  obtain ⟨c, more, rfl, blank⟩ := h.exists_cons
  intro d member
  cases Option.mem_some.mp member
  exact isGivenChar_of_blank blank

theorem Gap.exists_suffix {gap : List Char} (h : Gap gap) (rest : List Char) :
    ∃ b, isAsciiBlank b = true ∧ b :: rest <:+ gap ++ rest := by
  obtain ⟨front, b, rfl⟩ := (List.eq_nil_or_concat gap).resolve_left h.ne_nil
  rw [List.concat_eq_append] at h ⊢
  exact ⟨b, h.blank b (by simp), front, by simp⟩

/-- The first two characters of a given name, which are no blanks and no periods. -/
theorem GivenName.exists_cons {name : List Char} (h : GivenName name) :
    ∃ c d rest, name = c :: d :: rest ∧ isGivenChar c = true ∧ isGivenChar d = true := by
  match name, h with
  | c :: d :: rest, h =>
    exact ⟨c, d, rest, rfl, h.plain c (by simp), h.plain d (by simp)⟩
  | [_], ⟨long, _⟩ => simp at long
  | [], ⟨long, _⟩ => simp at long

theorem GivenName.no_blank {name : List Char} (h : GivenName name) :
    ∀ c ∈ name, isAsciiBlank c = false := fun c member => blank_of_isGivenChar (h.plain c member)

theorem Given.exists_cons {given : List Char} (h : Given given) :
    ∃ c d rest, given = c :: d :: rest ∧ isGivenChar c = true ∧ isGivenChar d = true := by
  cases h with
  | single name => exact name.exists_cons
  | more name gap later =>
    obtain ⟨c, d, rest, rfl, first, second⟩ := name.exists_cons
    exact ⟨c, d, _, rfl, first, second⟩

theorem Given.noBlankAhead_append {given : List Char} (h : Given given) (rest : List Char) :
    NoBlankAhead (given ++ rest) := by
  obtain ⟨c, d, more, rfl, first, _⟩ := h.exists_cons
  intro e member
  cases Option.mem_some.mp member
  exact blank_of_isGivenChar first

/-- The signs that end given names. -/
def isStop (c : Char) : Bool := c == '.' || c == ','

theorem isStop_iff (c : Char) : isStop c = true ↔ c = '.' ∨ c = ',' := by
  rw [isStop, Bool.or_eq_true, beq_iff_eq, beq_iff_eq]

theorem find?_isStop_eq_none_iff (cs : List Char) :
    cs.find? isStop = none ↔ '.' ∉ cs ∧ ',' ∉ cs := by
  rw [List.find?_eq_none]
  constructor
  · intro h
    exact ⟨fun member => h _ member rfl, fun member => h _ member rfl⟩
  · rintro ⟨period, comma⟩ c member stop
    rcases (isStop_iff c).mp stop with rfl | rfl
    · exact period member
    · exact comma member

theorem Gap.find?_isStop {gap : List Char} (h : Gap gap) : gap.find? isStop = none := by
  rw [find?_isStop_eq_none_iff]
  constructor
  · intro member
    exact absurd (h.blank _ member) (by decide)
  · intro member
    exact absurd (h.blank _ member) (by decide)

theorem GivenName.find?_isStop {name : List Char} (h : GivenName name) :
    name.find? isStop = none := by
  rw [find?_isStop_eq_none_iff]
  constructor
  · intro member
    exact absurd (h.plain _ member) (by decide)
  · intro member
    exact absurd (h.plain _ member) (by decide)

theorem Given.find?_isStop {given : List Char} (h : Given given) : given.find? isStop = none := by
  induction h with
  | single name => exact name.find?_isStop
  | more name gap _ ih =>
    rw [List.find?_append, name.find?_isStop, Option.none_or, List.find?_append, gap.find?_isStop,
      Option.none_or, ih]

section Reader

variable {α : Type} (accept : List Char → Option α)

/-- What has been taken before only stands in front of what is taken from here on. -/
theorem givenThen?_taken (cs taken : List Char) (size : Nat) :
    givenThen? accept taken size cs =
      (givenThen? accept [] size cs).map fun found => (taken.reverse ++ found.1, found.2) := by
  induction cs generalizing taken size with
  | nil =>
    rw [givenThen?, givenThen?]
    split
    · cases accept [] <;> simp
    · rfl
  | cons c rest ih =>
    rw [givenThen?, givenThen?]
    split
    · rw [ih (c :: taken), ih [c], Option.map_map]
      congr 1
      funext found
      simp
    · dsimp only
      split
      · simp
      · split
        · rw [ih (c :: taken), ih [c], Option.map_map]
          congr 1
          funext found
          simp
        · rfl

variable {accept}

theorem givenThen?_name {name : List Char} (plain : ∀ c ∈ name, isGivenChar c = true)
    (rest : List Char) (size : Nat) :
    givenThen? accept [] size (name ++ rest) =
      (givenThen? accept [] (size + name.length) rest).map fun found =>
        (name ++ found.1, found.2) := by
  induction name generalizing size with
  | nil => simp
  | cons c more ih =>
    rw [List.cons_append, givenThen?, if_pos (plain c (List.mem_cons_self ..)), givenThen?_taken,
      ih (fun d member => plain d (List.mem_cons_of_mem c member)), Option.map_map,
      List.length_cons]
    rw [Nat.add_right_comm, Nat.add_assoc size]
    congr 1

theorem givenThen?_blanks {blanks : List Char} (blank : ∀ c ∈ blanks, isAsciiBlank c = true)
    (rest : List Char) :
    givenThen? accept [] 0 (blanks ++ rest) =
      (givenThen? accept [] 0 rest).map fun found => (blanks ++ found.1, found.2) := by
  induction blanks with
  | nil => simp
  | cons c more ih =>
    have here := blank c (List.mem_cons_self ..)
    rw [List.cons_append, givenThen?, if_neg (by simp [isGivenChar_of_blank here])]
    dsimp only
    rw [if_neg (by omega)]
    dsimp only
    rw [if_pos (by simp [here]), givenThen?_taken,
      ih (fun d member => blank d (List.mem_cons_of_mem c member)), Option.map_map]
    congr 1

theorem givenThen?_accepted {size : Nat} (long : 2 ≤ size) {rest : List Char} {answer : α}
    (ends : NameEnds rest) (accepted : accept rest = some answer) :
    givenThen? accept [] size rest = some ([], answer) := by
  cases rest with
  | nil => rw [givenThen?, if_pos long, accepted]; rfl
  | cons c more =>
    rw [givenThen?, if_neg (by simp [ends c rfl])]
    dsimp only
    rw [if_pos long, accepted]
    rfl

theorem givenThen?_refused {size : Nat} (long : 2 ≤ size) {gap : List Char} (blanks : Gap gap)
    {rest : List Char} (refused : accept (gap ++ rest) = none) :
    givenThen? accept [] size (gap ++ rest) =
      (givenThen? accept [] 0 rest).map fun found => (gap ++ found.1, found.2) := by
  obtain ⟨c, more, rfl, blank⟩ := blanks.exists_cons
  rw [List.cons_append] at refused ⊢
  rw [givenThen?, if_neg (by simp [isGivenChar_of_blank blank])]
  dsimp only
  rw [if_pos long, refused]
  dsimp only
  rw [if_pos (by simp only [blank, Bool.true_and, bne_iff_ne]; omega), givenThen?_taken,
    givenThen?_blanks (fun d member => blanks.blank d (List.mem_cons_of_mem c member)),
    Option.map_map]
  congr 1

variable (accept) in
/-- How given names are read from the front of a text: behind each name the rest is offered, and only
when it is refused the next name is read. -/
inductive Reads : List Char → List Char → α → Prop where
  | stop {name rest answer} : GivenName name → NameEnds rest → accept rest = some answer →
      Reads (name ++ rest) name answer
  | next {name gap rest given answer} : GivenName name → Gap gap → accept (gap ++ rest) = none →
      Reads rest given answer → Reads (name ++ (gap ++ rest)) (name ++ (gap ++ given)) answer

theorem Reads.givenThen?_eq {cs given : List Char} {answer : α} (h : Reads accept cs given answer) :
    givenThen? accept [] 0 cs = some (given, answer) := by
  induction h with
  | stop name ends accepted =>
    rw [givenThen?_name name.plain, Nat.zero_add, givenThen?_accepted name.long ends accepted]
    simp
  | next name gap refused _ ih =>
    rw [givenThen?_name name.plain, Nat.zero_add, givenThen?_refused name.long gap refused, ih]
    simp

theorem givenThen?_short {size : Nat} (short : size < 2) {rest : List Char} (ends : NameEnds rest)
    (ahead : size = 0 → NoBlankAhead rest) : givenThen? accept [] size rest = none := by
  cases rest with
  | nil => rw [givenThen?, if_neg (by omega)]
  | cons c more =>
    rw [givenThen?, if_neg (by simp [ends c rfl])]
    dsimp only
    rw [if_neg (by omega)]
    dsimp only
    rw [if_neg]
    intro passed
    rw [Bool.and_eq_true, bne_iff_ne] at passed
    have clear := ahead (by omega) c rfl
    rw [passed.1] at clear
    cases clear

theorem exists_gap_of_refused {size : Nat} {rest : List Char} {found : List Char × α}
    (ends : NameEnds rest) (refused : accept rest = none)
    (h : givenThen? accept [] size rest = some found) :
    ∃ gap later, Gap gap ∧ NoBlankAhead later ∧ rest = gap ++ later := by
  cases rest with
  | nil =>
    rw [givenThen?, refused] at h
    split at h <;> cases h
  | cons c more =>
    by_cases blank : isAsciiBlank c = true
    · refine ⟨c :: more.takeWhile isAsciiBlank, more.dropWhile isAsciiBlank, ⟨by simp, ?_⟩,
        noBlankAhead_dropWhile more, ?_⟩
      · intro d member
        rcases List.mem_cons.mp member with rfl | member
        · exact blank
        · exact List.mem_takeWhile_imp member
      · rw [List.cons_append, List.takeWhile_append_dropWhile]
    · rw [givenThen?, if_neg (by simp [ends c rfl]), refused] at h
      simp [blank] at h

theorem reads_of_givenThen? {cs given : List Char} {answer : α} (ahead : NoBlankAhead cs)
    (h : givenThen? accept [] 0 cs = some (given, answer)) : Reads accept cs given answer := by
  generalize size : cs.length = n
  -- on the length: behind a gap the reading begins anew, on a shorter text
  induction n using Nat.strongRecOn generalizing cs given with
  | ind n ih =>
    have split := List.takeWhile_append_dropWhile (p := isGivenChar) (l := cs)
    have plain : ∀ c ∈ cs.takeWhile isGivenChar, isGivenChar c = true :=
      fun c member => List.mem_takeWhile_imp member
    have ends : NameEnds (cs.dropWhile isGivenChar) := by
      intro c member
      have clear := List.head?_dropWhile_not isGivenChar cs
      rw [Option.mem_def.mp member] at clear
      simpa using clear
    generalize cs.takeWhile isGivenChar = name, cs.dropWhile isGivenChar = rest at split plain ends
    subst split
    rw [givenThen?_name plain, Nat.zero_add, Option.map_eq_some_iff] at h
    obtain ⟨found, reading, eq⟩ := h
    cases eq
    by_cases long : 2 ≤ name.length
    · cases offered : accept rest with
      | some reply =>
        rw [givenThen?_accepted long ends offered] at reading
        cases reading
        rw [List.append_nil]
        exact .stop ⟨long, plain⟩ ends offered
      | none =>
        obtain ⟨gap, later, blanks, clear, rfl⟩ := exists_gap_of_refused ends offered reading
        rw [givenThen?_refused long blanks offered, Option.map_eq_some_iff] at reading
        obtain ⟨found, reading, rfl⟩ := reading
        have shorter : later.length < n := by
          have filled := List.length_pos_iff.mpr blanks.ne_nil
          simp only [List.length_append] at size
          omega
        exact .next ⟨long, plain⟩ blanks offered (ih _ shorter clear reading rfl)
    · rw [givenThen?_short (by omega) ends] at reading
      · cases reading
      · intro none_read
        rw [List.length_eq_zero_iff] at none_read
        rwa [none_read] at ahead

theorem Reads.exists_rest {cs given : List Char} {answer : α} (h : Reads accept cs given answer) :
    ∃ rest, cs = given ++ rest ∧ Given given ∧ accept rest = some answer := by
  induction h with
  | stop name _ accepted => exact ⟨_, rfl, .single name, accepted⟩
  | next name gap _ _ ih =>
    obtain ⟨rest, rfl, names, accepted⟩ := ih
    refine ⟨rest, ?_, .more name gap names, accepted⟩
    simp only [List.append_assoc]

/-- A name behind a blank was read only because the reading could not end in front of it. -/
theorem Reads.exists_refused {cs given later : List Char} {b : Char} {answer : α}
    (h : Reads accept cs given answer) (blank : isAsciiBlank b = true) (ahead : NoBlankAhead later)
    (ends : b :: later <:+ given) :
    ∃ gap rest, Gap gap ∧ cs = given ++ rest ∧ accept (gap ++ (later ++ rest)) = none := by
  have apart : ∀ {name : List Char} {front}, GivenName name → ¬ b :: front <:+ name := by
    intro name front isName inside
    rw [isName.no_blank b (inside.mem (List.mem_cons_self ..))] at blank
    cases blank
  induction h with
  | stop name _ _ => exact absurd ends (apart name)
  | @next name gap cs given answer isName isGap refused reading ih =>
    -- the blank is in the gap behind the first name, or in the names that follow
    rcases cons_suffix_append_iff.mp ends with behind | ⟨_, _, inside⟩
    · rcases cons_suffix_append_iff.mp behind with among | ⟨begun, rfl, inside⟩
      · obtain ⟨gap', rest, isGap', rfl, refused'⟩ := ih among
        exact ⟨gap', rest, isGap', by simp, refused'⟩
      · cases eq_nil_of_run isGap.blank inside ahead
        obtain ⟨rest, rfl, _, _⟩ := reading.exists_rest
        exact ⟨gap, rest, isGap, by simp, refused⟩
    · exact absurd inside (apart isName)

/-- Given names are read as they stand when the rest is refused in front of each but the first. -/
theorem Given.reads {given rest : List Char} {answer : α} (names : Given given)
    (ends : NameEnds rest) (accepted : accept rest = some answer)
    (refused : ∀ front gap later, given = front ++ (gap ++ later) → Gap gap → Given later →
      accept (gap ++ (later ++ rest)) = none) : Reads accept (given ++ rest) given answer := by
  induction names with
  | single name => exact .stop name ends accepted
  | @more name gap later isName isGap names ih =>
    rw [List.append_assoc, List.append_assoc]
    refine .next isName isGap (refused name gap later rfl isGap names) (ih ?_)
    intro front gap' last eq
    apply refused (name ++ (gap ++ front))
    rw [eq]
    simp only [List.append_assoc]

end Reader

end ReleaseSearch.AuthorName
