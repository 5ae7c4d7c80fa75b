import ReleaseSearch.Proofs.Text.Trim
import ReleaseSearch.Text.Case

/-! Small letters have no other small form, so that putting a text in small letters twice is putting
it so once. A small form is never a blank either, so that a trimmed text stays trimmed. -/
namespace ReleaseSearch.Text

/-- The capitals whose small form is one character. -/
def simpleCapitals : List CapitalRun := ⟨0x41, 0x5A, 1, 32⟩ :: capitalRuns

/-- All capitals: the dotted capital I is the one whose small form is longer. -/
def allCapitals : List CapitalRun := ⟨0x130, 0x130, 1, 0⟩ :: simpleCapitals

/-- Code points that have another small form. -/
def isCapital (n : Nat) : Bool := allCapitals.any (·.holds n)

/-- The blanks as ranges. -/
def blankRanges : List (Nat × Nat) :=
  [(9, 13), (0x20, 0x20), (0x85, 0x85), (0xA0, 0xA0), (0x1680, 0x1680), (0x2000, 0x200A),
   (0x2028, 0x2029), (0x202F, 0x202F), (0x205F, 0x205F), (0x3000, 0x3000)]

theorem isBlank_eq_inRanges (c : Char) : isBlank c = inRanges blankRanges c := by
  rw [Bool.eq_iff_iff]
  simp only [isBlank, inRanges, blankRanges, List.any_cons, List.any_nil, Bool.or_eq_true,
    Bool.and_eq_true, decide_eq_true_eq, beq_iff_eq, Bool.false_eq_true, or_false]
  omega

namespace CapitalRun

/-- The small form of a member. -/
def small (run : CapitalRun) (n : Nat) : Nat := ((n : Int) + run.shift).toNat

/-- The small forms lie above or below the other run, or fall between its members. -/
def misses (run other : CapitalRun) : Bool :=
  Nat.blt (run.small run.last) other.first || Nat.blt other.last (run.small run.first) ||
    (other.step == 2 && (run.step == 2 || run.first == run.last) &&
      (run.small run.first + other.first) % 2 == 1)

/-- The small forms are characters, and none of them is a blank or a capital. -/
def wellPlaced (run : CapitalRun) : Bool :=
  0 < run.first + run.shift &&
    (Nat.blt (run.small run.last) 0xD800 ||
      (Nat.blt 0xDFFF (run.small run.first) && Nat.blt (run.small run.last) 0x110000)) &&
    (blankRanges.all fun r => Nat.blt (run.small run.last) r.1 || Nat.blt r.2 (run.small run.first)) &&
    allCapitals.all run.misses

end CapitalRun

theorem wellPlaced_of_mem : ∀ run ∈ simpleCapitals, run.wellPlaced = true := by
  rw [← List.all_eq_true]
  decide +kernel

theorem holds_iff (run : CapitalRun) (n : Nat) :
    run.holds n = true ↔ run.first ≤ n ∧ n ≤ run.last ∧ (n - run.first) % run.step = 0 := by
  simp only [CapitalRun.holds, Bool.and_eq_true, decide_eq_true_eq, beq_iff_eq, and_assoc]

/-- The small form of a member lies between the small forms of the ends of its run. -/
theorem small_bounds {run : CapitalRun} {n : Nat} (placed : run.wellPlaced = true)
    (held : run.holds n = true) :
    run.small run.first ≤ run.small n ∧ run.small n ≤ run.small run.last ∧
      run.small n = run.small run.first + (n - run.first) := by
  simp only [CapitalRun.wellPlaced, Bool.and_eq_true, decide_eq_true_eq] at placed
  have positive := placed.1.1.1
  have member := (holds_iff run n).mp held
  simp only [CapitalRun.small]
  omega

theorem not_holds_small {run other : CapitalRun} {n : Nat} (placed : run.wellPlaced = true)
    (held : run.holds n = true) (apart : run.misses other = true) :
    other.holds (run.small n) = false := by
  obtain ⟨low, high, shifted⟩ := small_bounds placed held
  have member := (holds_iff run n).mp held
  rw [Bool.eq_false_iff]
  intro taken
  have taken := (holds_iff other (run.small n)).mp taken
  simp only [CapitalRun.misses, Bool.or_eq_true, Bool.and_eq_true, Nat.blt_eq, beq_iff_eq] at apart
  rcases apart with (below | above) | ⟨⟨double, even⟩, odd⟩
  · omega
  · omega
  · -- members of the other run agree in parity with its first, the small forms do not
    have parity : (n - run.first) % 2 = 0 := by
      rcases even with two | single
      · rw [two] at member; exact member.2.2
      · omega
    rw [double] at taken
    omega

theorem isCapital_small {run : CapitalRun} {n : Nat} (placed : run.wellPlaced = true)
    (held : run.holds n = true) : isCapital (run.small n) = false := by
  have apart := placed
  simp only [CapitalRun.wellPlaced, Bool.and_eq_true] at apart
  simp only [isCapital, List.any_eq_false]
  intro other member taken
  rw [not_holds_small placed held (List.all_eq_true.mp apart.2 other member)] at taken
  cases taken

theorem toNat_ofNat_small {run : CapitalRun} {n : Nat} (placed : run.wellPlaced = true)
    (held : run.holds n = true) : (Char.ofNat (run.small n)).toNat = run.small n := by
  obtain ⟨low, high, _⟩ := small_bounds placed held
  simp only [CapitalRun.wellPlaced, Bool.and_eq_true, Bool.or_eq_true, Nat.blt_eq] at placed
  have valid : (run.small n).isValidChar := by
    unfold Nat.isValidChar
    omega
  rw [Char.ofNat, dif_pos valid]
  rfl

theorem isBlank_small {run : CapitalRun} {n : Nat} (placed : run.wellPlaced = true)
    (held : run.holds n = true) : isBlank (Char.ofNat (run.small n)) = false := by
  obtain ⟨low, high, _⟩ := small_bounds placed held
  rw [isBlank_eq_inRanges, inRanges, toNat_ofNat_small placed held, List.any_eq_false]
  simp only [CapitalRun.wellPlaced, Bool.and_eq_true] at placed
  intro r hr inside
  have apart := List.all_eq_true.mp placed.1.2 r hr
  simp only [Bool.or_eq_true, Nat.blt_eq] at apart
  simp only [Bool.and_eq_true, decide_eq_true_eq] at inside
  omega

theorem toLower_ascii : ∀ n < 0x80,
    (Char.ofNat n).toLower = Char.ofNat (if 0x41 ≤ n ∧ n ≤ 0x5A then n + 32 else n) := by decide

theorem first_ge_of_mem : ∀ run ∈ capitalRuns, 0x80 ≤ run.first := by decide +kernel

theorem isCapital_eq_false_iff (n : Nat) :
    isCapital n = false ↔
      n ≠ 0x130 ∧ ¬ (0x41 ≤ n ∧ n ≤ 0x5A) ∧ ∀ run ∈ capitalRuns, ¬ run.holds n = true := by
  have dotted : ¬ CapitalRun.holds ⟨0x130, 0x130, 1, 0⟩ n = true ↔ n ≠ 0x130 := by
    rw [holds_iff]; simp only; omega
  have ascii : ¬ CapitalRun.holds ⟨0x41, 0x5A, 1, 32⟩ n = true ↔ ¬ (0x41 ≤ n ∧ n ≤ 0x5A) := by
    rw [holds_iff]; simp only; omega
  simp only [isCapital, allCapitals, simpleCapitals, List.any_eq_false, List.forall_mem_cons,
    dotted, ascii]

/-- A character is its own small form, unless it is the dotted capital I or stands in a run. -/
theorem lowerChar_cases (c : Char) :
    (isCapital c.toNat = false ∧ lowerChar c = [c]) ∨
    (c.toNat = 0x130 ∧ lowerChar c = ['i', Char.ofNat 0x307]) ∨
    ∃ run ∈ simpleCapitals, run.holds c.toNat = true ∧
      lowerChar c = [Char.ofNat (run.small c.toNat)] := by
  unfold lowerChar
  split
  · rename_i ascii
    have lower := toLower_ascii c.toNat ascii
    rw [Char.ofNat_toNat] at lower
    by_cases capital : 0x41 ≤ c.toNat ∧ c.toNat ≤ 0x5A
    · right; right
      refine ⟨⟨0x41, 0x5A, 1, 32⟩, List.mem_cons_self .., ?_, ?_⟩
      · rw [holds_iff]; simp only; omega
      · rw [lower, if_pos capital]; rfl
    · left
      rw [if_neg capital, Char.ofNat_toNat] at lower
      refine ⟨(isCapital_eq_false_iff c.toNat).mpr ⟨by omega, capital, ?_⟩, by rw [lower]⟩
      intro run member held
      have above := first_ge_of_mem run member
      rw [holds_iff] at held
      omega
  · rename_i above
    split
    · rename_i dotted
      exact Or.inr (Or.inl ⟨dotted, rfl⟩)
    · rename_i plain
      split
      · rename_i run found
        right; right
        have held : run.holds c.toNat = true := by simpa using List.find?_some found
        exact ⟨run, List.mem_cons_of_mem _ (List.mem_of_find?_eq_some found), held, rfl⟩
      · rename_i missing
        left
        refine ⟨(isCapital_eq_false_iff c.toNat).mpr ⟨plain, by omega, ?_⟩, rfl⟩
        exact List.find?_eq_none.mp missing

/-- Whether a character can stand for `c` in a text in small letters: it is no capital, and a blank
only if `c` is one. -/
def IsSmallFormOf (c d : Char) : Prop :=
  isCapital d.toNat = false ∧ (isBlank c = false → isBlank d = false)

theorem lowerChar_small {c d : Char} (h : d ∈ lowerChar c) : IsSmallFormOf c d := by
  rcases lowerChar_cases c with ⟨plain, eq⟩ | ⟨_, eq⟩ | ⟨run, member, held, eq⟩
  · rw [eq] at h
    cases List.mem_singleton.mp h
    exact ⟨plain, fun clear => clear⟩
  · rw [eq] at h
    rcases List.mem_cons.mp h with rfl | h
    · exact ⟨by decide +kernel, fun _ => by decide⟩
    · cases List.mem_singleton.mp h
      exact ⟨by decide +kernel, fun _ => by decide⟩
  · rw [eq] at h
    have placed := wellPlaced_of_mem run member
    cases List.mem_singleton.mp h
    refine ⟨?_, fun _ => isBlank_small placed held⟩
    rw [toNat_ofNat_small placed held]
    exact isCapital_small placed held

theorem lowerChar_of_not_capital {c : Char} (h : isCapital c.toNat = false) :
    lowerChar c = [c] := by
  have outside := (isCapital_eq_false_iff c.toNat).mp h
  rcases lowerChar_cases c with ⟨_, eq⟩ | ⟨dotted, _⟩ | ⟨run, member, held, _⟩
  · exact eq
  · exact absurd dotted outside.1
  · have apart : ∀ run ∈ allCapitals, ¬ run.holds c.toNat = true := by
      simpa only [isCapital, List.any_eq_false] using h
    exact absurd held (apart run (List.mem_cons_of_mem _ member))

theorem lowerChar_ne_nil (c : Char) : lowerChar c ≠ [] := by
  rcases lowerChar_cases c with ⟨_, eq⟩ | ⟨_, eq⟩ | ⟨_, _, _, eq⟩ <;> simp [eq]

/-- What stands for one character in a text in small letters. -/
def formAt (before : List Char) (c : Char) (rest : List Char) : List Char :=
  if c = 'Σ' then (if isFinalSigma before rest then ['ς'] else ['σ']) else lowerChar c

theorem lowerAfter_cons (before : List Char) (c : Char) (rest : List Char) :
    lowerAfter before (c :: rest) = formAt before c rest ++ lowerAfter (c :: before) rest := rfl

theorem formAt_ne_nil (before : List Char) (c : Char) (rest : List Char) :
    formAt before c rest ≠ [] := by
  unfold formAt
  split
  · split <;> simp
  · exact lowerChar_ne_nil c

theorem formAt_small {before rest : List Char} {c d : Char} (h : d ∈ formAt before c rest) :
    IsSmallFormOf c d := by
  unfold formAt at h
  split at h
  · split at h <;> cases List.mem_singleton.mp h <;> exact ⟨by decide +kernel, fun _ => by decide⟩
  · exact lowerChar_small h

theorem lowerAfter_small (cs before : List Char) :
    ∀ d ∈ lowerAfter before cs, isCapital d.toNat = false := by
  induction cs generalizing before with
  | nil => intro d hd; cases hd
  | cons c rest ih =>
    intro d hd
    rw [lowerAfter_cons] at hd
    rcases List.mem_append.mp hd with hd | hd
    · exact (formAt_small hd).1
    · exact ih (c :: before) d hd

theorem lowerAfter_of_small (cs before : List Char) (h : ∀ c ∈ cs, isCapital c.toNat = false) :
    lowerAfter before cs = cs := by
  induction cs generalizing before with
  | nil => rfl
  | cons c rest ih =>
    have here := h c (List.mem_cons_self ..)
    have sigma : c ≠ 'Σ' := by
      rintro rfl
      exact absurd here (by decide +kernel)
    rw [lowerAfter_cons, formAt, if_neg sigma, lowerChar_of_not_capital here,
      ih (c :: before) (fun d hd => h d (List.mem_cons_of_mem c hd))]
    rfl

@[simp]
theorem lower_lower (s : String) : lower (lower s) = lower s := by
  have small := lowerAfter_small s.toList []
  simp only [lower, lowerChars, String.toList_ofList, lowerAfter_of_small _ [] small]

theorem lowerAfter_eq_nil_iff (before cs : List Char) : lowerAfter before cs = [] ↔ cs = [] := by
  cases cs with
  | nil => simp [lowerAfter]
  | cons c rest => simp [lowerAfter_cons, formAt_ne_nil]

theorem lower_eq_empty_iff (s : String) : lower s = "" ↔ s = "" := by
  rw [← String.toList_eq_nil_iff, ← String.toList_eq_nil_iff, lower, String.toList_ofList,
    lowerChars, lowerAfter_eq_nil_iff]

theorem getLast?_lowerAfter (cs before : List Char) (h : ∀ c ∈ cs.getLast?, isBlank c = false) :
    ∀ d ∈ (lowerAfter before cs).getLast?, isBlank d = false := by
  induction cs generalizing before with
  | nil => intro d hd; cases hd
  | cons c rest ih =>
    intro d hd
    rw [lowerAfter_cons] at hd
    cases rest with
    | nil =>
      rw [lowerAfter, List.append_nil] at hd
      exact (formAt_small (List.mem_of_getLast? hd)).2 (h c rfl)
    | cons next rest =>
      have more : lowerAfter (c :: before) (next :: rest) ≠ [] := by
        rw [Ne, lowerAfter_eq_nil_iff]; simp
      rw [List.getLast?_append_of_ne_nil _ more] at hd
      exact ih (c :: before) (by simpa using h) d hd

theorem clearEnds_lowerAfter (cs before : List Char) (h : ClearEnds isBlank cs) :
    ClearEnds isBlank (lowerAfter before cs) := by
  refine ⟨?_, getLast?_lowerAfter cs before h.2⟩
  intro d hd
  cases cs with
  | nil => cases hd
  | cons c rest =>
    rw [lowerAfter_cons, List.head?_append_of_ne_nil _ (formAt_ne_nil before c rest)] at hd
    exact (formAt_small (List.mem_of_mem_head? hd)).2 (h.1 c rfl)

theorem trimmed_lower {s : String} (h : Trimmed s) : Trimmed (lower s) := by
  rw [Trimmed, lower, String.toList_ofList]
  exact clearEnds_lowerAfter s.toList [] h

end ReleaseSearch.Text
