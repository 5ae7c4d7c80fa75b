import ReleaseSearch.Toml.Value

/-! Tables put over tables. A key of the upper table hides the one under it, unless both hold tables,
which are joined in the same way; every other key keeps what it has. -/
namespace ReleaseSearch.Toml

/-- The key stands in the table, if at all, only once. -/
def AtMostOnce (key : String) (t : Table) : Prop := (t.map Prod.fst).count key ≤ 1

theorem atMostOnce_cons_self {key : String} {v : Value} {t : Table} :
    AtMostOnce key ((key, v) :: t) ↔ key ∉ t.map Prod.fst := by
  simp only [AtMostOnce, List.map_cons, List.count_cons_self, ← List.count_eq_zero]
  omega

theorem atMostOnce_cons_of_ne {key other : String} {v : Value} {t : Table} (ne : other ≠ key) :
    AtMostOnce key ((other, v) :: t) ↔ AtMostOnce key t := by
  simp [AtMostOnce, List.count_cons_of_ne ne]

theorem atMostOnce_of_not_mem {key : String} {t : Table} (h : key ∉ t.map Prod.fst) :
    AtMostOnce key t := by
  simp [AtMostOnce, List.count_eq_zero.mpr h]

theorem atMostOnce_singleton (key : String) (entry : String × Value) : AtMostOnce key [entry] :=
  List.count_le_length

theorem lookup_entry (key : String) (v : Value) (t : Table) (k : String) :
    List.lookup k ((key, v) :: t) = if k = key then some v else t.lookup k := by
  by_cases same : k = key
  · simp [same]
  · simp [List.lookup_cons, beq_false_of_ne same, same]

theorem lookup_eq_none_iff_keys {key : String} {t : Table} :
    t.lookup key = none ↔ key ∉ t.map Prod.fst := by
  induction t with
  | nil => simp
  | cons entry t ih =>
    rw [lookup_entry, List.map_cons, List.mem_cons, not_or, ← ih]
    by_cases same : key = entry.1 <;> simp [same]

namespace Value

/-- The value, put over what is there. -/
def overlayOn (v : Value) : Option Value → Value
  | some under => v.overlay under
  | none => v

theorem overlayOn_of_ne_table {v : Value} (h : ∀ entries, v ≠ .table entries) (under : Option Value) :
    v.overlayOn under = v := by
  cases under with
  | none => rfl
  | some under =>
    cases v with
    | table entries => exact absurd rfl (h entries)
    | _ => simp [overlayOn, overlay]

/-- Puts one entry over a table. -/
def overlayEntry (key : String) (v : Value) (under : Table) : Table :=
  if under.any (·.1 == key) then
    under.map fun entry => if entry.1 == key then (key, v.overlay entry.2) else entry
  else under ++ [(key, v)]

theorem overlayEntries_cons (key : String) (v : Value) (top under : Table) :
    overlayEntries ((key, v) :: top) under = overlayEntries top (overlayEntry key v under) := by
  rw [overlayEntries]
  rfl

theorem any_key_iff {key : String} {t : Table} :
    t.any (·.1 == key) = true ↔ key ∈ t.map Prod.fst := by
  simp

theorem keys_overlayEntry (key : String) (v : Value) (under : Table) :
    (overlayEntry key v under).map Prod.fst =
      if key ∈ under.map Prod.fst then under.map Prod.fst else under.map Prod.fst ++ [key] := by
  unfold overlayEntry
  simp only [any_key_iff]
  split
  · rw [List.map_map]
    apply List.map_congr_left
    intro entry _
    by_cases same : entry.1 = key <;> simp [same]
  · simp

theorem lookup_replaced (key : String) (v : Value) (under : Table) (k : String) :
    (under.map fun entry => if entry.1 == key then (key, v.overlay entry.2) else entry).lookup k =
      if k = key then (under.lookup key).map v.overlay else under.lookup k := by
  simp only [beq_iff_eq]
  induction under with
  | nil => simp
  | cons entry under ih =>
    obtain ⟨name, old⟩ := entry
    by_cases here : name = key
    · subst here
      by_cases same : k = name <;> simp [lookup_entry, same, ih]
    · by_cases same : k = name
      · subst same
        simp [here]
      · simp [lookup_entry, here, same, Ne.symm here, ih]

theorem lookup_overlayEntry (key : String) (v : Value) (under : Table) (k : String) :
    (overlayEntry key v under).lookup k =
      if k = key then some (v.overlayOn (under.lookup key)) else under.lookup k := by
  unfold overlayEntry
  simp only [any_key_iff]
  split
  · rename_i known
    rw [lookup_replaced]
    cases found : under.lookup key with
    | none => exact absurd known (lookup_eq_none_iff_keys.mp found)
    | some old => rfl
  · rename_i missing
    rw [lookup_eq_none_iff_keys.mpr missing, List.lookup_append]
    by_cases same : k = key
    · subst same
      simp [lookup_eq_none_iff_keys.mpr missing, overlayOn]
    · simp [same, lookup_entry]

theorem atMostOnce_overlayEntry {k : String} {under : Table} (h : AtMostOnce k under) (key : String)
    (v : Value) : AtMostOnce k (overlayEntry key v under) := by
  unfold AtMostOnce at h ⊢
  rw [keys_overlayEntry]
  split
  · exact h
  · rename_i missing
    by_cases same : k = key
    · subst same
      simp [List.count_append, List.count_eq_zero.mpr missing]
    · simpa [List.count_append, List.count_singleton, Ne.symm same] using h

theorem atMostOnce_overlayEntries {k : String} {under : Table} (h : AtMostOnce k under)
    (top : Table) : AtMostOnce k (overlayEntries top under) := by
  induction top generalizing under with
  | nil => exact h
  | cons entry top ih =>
    rw [overlayEntries_cons]
    exact ih (atMostOnce_overlayEntry h entry.1 entry.2)

/-- What the upper table holds for a key lies over what the lower one holds. -/
theorem lookup_overlayEntries {k : String} {top : Table} (h : AtMostOnce k top) (under : Table) :
    (overlayEntries top under).lookup k =
      match top.lookup k with
      | some v => some (v.overlayOn (under.lookup k))
      | none => under.lookup k := by
  induction top generalizing under with
  | nil => rfl
  | cons entry top ih =>
    obtain ⟨key, v⟩ := entry
    rw [overlayEntries_cons]
    by_cases same : k = key
    · subst same
      have gone := atMostOnce_cons_self.mp h
      rw [ih (atMostOnce_of_not_mem gone), lookup_eq_none_iff_keys.mpr gone, lookup_overlayEntry]
      simp
    · rw [ih ((atMostOnce_cons_of_ne (Ne.symm same)).mp h), lookup_overlayEntry, if_neg same,
        lookup_entry, if_neg same]

end Value

end ReleaseSearch.Toml
