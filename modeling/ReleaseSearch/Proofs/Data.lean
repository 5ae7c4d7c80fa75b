import ReleaseSearch.Data.Record

/-! Values that were read. A list is read item by item; what a record has at the start and keeps
through each of its fields it has in the end. -/
namespace ReleaseSearch.Data

theorem bind_eq_ok_iff {α β : Type} {first : Except Fault α} {next : α → Except Fault β} {b : β} :
    first >>= next = .ok b ↔ ∃ a, first = .ok a ∧ next a = .ok b := by
  cases first with
  | error fault =>
    constructor
    · intro impossible
      cases impossible
    · rintro ⟨a, impossible, _⟩
      cases impossible
  | ok a =>
    constructor
    · intro read
      exact ⟨a, rfl, read⟩
    · rintro ⟨other, same, read⟩
      cases same
      exact read

section Lists

variable {α : Type} {read : Data → Except Fault α}

theorem mapM_eq_ok_iff {items : List Data} {values : List α} :
    items.mapM read = .ok values ↔ items.map read = values.map .ok := by
  induction items generalizing values with
  | nil =>
    cases values with
    | nil => simp [pure, Except.pure]
    | cons a values => simp [pure, Except.pure]
  | cons d items ih =>
    rw [List.mapM_cons, bind_eq_ok_iff]
    simp only [bind_eq_ok_iff, ih]
    cases values with
    | nil => simp [pure, Except.pure]
    | cons a values => simp [pure, Except.pure]

theorem readList_eq_ok {d : Data} {values : List α} (h : readList read d = .ok values) :
    ∃ items, d = .list items true ∧ items.map read = values.map .ok := by
  unfold readList at h
  split at h
  · rename_i items closed
    obtain ⟨known, each, whole⟩ := bind_eq_ok_iff.mp h
    cases closed with
    | false => cases whole
    | true =>
      cases whole
      exact ⟨items, rfl, mapM_eq_ok_iff.mp each⟩
  · cases h

theorem exists_of_mem_readList {d : Data} {values : List α} (h : readList read d = .ok values)
    {a : α} (member : a ∈ values) : ∃ item, read item = .ok a := by
  obtain ⟨items, rfl, each⟩ := readList_eq_ok h
  have known : Except.ok a ∈ items.map read := by
    rw [each]
    exact List.mem_map_of_mem member
  obtain ⟨item, _, eq⟩ := List.mem_map.mp known
  exact ⟨item, eq⟩

theorem readList_of_unreadable {items : List Data} {item : Data} (member : item ∈ items)
    (unreadable : ∀ a, read item ≠ .ok a) (closed : Bool) (values : List α) :
    readList read (.list items closed) ≠ .ok values := by
  intro h
  obtain ⟨others, same, each⟩ := readList_eq_ok h
  cases same
  have known : read item ∈ values.map Except.ok := by
    rw [← each]
    exact List.mem_map_of_mem member
  obtain ⟨a, _, eq⟩ := List.mem_map.mp known
  exact unreadable a eq.symm

end Lists

section Records

variable {σ : Type} {P : σ → Prop} {fields : List (RecordField σ)}

theorem readMembers_keeps (kept : ∀ f ∈ fields, ∀ s d t, P s → f.read s d = .ok t → P t)
    {members : List (Option String × Data)} {seen after : List String} {s t : σ} (start : P s)
    (h : readMembers fields seen s members = .ok (t, after)) : P t := by
  induction members generalizing seen s with
  | nil =>
    cases h
    exact start
  | cons m members ih =>
    obtain ⟨name, d⟩ := m
    cases name with
    | none => cases h
    | some name =>
      rw [readMembers] at h
      split at h
      · rename_i field found
        split at h
        · cases h
        · obtain ⟨u, here, rest⟩ := bind_eq_ok_iff.mp h
          exact ih (kept field (List.mem_of_find?_eq_some found) s d u start here) rest
      · split at h
        · exact ih start h
        · cases h

theorem readItems_keeps (kept : ∀ f ∈ fields, ∀ s d t, P s → f.read s d = .ok t → P t)
    {ignoreSurplus closed : Bool} {items : List Data} {s t : σ} (start : P s)
    (h : readItems ignoreSurplus closed s fields items = .ok t) : P t := by
  induction fields generalizing items s with
  | nil =>
    rw [readItems] at h
    split at h
    · cases h
      exact start
    · cases h
  | cons field fields ih =>
    cases items with
    | nil =>
      rw [readItems] at h
      split at h
      · cases h
      · split at h
        · cases h
          exact start
        · cases h
    | cons d items =>
      obtain ⟨u, here, rest⟩ := bind_eq_ok_iff.mp h
      exact ih (fun f member => kept f (List.mem_cons_of_mem field member))
        (kept field (List.mem_cons_self ..) s d u start here) rest

/-- What holds at the start and is kept by every field holds of the record that is read. -/
theorem readRecord_keeps (kept : ∀ f ∈ fields, ∀ s d t, P s → f.read s d = .ok t → P t)
    {ignoreSurplus : Bool} {s t : σ} {d : Data} (start : P s)
    (h : readRecord fields ignoreSurplus s d = .ok t) : P t := by
  unfold readRecord at h
  split at h
  · rename_i members closed
    obtain ⟨⟨u, after⟩, read, rest⟩ := bind_eq_ok_iff.mp h
    obtain ⟨v, whole, complete⟩ := bind_eq_ok_iff.mp rest
    have same : u = v := by
      cases closed with
      | false => cases whole
      | true => exact Except.ok.inj whole
    split at complete
    · cases complete
      exact same ▸ readMembers_keeps kept start read
    · cases complete
  · exact readItems_keeps kept start h
  · cases h

end Records

end ReleaseSearch.Data
