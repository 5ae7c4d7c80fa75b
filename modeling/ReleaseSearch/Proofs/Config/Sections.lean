import ReleaseSearch.Proofs.Config.Settings

/-! Tables that hold the sections of a configuration. Putting one such table over another goes
setting by setting. -/
namespace ReleaseSearch.Config

open Data Toml

/-- The entries of a section. One that is missing, or no table, has none. -/
def Section.entries (X : Section) (t : Table) : Table :=
  match t.lookup X.place.key with
  | some (.table entries) => entries
  | _ => []

def SectionsAreTables (t : Table) : Prop :=
  ∀ X ∈ sections, ∀ v, t.lookup X.place.key = some v → ∃ entries, v = .table entries

instance (v : Value) : Decidable (∃ entries, v = .table entries) :=
  match v with
  | .table entries => .isTrue ⟨entries, rfl⟩
  | .text _ | .integer _ | .float _ | .boolean _ | .dateTime _ | .array _ =>
    .isFalse (by rintro ⟨_, impossible⟩; cases impossible)

instance (t : Table) : Decidable (SectionsAreTables t) :=
  inferInstanceAs (Decidable
    (∀ X ∈ sections, ∀ v ∈ t.lookup X.place.key, ∃ entries, v = .table entries))

theorem SectionsAreTables.entries_cases {t : Table} (tables : SectionsAreTables t) {X : Section}
    (hX : X ∈ sections) :
    (t.lookup X.place.key = none ∧ X.entries t = []) ∨
      t.lookup X.place.key = some (.table (X.entries t)) := by
  cases found : t.lookup X.place.key with
  | none => exact .inl ⟨rfl, by simp [Section.entries, found]⟩
  | some v =>
    obtain ⟨entries, rfl⟩ := tables X hX v found
    exact .inr (by simp [Section.entries, found])

theorem Section.place_reads_iff {X : Section} (hX : X ∈ sections) {t : Table}
    (tables : SectionsAreTables t) {c : Config} :
    X.place.Reads (t.lookup X.place.key) (X.place.get {}) (X.place.get c) ↔
      ∀ x ∈ X.settings, AtMostOnce x.key (X.entries t) ∧
        x.Reads ((X.entries t).lookup x.key) (x.get (X.place.get {})) (x.get (X.place.get c)) := by
  rcases tables.entries_cases hX with ⟨missing, empty⟩ | found
  · rw [missing, empty]
    constructor
    · intro same x _
      exact ⟨by simp [AtMostOnce], congrArg x.get same⟩
    · intro each
      exact X.independent.ext _ _ fun x hx => (each x hx).2
  · rw [found, Setting.Reads, X.read_eq, readRecord_iff X.independent]

/-- A table in which each section, and each setting in a section, comes at most once. -/
structure Layer (t : Table) : Prop where
  tables : SectionsAreTables t
  section_once : ∀ X ∈ sections, AtMostOnce X.place.key t
  setting_once : ∀ X ∈ sections, ∀ x ∈ X.settings, AtMostOnce x.key (X.entries t)

/-- The configuration that a table gives, setting by setting. -/
theorem ofData_eq_ok_iff {t : Table} (tables : SectionsAreTables t) {c : Config} :
    ofData true (Value.table t).toData = .ok c ↔ Layer t ∧ ∀ X ∈ sections, ∀ x ∈ X.settings,
      x.Reads ((X.entries t).lookup x.key) (x.get (X.place.get {})) (x.get (X.place.get c)) := by
  rw [ofData, fields_eq, readRecord_iff independent_sections, List.forall_mem_map]
  constructor
  · intro each
    have inner := fun X hX => (Section.place_reads_iff hX tables).mp (each X hX).2
    exact ⟨⟨tables, fun X hX => (each X hX).1, fun X hX x hx => (inner X hX x hx).1⟩,
      fun X hX x hx => (inner X hX x hx).2⟩
  · rintro ⟨layer, each⟩ X hX
    exact ⟨layer.section_once X hX, (Section.place_reads_iff hX tables).mpr fun x hx =>
      ⟨layer.setting_once X hX x hx, each X hX x hx⟩⟩

section Overlay

variable {top under : Table}

/-- A section of the upper table is put over the one below; where only one table has it, it is as it
is there. -/
theorem Layer.lookup_overlay_cases (layer : Layer top) (tables : SectionsAreTables under)
    {X : Section} (hX : X ∈ sections) :
    let joined := Value.overlayEntries top under
    (X.entries top = [] ∧ joined.lookup X.place.key = under.lookup X.place.key) ∨
      (X.entries under = [] ∧ joined.lookup X.place.key = some (.table (X.entries top))) ∨
      joined.lookup X.place.key =
        some (.table (Value.overlayEntries (X.entries top) (X.entries under))) := by
  intro joined
  have found := Value.lookup_overlayEntries (layer.section_once X hX) under
  rcases layer.tables.entries_cases hX with ⟨missing, empty⟩ | above
  · rw [missing] at found
    exact .inl ⟨empty, found⟩
  · rw [above] at found
    rcases tables.entries_cases hX with ⟨missing, empty⟩ | below
    · rw [missing] at found
      exact .inr (.inl ⟨empty, found⟩)
    · rw [below] at found
      exact .inr (.inr (by simpa [Value.overlayOn, Value.overlay] using found))

theorem SectionsAreTables.overlay (layer : Layer top) (tables : SectionsAreTables under) :
    SectionsAreTables (Value.overlayEntries top under) := by
  intro X hX v found
  rcases layer.lookup_overlay_cases tables hX with ⟨_, same⟩ | ⟨_, same⟩ | same
  · exact tables X hX v (same ▸ found)
  · exact ⟨_, Option.some.inj (found.symm.trans same)⟩
  · exact ⟨_, Option.some.inj (found.symm.trans same)⟩

theorem Layer.entries_overlay (layer : Layer top) (tables : SectionsAreTables under)
    {X : Section} (hX : X ∈ sections) :
    let joined := Value.overlayEntries top under
    (X.entries under = [] ∧ X.entries joined = X.entries top) ∨
      X.entries joined = Value.overlayEntries (X.entries top) (X.entries under) := by
  intro joined
  rcases layer.lookup_overlay_cases tables hX with ⟨empty, same⟩ | ⟨empty, same⟩ | same
  · right
    rw [empty, Value.overlayEntries, Section.entries, same, Section.entries]
  · left
    exact ⟨empty, by simp [Section.entries, joined, same]⟩
  · right
    simp [Section.entries, joined, same]

theorem Layer.overlay (layer : Layer top) (under_layer : Layer under) :
    Layer (Value.overlayEntries top under) where
  tables := under_layer.tables.overlay layer
  section_once X hX := Value.atMostOnce_overlayEntries (under_layer.section_once X hX) top
  setting_once X hX x hx := by
    rcases layer.entries_overlay under_layer.tables hX with ⟨_, same⟩ | same
    · exact same ▸ layer.setting_once X hX x hx
    · rw [same]
      exact Value.atMostOnce_overlayEntries (under_layer.setting_once X hX x hx) _

theorem Layer.lookup_overlay (layer : Layer top) (tables : SectionsAreTables under)
    {X : Section} (hX : X ∈ sections) {x : Setting X.place.Content} (hx : x ∈ X.settings) :
    (X.entries (Value.overlayEntries top under)).lookup x.key =
      match (X.entries top).lookup x.key with
      | some v => some (v.overlayOn ((X.entries under).lookup x.key))
      | none => (X.entries under).lookup x.key := by
  rcases layer.entries_overlay tables hX with ⟨empty, same⟩ | same
  · rw [same, empty]
    cases (X.entries top).lookup x.key <;> rfl
  · rw [same]
    exact Value.lookup_overlayEntries (layer.setting_once X hX x hx) _

theorem Layer.lookup_overlay_of_reads (layer : Layer top) (tables : SectionsAreTables under)
    {X : Section} (hX : X ∈ sections) {x : Setting X.place.Content} (hx : x ∈ X.settings)
    {v : Value} {a : x.Content} (found : (X.entries top).lookup x.key = some v)
    (read : x.read v.toData = .ok a) :
    (X.entries (Value.overlayEntries top under)).lookup x.key = some v := by
  have plain := X.flat.ne_table hx read
  simp only [layer.lookup_overlay tables hX hx, found, Value.overlayOn_of_ne_table plain]

end Overlay

end ReleaseSearch.Config
