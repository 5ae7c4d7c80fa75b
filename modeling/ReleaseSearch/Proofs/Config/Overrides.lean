import ReleaseSearch.Proofs.Config.Environment
import ReleaseSearch.Proofs.Config.Sections

/-! Environment variables for settings. They make one table, in which every setting that a variable
names has the value of that variable. -/
namespace ReleaseSearch.Config

open Toml Environment

/-- The variable of this name is one for the setting. -/
def Names (name : String) (x : Setting Config) : Prop :=
  Text.sameLetters name (marker ++ x.key) = true

instance (name : String) (x : Setting Config) : Decidable (Names name x) :=
  inferInstanceAs (Decidable (_ = true))

theorem keys?_spelling : ∀ X ∈ sections, ∀ y ∈ X.settings,
    keys? (marker ++ (X.place.within y).key) = some [X.place.key, y.key] := by decide +kernel

theorem Names.keys?_eq {name : String} {X : Section} {y : Setting X.place.Content}
    (h : Names name (X.place.within y)) (hX : X ∈ sections) (hy : y ∈ X.settings) :
    keys? name = some [X.place.key, y.key] :=
  (keys?_congr h).trans (keys?_spelling X hX y hy)

/-- Variables that each set one setting, and no two the same. Those without the marker may be
anything. -/
structure Overrides (vars : List (String × String)) : Prop where
  named : ∀ var ∈ vars, Marked var.1 → ∃ x ∈ settings, Names var.1 x
  distinct : vars.Pairwise fun v w => ∀ x ∈ settings, ¬ (Names v.1 x ∧ Names w.1 x)
  readable : ∀ var ∈ vars, ∀ x ∈ settings, Names var.1 x →
    ∃ a, x.read (readValue var.2).toData = .ok a

instance {ε α : Type} (e : Except ε α) : Decidable (∃ a, e = .ok a) :=
  match e with
  | .ok a => .isTrue ⟨a, rfl⟩
  | .error _ => .isFalse (by rintro ⟨a, impossible⟩; cases impossible)

instance (vars : List (String × String)) : Decidable (Overrides vars) :=
  decidable_of_iff
    ((∀ var ∈ vars, Marked var.1 → ∃ x ∈ settings, Names var.1 x) ∧
      (vars.Pairwise fun v w => ∀ x ∈ settings, ¬ (Names v.1 x ∧ Names w.1 x)) ∧
      ∀ var ∈ vars, ∀ x ∈ settings, Names var.1 x →
        ∃ a, x.read (readValue var.2).toData = .ok a)
    ⟨fun ⟨named, distinct, readable⟩ => ⟨named, distinct, readable⟩,
      fun ⟨named, distinct, readable⟩ => ⟨named, distinct, readable⟩⟩

section Overlay

variable {X Z : Section} {y : Setting X.place.Content} {z : Setting Z.place.Content} {v : Value}

theorem entries_nested (X Z : Section) (y : Setting X.place.Content) (v : Value) :
    Z.entries [(X.place.key, .table [(y.key, v)])] =
      if Z.place.key = X.place.key then [(y.key, v)] else [] := by
  rw [Section.entries, lookup_entry]
  by_cases same : Z.place.key = X.place.key <;> simp [same]

theorem layer_nested (X : Section) (y : Setting X.place.Content) (v : Value) :
    Layer [(X.place.key, .table [(y.key, v)])] where
  tables := by
    intro Z _ w found
    rw [lookup_entry] at found
    by_cases same : Z.place.key = X.place.key
    · rw [if_pos same] at found
      exact ⟨_, (Option.some.inj found).symm⟩
    · simp [same] at found
  section_once := fun Z _ => atMostOnce_singleton ..
  setting_once := by
    intro Z _ z _
    rw [entries_nested]
    split
    · exact atMostOnce_singleton ..
    · simp [AtMostOnce]

theorem lookup_put (plain : ∀ entries, v ≠ .table entries) {top : Table} (layer : Layer top)
    (hZ : Z ∈ sections) (hz : z ∈ Z.settings) :
    (Z.entries (Value.overlayEntries [(X.place.key, .table [(y.key, v)])] top)).lookup z.key =
      if Z.place.key = X.place.key ∧ z.key = y.key then some v
      else (Z.entries top).lookup z.key := by
  rw [(layer_nested X y v).lookup_overlay layer.tables hZ hz, entries_nested]
  by_cases same : Z.place.key = X.place.key
  · by_cases equal : z.key = y.key <;>
      simp [same, equal, lookup_entry, Value.overlayOn_of_ne_table plain]
  · simp [same]

end Overlay

/-- The table of the environment: a setting stands in it when a variable is for it, with the value of
that variable. -/
structure Gathers (vars : List (String × String)) (top : Table) : Prop where
  layer : Layer top
  named : ∀ X ∈ sections, ∀ y ∈ X.settings, ∀ var ∈ vars, Names var.1 (X.place.within y) →
    (X.entries top).lookup y.key = some (readValue var.2)
  others : ∀ X ∈ sections, ∀ y ∈ X.settings, (∀ var ∈ vars, ¬ Names var.1 (X.place.within y)) →
    (X.entries top).lookup y.key = none

section Gathers

variable {vars : List (String × String)} {var : String × String} {top : Table}

theorem gathers_nil : Gathers [] [] where
  layer := ⟨by simp [SectionsAreTables], by simp [AtMostOnce], by simp [AtMostOnce, Section.entries]⟩
  named := by simp
  others := by simp [Section.entries]

theorem Gathers.put (before : Gathers vars top) {X : Section} (hX : X ∈ sections)
    {y : Setting X.place.Content} (hy : y ∈ X.settings) (name : Names var.1 (X.place.within y))
    (new : ∀ old ∈ vars, ¬ Names old.1 (X.place.within y)) {a : y.Content}
    (read : y.read (readValue var.2).toData = .ok a) :
    Gathers (vars ++ [var]) (Value.overlayEntries
      [(X.place.key, .table [(y.key, readValue var.2)])] top) := by
  have plain := X.flat.ne_table hy read
  -- a name that is for two settings would have two paths
  have same_path : ∀ {Z : Section} {z : Setting Z.place.Content}, Z ∈ sections → z ∈ Z.settings →
      Names var.1 (Z.place.within z) → Z.place.key = X.place.key ∧ z.key = y.key := by
    intro Z z hZ hz other
    have paths := (other.keys?_eq hZ hz).symm.trans (name.keys?_eq hX hy)
    simpa using paths
  refine ⟨(layer_nested X y _).overlay before.layer, ?_, ?_⟩
  · intro Z hZ z hz w member other
    rw [lookup_put plain before.layer hZ hz]
    rcases List.mem_append.mp member with old | here
    · rw [if_neg]
      · exact before.named Z hZ z hz w old other
      · rintro ⟨part, key⟩
        apply new w old
        simpa only [Names, Setting.within, part, key] using other
    · cases List.mem_singleton.mp here
      rw [if_pos (same_path hZ hz other)]
  · intro Z hZ z hz missing
    rw [lookup_put plain before.layer hZ hz, if_neg]
    · exact before.others Z hZ z hz fun w old => missing w (List.mem_append_left _ old)
    · rintro ⟨part, key⟩
      apply missing var (by simp)
      simpa only [Names, Setting.within, part, key] using name

theorem Gathers.skip (before : Gathers vars top) (unread : keys? var.1 = none) :
    Gathers (vars ++ [var]) top where
  layer := before.layer
  named := by
    intro Z hZ z hz w member other
    rcases List.mem_append.mp member with old | here
    · exact before.named Z hZ z hz w old other
    · cases List.mem_singleton.mp here
      rw [other.keys?_eq hZ hz] at unread
      cases unread
  others := fun Z hZ z hz missing =>
    before.others Z hZ z hz fun w old => missing w (List.mem_append_left _ old)

theorem Overrides.init (o : Overrides (vars ++ [var])) : Overrides vars where
  named := fun v member => o.named v (List.mem_append_left _ member)
  distinct := (List.pairwise_append.mp o.distinct).1
  readable := fun v member => o.readable v (List.mem_append_left _ member)

theorem exists_gathers (o : Overrides vars) :
    ∃ top, Environment.settings vars = .table top ∧ Gathers vars top := by
  induction vars using List.reverseRecOn with
  | nil => exact ⟨[], rfl, gathers_nil⟩
  | append_singleton vars var ih =>
    obtain ⟨top, env, before⟩ := ih o.init
    have last : var ∈ vars ++ [var] := by simp
    rw [settings_append_singleton, env]
    cases path : keys? var.1 with
    | none => exact ⟨top, rfl, before.skip path⟩
    | some keys =>
      have marked : Marked var.1 := by
        by_contra bare
        rw [keys?_of_not_marked bare] at path
        cases path
      obtain ⟨x, hx, name⟩ := o.named var last marked
      obtain ⟨a, read⟩ := o.readable var last x hx name
      have new : ∀ old ∈ vars, ¬ Names old.1 x := fun old member both =>
        (List.pairwise_append.mp o.distinct).2.2 old member var (by simp) x hx ⟨both, name⟩
      obtain ⟨X, hX, y, hy, rfl⟩ := mem_settings_iff.mp hx
      obtain rfl : [X.place.key, y.key] = keys :=
        Option.some.inj ((name.keys?_eq hX hy).symm.trans path)
      exact ⟨_, by simp [nest, Value.overlay], before.put hX hy name new read⟩

end Gathers

end ReleaseSearch.Config
