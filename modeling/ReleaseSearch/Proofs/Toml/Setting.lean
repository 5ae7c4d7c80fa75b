import Mathlib.Data.List.Nodup
import ReleaseSearch.Proofs.Data
import ReleaseSearch.Proofs.Toml.Overlay

/-! Settings: the fields of a record that all have defaults, read from a table of TOML. The record
that is read has in each of them what stands in the table, or else its default. -/
namespace ReleaseSearch.Toml

open Data

theorem Value.isWhole_toData (v : Value) : v.toData.isWhole = true := by
  cases v <;> rfl

/-- A field with its place in the record. -/
structure Setting (σ : Type) where
  key : String
  Content : Type
  read : Data → Except Fault Content
  get : σ → Content
  set : σ → Content → σ

variable {σ : Type}

namespace Setting

def field (x : Setting σ) : RecordField σ :=
  ⟨x.key, .defaulted, fun s d => return x.set s (← x.read d)⟩

theorem field_read_eq_ok_iff {x : Setting σ} {s t : σ} {d : Data} :
    x.field.read s d = .ok t ↔ ∃ a, x.read d = .ok a ∧ x.set s a = t := by
  simp only [field, bind_eq_ok_iff]
  constructor
  · rintro ⟨a, read, same⟩
    cases same
    exact ⟨a, read, rfl⟩
  · rintro ⟨a, read, rfl⟩
    exact ⟨a, read, rfl⟩

/-- What was found reads as `a`; where nothing was found, `a` is the fallback. -/
def Reads (x : Setting σ) (found : Option Value) (fallback a : x.Content) : Prop :=
  match found with
  | some v => x.read v.toData = .ok a
  | none => a = fallback

theorem Reads.unique {x : Setting σ} {found : Option Value} {fallback a b : x.Content}
    (first : x.Reads found fallback a) (second : x.Reads found fallback b) : a = b := by
  cases found with
  | none => exact Eq.trans first (Eq.symm second)
  | some v => exact Except.ok.inj (Eq.trans (Eq.symm first) second)

/-- A setting of a part, as a setting of the whole. -/
@[reducible]
def within (place : Setting σ) (x : Setting place.Content) : Setting σ :=
  ⟨place.key ++ "__" ++ x.key, x.Content, x.read, fun s => x.get (place.get s),
    fun s a => place.set s (x.set (place.get s) a)⟩

end Setting

/-- No setting is a table. -/
def Flat (settings : List (Setting σ)) : Prop :=
  ∀ x ∈ settings, ∀ entries a, x.read (Value.table entries).toData ≠ .ok a

theorem flat_nil : Flat ([] : List (Setting σ)) := by simp [Flat]

theorem flat_cons {x : Setting σ} {settings : List (Setting σ)} : Flat (x :: settings) ↔
    (∀ entries a, x.read (Value.table entries).toData ≠ .ok a) ∧ Flat settings :=
  List.forall_mem_cons

theorem Flat.ne_table {settings : List (Setting σ)} (flat : Flat settings) {x : Setting σ}
    (hx : x ∈ settings) {v : Value} {a : x.Content} (read : x.read v.toData = .ok a)
    (entries : Table) : v ≠ .table entries := by
  rintro rfl
  exact flat x hx entries a read

/-- Settings that share neither keys nor places, and make up the record. -/
structure Independent (settings : List (Setting σ)) : Prop where
  keys : (settings.map Setting.key).Nodup
  get_set : ∀ x ∈ settings, ∀ s a, x.get (x.set s a) = a
  get_set_of_ne : ∀ x ∈ settings, ∀ y ∈ settings, x.key ≠ y.key →
    ∀ s a, y.get (x.set s a) = y.get s
  ext : ∀ s t, (∀ x ∈ settings, x.get s = x.get t) → s = t

section Independent

variable {settings : List (Setting σ)}

theorem Independent.eq_of_key (apart : Independent settings) {x y : Setting σ} (hx : x ∈ settings)
    (hy : y ∈ settings) (same : x.key = y.key) : x = y :=
  List.inj_on_of_nodup_map apart.keys hx hy same

/-- A record can be put together setting by setting. -/
theorem Independent.exists_state (apart : Independent settings)
    {P : (x : Setting σ) → x.Content → Prop} (s : σ) (each : ∀ x ∈ settings, ∃ a, P x a) :
    ∃ t, ∀ x ∈ settings, P x (x.get t) := by
  have build : ∀ some_of : List (Setting σ), some_of ⊆ settings → (some_of.map Setting.key).Nodup →
      ∃ t, ∀ x ∈ some_of, P x (x.get t) := by
    intro some_of
    induction some_of with
    | nil => exact fun _ _ => ⟨s, by simp⟩
    | cons x rest ih =>
      intro known distinct
      obtain ⟨here, behind⟩ := List.cons_subset.mp known
      obtain ⟨new, distinct⟩ := List.nodup_cons.mp distinct
      obtain ⟨t, placed⟩ := ih behind distinct
      obtain ⟨a, holds⟩ := each x here
      refine ⟨x.set t a, List.forall_mem_cons.mpr ⟨?_, ?_⟩⟩
      · rwa [apart.get_set x here]
      · intro y member
        have ne : x.key ≠ y.key := fun same => new (same ▸ List.mem_map_of_mem member)
        rw [apart.get_set_of_ne x here y (behind member) ne]
        exact placed y member
  exact build settings (List.Subset.refl settings) apart.keys

/-- What the entries that are left make of a setting: it comes once at most, and not at all when it
has come before. -/
structure Setting.Met (x : Setting σ) (seen : List String) (entries : Table) (s t : σ) : Prop where
  once : AtMostOnce x.key entries
  fresh : x.key ∈ seen → x.key ∉ entries.map Prod.fst
  value : x.Reads (entries.lookup x.key) (x.get s) (x.get t)

theorem Setting.met_cons_of_ne {x : Setting σ} {seen : List String} {name : String} {v : Value}
    {entries : Table} {s t : σ} (ne : name ≠ x.key) :
    x.Met seen ((name, v) :: entries) s t ↔ x.Met seen entries s t := by
  have passed : List.lookup x.key ((name, v) :: entries) = entries.lookup x.key := by
    rw [lookup_entry, if_neg (Ne.symm ne)]
  constructor
  · rintro ⟨once, fresh, value⟩
    exact ⟨(atMostOnce_cons_of_ne ne).mp once, by simpa [Ne.symm ne] using fresh, passed ▸ value⟩
  · rintro ⟨once, fresh, value⟩
    exact ⟨(atMostOnce_cons_of_ne ne).mpr once, by simpa [Ne.symm ne] using fresh,
      passed.symm ▸ value⟩

theorem Independent.met_cons_self (apart : Independent settings) {x : Setting σ}
    (hx : x ∈ settings) {seen : List String} (new : x.key ∉ seen) {v : Value} {a : x.Content}
    (read : x.read v.toData = .ok a) {entries : Table} {s t : σ} :
    x.Met seen ((x.key, v) :: entries) s t ↔ x.Met (x.key :: seen) entries (x.set s a) t := by
  have got : x.get (x.set s a) = a := apart.get_set x hx s a
  constructor
  · rintro ⟨once, _, value⟩
    have gone := atMostOnce_cons_self.mp once
    refine ⟨atMostOnce_of_not_mem gone, fun _ => gone, ?_⟩
    rw [lookup_entry, if_pos rfl] at value
    rw [lookup_eq_none_iff_keys.mpr gone, got]
    exact Except.ok.inj (Eq.trans (Eq.symm value) read)
  · rintro ⟨_, fresh, value⟩
    have gone := fresh (List.mem_cons_self ..)
    refine ⟨atMostOnce_cons_self.mpr gone, fun known => absurd known new, ?_⟩
    rw [lookup_eq_none_iff_keys.mpr gone, got] at value
    rw [lookup_entry, if_pos rfl]
    exact read.trans (congrArg Except.ok (Eq.symm value))

theorem Independent.met_cons_other (apart : Independent settings) {x y : Setting σ}
    (hx : x ∈ settings) (hy : y ∈ settings) (ne : x.key ≠ y.key) {seen : List String} {v : Value}
    {a : x.Content} {entries : Table} {s t : σ} :
    y.Met seen ((x.key, v) :: entries) s t ↔ y.Met (x.key :: seen) entries (x.set s a) t := by
  have kept : y.get (x.set s a) = y.get s := apart.get_set_of_ne x hx y hy ne s a
  rw [Setting.met_cons_of_ne ne]
  constructor
  · rintro ⟨once, fresh, value⟩
    exact ⟨once, by simpa [Ne.symm ne] using fresh, kept.symm ▸ value⟩
  · rintro ⟨once, fresh, value⟩
    exact ⟨once, fun known => fresh (List.mem_cons_of_mem _ known), kept ▸ value⟩

theorem find?_field (settings : List (Setting σ)) (name : String) :
    (settings.map Setting.field).find? (·.name == name) =
      (settings.find? (·.key == name)).map Setting.field := by
  rw [List.find?_map]
  rfl

theorem readMembers_iff (apart : Independent settings) (entries : Table) (seen : List String)
    (s t : σ) :
    (∃ after, readMembers (settings.map Setting.field) seen s (Value.entriesToData entries) =
      .ok (t, after)) ↔ ∀ x ∈ settings, x.Met seen entries s t := by
  induction entries generalizing seen s with
  | nil =>
    constructor
    · rintro ⟨after, read⟩ x _
      cases read
      exact ⟨by simp [AtMostOnce], by simp, rfl⟩
    · intro met
      have same : s = t := apart.ext s t fun x hx => Eq.symm (met x hx).value
      exact ⟨seen, by rw [same]; rfl⟩
  | cons entry entries ih =>
    obtain ⟨name, v⟩ := entry
    rw [Value.entriesToData, readMembers, find?_field]
    cases found : settings.find? (·.key == name) with
    | none =>
      simp only [Option.map_none, Value.isWhole_toData, if_true, ih]
      refine forall₂_congr fun x hx => (Setting.met_cons_of_ne ?_).symm
      have other := List.find?_eq_none.mp found x hx
      exact fun same => other (by simp [same])
    | some x =>
      have hx := List.mem_of_find?_eq_some found
      obtain rfl : x.key = name := by simpa using List.find?_some found
      simp only [Option.map_some, List.contains_iff_mem]
      by_cases known : x.key ∈ seen
      · simp only [known, if_true]
        constructor
        · rintro ⟨after, impossible⟩
          cases impossible
        · intro met
          exact absurd (by simp) ((met x hx).fresh known)
      · simp only [known, if_false, bind_eq_ok_iff, Setting.field_read_eq_ok_iff]
        constructor
        · rintro ⟨after, _, ⟨a, read, rfl⟩, rest⟩ y hy
          have met := (ih (x.key :: seen) (x.set s a)).mp ⟨after, rest⟩ y hy
          by_cases same : x.key = y.key
          · obtain rfl := apart.eq_of_key hx hy same
            exact (apart.met_cons_self hx known read).mpr met
          · exact (apart.met_cons_other hx hy same).mpr met
        · intro met
          have value := (met x hx).value
          rw [lookup_entry, if_pos rfl] at value
          have rest : ∀ y ∈ settings, y.Met (x.key :: seen) entries (x.set s (x.get t)) t := by
            intro y hy
            by_cases same : x.key = y.key
            · obtain rfl := apart.eq_of_key hx hy same
              exact (apart.met_cons_self hx known value).mp (met x hx)
            · exact (apart.met_cons_other hx hy same).mp (met y hy)
          obtain ⟨after, read⟩ := (ih (x.key :: seen) _).mpr rest
          exact ⟨after, _, ⟨x.get t, value, rfl⟩, read⟩

/-- A table is read as the record that has each setting from the table or from the start. -/
theorem readRecord_iff (apart : Independent settings) {ignoreSurplus : Bool} (entries : Table)
    (s t : σ) :
    readRecord (settings.map Setting.field) ignoreSurplus s (Value.table entries).toData = .ok t ↔
      ∀ x ∈ settings, AtMostOnce x.key entries ∧
        x.Reads (entries.lookup x.key) (x.get s) (x.get t) := by
  have defaulted : ∀ seen : List String, (settings.map Setting.field).all
      (fun f => f.presence != .required || seen.contains f.name) = true := by
    intro seen
    simp [Setting.field]
  have met := readMembers_iff apart entries [] s t
  rw [Value.toData, readRecord]
  constructor
  · intro read x hx
    obtain ⟨⟨u, after⟩, members, rest⟩ := bind_eq_ok_iff.mp read
    obtain ⟨_, whole, complete⟩ := bind_eq_ok_iff.mp rest
    cases whole
    rw [if_pos (defaulted after)] at complete
    cases complete
    have here := met.mp ⟨after, members⟩ x hx
    exact ⟨here.once, here.value⟩
  · intro each
    obtain ⟨after, members⟩ := met.mpr fun x hx => ⟨(each x hx).1, by simp, (each x hx).2⟩
    refine bind_eq_ok_iff.mpr ⟨_, members, bind_eq_ok_iff.mpr ⟨t, rfl, ?_⟩⟩
    rw [if_pos (defaulted after)]
    rfl

end Independent

end ReleaseSearch.Toml
