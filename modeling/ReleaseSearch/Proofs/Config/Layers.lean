import Mathlib.Data.List.Pairwise
import ReleaseSearch.Config.Load
import ReleaseSearch.Proofs.Config.Overrides

/-! A configuration file with environment variables over it. Each variable replaces its own setting;
every other setting is as the file has it. -/
namespace ReleaseSearch.Config

open Toml Environment

/-- What a setting becomes: the value of the variable that is for it, or else what it was. -/
structure Becomes (vars : List (String × String)) (c : Config) (x : Setting Config)
    (a : x.Content) : Prop where
  named : ∀ var ∈ vars, Names var.1 x → x.read (readValue var.2).toData = .ok a
  others : (∀ var ∈ vars, ¬ Names var.1 x) → a = x.get c

section Becomes

variable {vars : List (String × String)} {c : Config}

theorem Overrides.eq_of_names (o : Overrides vars) {v w : String × String} (hv : v ∈ vars)
    (hw : w ∈ vars) {x : Setting Config} (hx : x ∈ settings) (first : Names v.1 x)
    (second : Names w.1 x) : v = w := by
  by_contra ne
  have symm : Std.Symm fun v w : String × String =>
      ∀ x ∈ settings, ¬ (Names v.1 x ∧ Names w.1 x) :=
    ⟨fun _ _ apart x hx both => apart x hx both.symm⟩
  exact o.distinct.forall hv hw ne x hx ⟨first, second⟩

theorem Overrides.becomes_iff (o : Overrides vars) {var : String × String} (member : var ∈ vars)
    {x : Setting Config} (hx : x ∈ settings) (name : Names var.1 x) {a : x.Content} :
    Becomes vars c x a ↔ x.read (readValue var.2).toData = .ok a := by
  constructor
  · intro become
    exact become.named var member name
  · intro read
    refine ⟨fun other known also => ?_, fun missing => absurd name (missing var member)⟩
    rwa [o.eq_of_names known member hx also name]

theorem becomes_iff_of_missing {x : Setting Config} (missing : ∀ var ∈ vars, ¬ Names var.1 x)
    {a : x.Content} : Becomes vars c x a ↔ a = x.get c :=
  ⟨fun become => become.others missing,
    fun same => ⟨fun var member name => absurd name (missing var member), fun _ => same⟩⟩

theorem Overrides.exists_becomes (o : Overrides vars) (c : Config) :
    ∃ c', ∀ x ∈ settings, Becomes vars c x (x.get c') := by
  refine independent_settings.exists_state c fun x hx => ?_
  by_cases named : ∃ var ∈ vars, Names var.1 x
  · obtain ⟨var, member, name⟩ := named
    obtain ⟨a, read⟩ := o.readable var member x hx name
    exact ⟨a, (o.becomes_iff member hx name).mpr read⟩
  · exact ⟨x.get c, (becomes_iff_of_missing (by simpa using named)).mpr rfl⟩

theorem Gathers.reads_iff {top table : Table} (gathered : Gathers vars top) (o : Overrides vars)
    (tables : SectionsAreTables table) {X : Section} (hX : X ∈ sections)
    {y : Setting X.place.Content} (hy : y ∈ X.settings) {fallback a : y.Content}
    (file : y.Reads ((X.entries table).lookup y.key) fallback (y.get (X.place.get c))) :
    y.Reads ((X.entries (Value.overlayEntries top table)).lookup y.key) fallback a ↔
      Becomes vars c (X.place.within y) a := by
  by_cases named : ∃ var ∈ vars, Names var.1 (X.place.within y)
  · obtain ⟨var, member, name⟩ := named
    have hx := mem_settings_iff.mpr ⟨X, hX, y, hy, rfl⟩
    obtain ⟨b, read⟩ := o.readable var member _ hx name
    rw [o.becomes_iff member hx name, gathered.layer.lookup_overlay_of_reads tables hX hy
      (gathered.named X hX y hy var member name) read]
    rfl
  · have missing : ∀ var ∈ vars, ¬ Names var.1 (X.place.within y) := by simpa using named
    rw [becomes_iff_of_missing missing, gathered.layer.lookup_overlay tables hX hy,
      gathered.others X hX y hy missing]
    constructor
    · intro value
      exact value.unique file
    · rintro rfl
      exact file

end Becomes

theorem ofSettings_eq_ok_iff {v : Value} {c : Config} :
    ofSettings v = .ok c ↔ ofData true v.toData = .ok c := by
  unfold ofSettings
  split
  · rename_i config read
    simp [read]
  · rename_i fault read
    simp [read]

section Load

variable {text : String} {vars : List (String × String)} {c : Config}

theorem exists_table_of_ofToml (h : ofToml text = .ok c) :
    ∃ table, Toml.read? text = some table ∧ ofData true (Value.table table).toData = .ok c := by
  unfold ofToml at h
  split at h
  · rename_i table found
    exact ⟨table, found, ofSettings_eq_ok_iff.mp h⟩
  · cases h

theorem load_of_not_marked (path text : String) (h : ∀ var ∈ vars, ¬ Marked var.1) :
    load path (some text) vars = ofToml text := by
  unfold load ofToml
  dsimp only
  cases Toml.read? text with
  | none => rfl
  | some table =>
    simp only [settings_of_not_marked h, Value.overlay, Value.overlayEntries]

theorem load_eq_ok_iff (path : String)
    (tables : ∀ table, Toml.read? text = some table → SectionsAreTables table)
    (loaded : ofToml text = .ok c) (o : Overrides vars) {c' : Config} :
    load path (some text) vars = .ok c' ↔ ∀ x ∈ settings, Becomes vars c x (x.get c') := by
  obtain ⟨table, found, read⟩ := exists_table_of_ofToml loaded
  obtain ⟨top, env, gathered⟩ := exists_gathers o
  have shape := tables table found
  obtain ⟨layer, file⟩ := (ofData_eq_ok_iff shape).mp read
  have joined : load path (some text) vars = .ok c' ↔
      ofData true (Value.table (Value.overlayEntries top table)).toData = .ok c' := by
    simp only [load, found, env, Value.overlay, ofSettings_eq_ok_iff]
  rw [joined, ofData_eq_ok_iff (shape.overlay gathered.layer)]
  constructor
  · rintro ⟨_, each⟩ x hx
    obtain ⟨X, hX, y, hy, rfl⟩ := mem_settings_iff.mp hx
    exact (gathered.reads_iff o shape hX hy (file X hX y hy)).mp (each X hX y hy)
  · intro each
    refine ⟨gathered.layer.overlay layer, fun X hX y hy => ?_⟩
    exact (gathered.reads_iff o shape hX hy (file X hX y hy)).mpr
      (each _ (mem_settings_iff.mpr ⟨X, hX, y, hy, rfl⟩))

end Load

section Respelled

variable {vars order : List (String × String)} {spell : String → String}

theorem names_respelled (kept : ∀ name, Text.sameLetters (spell name) name = true) (name : String)
    (x : Setting Config) : Names (spell name) x ↔ Names name x := by
  rw [Names, Names, Text.sameLetters_iff, Text.sameLetters_iff, Text.sameLetters_iff.mp (kept name)]

theorem Overrides.respelled (o : Overrides vars) (permuted : order.Perm vars)
    (kept : ∀ name, Text.sameLetters (spell name) name = true) :
    Overrides (order.map fun var => (spell var.1, var.2)) where
  named := by
    simpa only [List.forall_mem_map, permuted.mem_iff, marked_congr (kept _),
      names_respelled kept] using o.named
  distinct := by
    have apart := permuted.symm.pairwise o.distinct fun both x hx names => both x hx names.symm
    simpa only [List.pairwise_map, names_respelled kept] using apart
  readable := by
    simpa only [List.forall_mem_map, permuted.mem_iff, names_respelled kept] using o.readable

theorem becomes_respelled_iff (permuted : order.Perm vars)
    (kept : ∀ name, Text.sameLetters (spell name) name = true) {c : Config} {x : Setting Config}
    {a : x.Content} :
    Becomes (order.map fun var => (spell var.1, var.2)) c x a ↔ Becomes vars c x a := by
  constructor
  · rintro ⟨named, others⟩
    simp only [List.forall_mem_map, permuted.mem_iff, names_respelled kept] at named others
    exact ⟨named, others⟩
  · rintro ⟨named, others⟩
    constructor
    · simpa only [List.forall_mem_map, permuted.mem_iff, names_respelled kept] using named
    · simpa only [List.forall_mem_map, permuted.mem_iff, names_respelled kept] using others

end Respelled

/-- Without variables of its own the file gives what its text gives. With them it gives the same but
for the settings they name, in whatever order they come and in letters of either case. -/
theorem load_layers (path text : String)
    (tables : ∀ table, Toml.read? text = some table → SectionsAreTables table) :
    (∀ vars, (∀ var ∈ vars, ¬ Marked var.1) → load path (some text) vars = ofToml text) ∧
    ∀ c, ofToml text = .ok c → ∀ vars, Overrides vars →
      ∃ c', (∀ x ∈ settings, Becomes vars c x (x.get c')) ∧
        ∀ order : List (String × String), order.Perm vars →
          ∀ spell : String → String, (∀ name, Text.sameLetters (spell name) name = true) →
            load path (some text) (order.map fun var => (spell var.1, var.2)) = .ok c' := by
  refine ⟨fun vars => load_of_not_marked path text, fun c loaded vars o => ?_⟩
  obtain ⟨c', becomes⟩ := o.exists_becomes c
  refine ⟨c', becomes, fun order permuted spell kept => ?_⟩
  rw [load_eq_ok_iff path tables loaded (o.respelled permuted kept)]
  intro x hx
  exact (becomes_respelled_iff permuted kept).mpr (becomes x hx)

theorem load_layers_two_variables :
    let text := "[server]\nport = 9000\n\n[search]\nprimary_language = \"fr\"\n"
    let vars := [("bookseek_server__port", "8081"), ("HOME", "/root"),
      ("BOOKSEEK_SEARCH__DEFAULT_LANGUAGES", "[fr, \"en\"]")]
    let c : Config := { server := { port := 9000 }, search := { primaryLanguage := "fr" } }
    let c' : Config :=
      { server := { port := 8081 },
        search := { defaultLanguages := ["fr", "en"], primaryLanguage := "fr" } }
    (∀ table, Toml.read? text = some table → SectionsAreTables table) ∧ ofToml text = .ok c ∧
      Overrides vars ∧ (∀ x ∈ settings, Becomes vars c x (x.get c')) ∧
      load "config.toml" (some text) vars.reverse = .ok c' := by
  intro text vars c c'
  have tables : ∀ table ∈ Toml.read? text, SectionsAreTables table := by decide +kernel
  have file : ofToml text = .ok c := by decide +kernel
  have overrides : Overrides vars := by decide +kernel
  have joined : load "config.toml" (some text) vars.reverse = .ok c' := by decide +kernel
  obtain ⟨found, becomes, loads⟩ :=
    (load_layers "config.toml" text tables).2 c file vars overrides
  have reversed := loads vars.reverse (List.reverse_perm vars) id (by simp [Text.sameLetters])
  obtain rfl : found = c' := by simpa [joined] using reversed.symm
  exact ⟨tables, file, overrides, becomes, joined⟩

end ReleaseSearch.Config
