import ReleaseSearch.Config.Json
import ReleaseSearch.Proofs.Toml.Setting

/-! The settings of a configuration, in their three sections. No two lie in the same place, and
together they are the configuration. -/
namespace ReleaseSearch

open Data Toml

namespace ServerConfig

def settings : List (Setting ServerConfig) :=
  [⟨"host", IpAddress, IpAddress.ofData, ServerConfig.host, fun c a => { c with host := a }⟩,
   ⟨"port", UInt16, fun d => return UInt16.ofNat (← d.readNatural UInt16.size), ServerConfig.port,
    fun c a => { c with port := a }⟩]

theorem independent : Independent settings where
  keys := by decide
  get_set := by simp [settings]
  get_set_of_ne := by simp [settings]
  ext := by
    rintro ⟨_, _⟩ ⟨_, _⟩ same
    simpa [settings] using same

theorem flat : Flat settings := by
  simp only [settings, flat_cons, flat_nil, and_true]
  exact ⟨nofun, nofun⟩

theorem fields_eq : fields = settings.map Setting.field := by
  have port : (fun (c : ServerConfig) (d : Data) =>
      (do return { c with port := UInt16.ofNat (← d.readNatural UInt16.size) } :
        Except Fault ServerConfig)) = fun c d =>
      (do return { c with port := ← (do return UInt16.ofNat (← d.readNatural UInt16.size)) }) := by
    funext c d
    cases d.readNatural UInt16.size <;> rfl
  rw [fields, port]
  rfl

end ServerConfig

namespace SearchConfig

def settings : List (Setting SearchConfig) :=
  [⟨"default_languages", List String, readTexts, SearchConfig.defaultLanguages,
    fun c a => { c with defaultLanguages := a }⟩,
   ⟨"primary_language", String, readText, SearchConfig.primaryLanguage,
    fun c a => { c with primaryLanguage := a }⟩,
   ⟨"catalog_path", Option String, readOption readText, SearchConfig.catalogPath,
    fun c a => { c with catalogPath := a }⟩]

theorem independent : Independent settings where
  keys := by decide
  get_set := by simp [settings]
  get_set_of_ne := by simp [settings]
  ext := by
    rintro ⟨_, _, _⟩ ⟨_, _, _⟩ same
    simpa [settings] using same

theorem flat : Flat settings := by
  simp only [settings, flat_cons, flat_nil, and_true]
  exact ⟨nofun, nofun, nofun⟩

end SearchConfig

namespace Rules

def settings : List (Setting Rules) :=
  [⟨"max_short_subtitle_words", Nat, readNatural UInt64.size, Rules.maxShortSubtitleWords,
    fun r a => { r with maxShortSubtitleWords := a }⟩,
   ⟨"connecting_phrases", List String, readTexts, Rules.connectingPhrases,
    fun r a => { r with connectingPhrases := a }⟩,
   ⟨"series_markers", List String, readTexts, Rules.seriesMarkers,
    fun r a => { r with seriesMarkers := a }⟩,
   ⟨"name_suffixes", List String, readTexts, Rules.nameSuffixes,
    fun r a => { r with nameSuffixes := a }⟩]

theorem independent : Independent settings where
  keys := by decide
  get_set := by simp [settings]
  get_set_of_ne := by simp [settings]
  ext := by
    rintro ⟨_, _, _, _⟩ ⟨_, _, _, _⟩ same
    simpa [settings] using same

theorem flat : Flat settings := by
  simp only [settings, flat_cons, flat_nil, and_true]
  exact ⟨nofun, nofun, nofun, nofun⟩

end Rules

namespace Config

structure Section where
  place : Setting Config
  settings : List (Setting place.Content)
  independent : Independent settings
  flat : Flat settings
  read_eq : place.read = readRecord (settings.map Setting.field) true (place.get {})

def sections : List Section :=
  [{ place := ⟨"server", ServerConfig, ServerConfig.ofData true, Config.server,
       fun c a => { c with server := a }⟩
     settings := ServerConfig.settings
     independent := ServerConfig.independent
     flat := ServerConfig.flat
     read_eq := congrArg (fun fields => readRecord fields true ({} : ServerConfig))
       ServerConfig.fields_eq },
   { place := ⟨"search", SearchConfig, SearchConfig.ofData true, Config.search,
       fun c a => { c with search := a }⟩
     settings := SearchConfig.settings
     independent := SearchConfig.independent
     flat := SearchConfig.flat
     read_eq := rfl },
   { place := ⟨"simplifier", Rules, Rules.ofData true, Config.simplifier,
       fun c a => { c with simplifier := a }⟩
     settings := Rules.settings
     independent := Rules.independent
     flat := Rules.flat
     read_eq := rfl }]

theorem independent_sections : Independent (sections.map Section.place) where
  keys := by decide
  get_set := by simp [sections]
  get_set_of_ne := by simp [sections]
  ext := by
    rintro ⟨_, _, _⟩ ⟨_, _, _⟩ same
    simpa [sections] using same

theorem fields_eq : fields true = (sections.map Section.place).map Setting.field := rfl

def settings : List (Setting Config) :=
  sections.flatMap fun X => X.settings.map X.place.within

theorem mem_settings_iff {x : Setting Config} :
    x ∈ settings ↔ ∃ X ∈ sections, ∃ y ∈ X.settings, X.place.within y = x := by
  simp [settings]

theorem section_eq_of_key {X Y : Section} (hX : X ∈ sections) (hY : Y ∈ sections)
    (same : X.place.key = Y.place.key) : X = Y := by
  have keys : (sections.map fun X => X.place.key).Nodup := by decide
  exact List.inj_on_of_nodup_map keys hX hY same

theorem independent_settings : Independent settings where
  keys := by decide +kernel
  get_set := by
    intro x hx s a
    obtain ⟨X, hX, y, hy, rfl⟩ := mem_settings_iff.mp hx
    have place := independent_sections.get_set X.place (List.mem_map_of_mem hX)
    simp only [Setting.within] at a ⊢
    rw [place, X.independent.get_set y hy]
  get_set_of_ne := by
    intro x hx x' hx' ne s a
    obtain ⟨X, hX, y, hy, rfl⟩ := mem_settings_iff.mp hx
    obtain ⟨Z, hZ, z, hz, rfl⟩ := mem_settings_iff.mp hx'
    simp only [Setting.within] at a ne ⊢
    by_cases same : X.place.key = Z.place.key
    · obtain rfl := section_eq_of_key hX hZ same
      have apart : y.key ≠ z.key := fun equal => ne (by rw [equal])
      rw [independent_sections.get_set X.place (List.mem_map_of_mem hX),
        X.independent.get_set_of_ne y hy z hz apart]
    · rw [independent_sections.get_set_of_ne X.place (List.mem_map_of_mem hX) Z.place
        (List.mem_map_of_mem hZ) same]
  ext := by
    intro s t same
    refine independent_sections.ext s t (List.forall_mem_map.mpr fun X hX => ?_)
    refine X.independent.ext _ _ fun y hy => ?_
    exact same (X.place.within y) (mem_settings_iff.mpr ⟨X, hX, y, hy, rfl⟩)

end Config

end ReleaseSearch
