import ReleaseSearch.Config.Environment
import ReleaseSearch.Config.Json
import ReleaseSearch.Toml.Reader

/-! Loading a configuration: from a text, or from a file with the environment over it. -/
namespace ReleaseSearch.Config

/-- Reads a table of settings. In a list that stands for a section, surplus items are ignored. That a
text by itself and a file under its environment are decoded by the same rules is an assumption: the
two have decoders of their own, and this stands for both. -/
def ofSettings (settings : Toml.Value) : Except Error Config :=
  match Config.ofData true settings.toData with
  | .ok config => .ok config
  | .error _ => .error .unreadable

/-- Reads TOML text. -/
def ofToml (text : String) : Except Error Config :=
  match Toml.read? text with
  | some table => ofSettings (.table table)
  | none => .error .unreadable

/-- Loads the file at a path, if it exists, and puts the settings of the environment over it. -/
def load (path : String) (file : Option String) (vars : List (String × String)) :
    Except Error Config :=
  match file with
  | none => .error (.fileNotFound path)
  | some text =>
    match Toml.read? text with
    | some table => ofSettings ((Environment.settings vars).overlay (.table table))
    | none => .error .unreadable

end ReleaseSearch.Config
