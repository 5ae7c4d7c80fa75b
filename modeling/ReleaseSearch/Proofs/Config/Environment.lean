import ReleaseSearch.Config.Environment
import ReleaseSearch.Proofs.Text.Ascii
import ReleaseSearch.Proofs.Text.Padding

/-! The names of environment variables. What a name says is said in letters of either case, and a
name without the marker says nothing. -/
namespace ReleaseSearch

namespace Text

theorem isBlank_toLower (c : Char) : isBlank c.toLower = isBlank c :=
  forall_of_ascii (p := fun c => isBlank c.toLower = isBlank c) (by decide)
    (fun c lower _ => by rw [lower]) c

theorem stripWhile_map {p : Char → Bool} {f : Char → Char} (blind : ∀ c, p (f c) = p c)
    (cs : List Char) : stripWhile p (cs.map f) = (stripWhile p cs).map f := by
  have same : p ∘ f = p := funext blind
  simp [stripWhile, dropEndWhile, List.dropWhile_map, ← List.map_reverse, same]

theorem sameLetters_iff {a b : String} :
    sameLetters a b = true ↔ a.toList.map Char.toLower = b.toList.map Char.toLower := by
  simp [sameLetters]

theorem sameLetters_trim {a b : String} (same : sameLetters a b = true) :
    (trim a).toList.map Char.toLower = (trim b).toList.map Char.toLower := by
  rw [toList_trim, toList_trim, ← stripWhile_map isBlank_toLower, ← stripWhile_map isBlank_toLower,
    sameLetters_iff.mp same]

end Text

namespace Environment

/-- The name begins with the marker, in letters of either case. -/
def Marked (name : String) : Prop :=
  ((Text.trim name).toList.take marker.toList.length).map Char.toLower =
    marker.toList.map Char.toLower

instance : DecidablePred Marked := fun _ => decEq _ _

variable {a b : String}

theorem marked_congr (same : Text.sameLetters a b = true) : Marked a ↔ Marked b := by
  rw [Marked, Marked, List.map_take, List.map_take, Text.sameLetters_trim same]

theorem keys?_congr (same : Text.sameLetters a b = true) : keys? a = keys? b := by
  have letters := Text.sameLetters_trim same
  have capitals : ∀ n, ((Text.trim a).toList.take n).map Char.toUpper =
      ((Text.trim b).toList.take n).map Char.toUpper := by
    intro n
    have upper := congrArg (fun cs => (cs.take n).map Char.toUpper) letters
    simpa only [← List.map_take, Text.map_toUpper_map_toLower] using upper
  have behind : ∀ n, ((Text.trim a).toList.drop n).map Char.toLower =
      ((Text.trim b).toList.drop n).map Char.toLower := by
    intro n
    rw [List.map_drop, List.map_drop, letters]
  simp only [keys?, capitals, behind]

theorem keys?_of_not_marked {name : String} (h : ¬ Marked name) : keys? name = none := by
  have other : ((Text.trim name).toList.take marker.toList.length).map Char.toUpper ≠
      marker.toList := by
    intro capitals
    apply h
    have lower := congrArg (List.map Char.toLower) capitals
    rwa [Text.map_toLower_map_toUpper] at lower
  simp only [keys?, if_neg other]

theorem settings_append_singleton (vars : List (String × String)) (var : String × String) :
    settings (vars ++ [var]) =
      match keys? var.1 with
      | some keys => (nest keys (readValue var.2)).overlay (settings vars)
      | none => settings vars := by
  cases path : keys? var.1 with
  | none => simp [settings, path]
  | some keys => simp [settings, path]

theorem settings_of_not_marked {vars : List (String × String)} (h : ∀ var ∈ vars, ¬ Marked var.1) :
    settings vars = .table [] := by
  induction vars using List.reverseRecOn with
  | nil => rfl
  | append_singleton vars var ih =>
    have here := keys?_of_not_marked (h var (by simp))
    have before := ih fun other member => h other (by simp [member])
    rw [settings_append_singleton, here, before]

end Environment

end ReleaseSearch
