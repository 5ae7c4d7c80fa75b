import ReleaseSearch.Data

/-! Choices. A choice is written as its name, or as a table of one member: the name, and what the
choice carries. -/
namespace ReleaseSearch.Data

/-- Reads a choice as its name and what it carries. -/
def readChoice : Data → Except Fault (String × Option Data)
  | .text (some name) => .ok (name, none)
  | .table [(some name, d)] true => .ok (name, some d)
  | .table _ false => .error .malformed
  | .table _ true => .error .mismatch
  | d => .error d.refusal

/-- A choice that carries nothing may carry null. -/
def readNothing : Option Data → Except Fault Unit
  | none => .ok ()
  | some .null => .ok ()
  | some d => .error d.refusal

end ReleaseSearch.Data
