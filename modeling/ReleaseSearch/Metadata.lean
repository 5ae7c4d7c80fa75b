import ReleaseSearch.Data

/-! What can go wrong when metadata are looked up. -/
namespace ReleaseSearch

def Fault.message : Fault → String
  | .malformed => "malformed text"
  | .mismatch => "unexpected shape"

inductive MetadataError where
  /-- No book has this catalog id. -/
  | notFound (id : String)
  /-- The provider could not be reached or did not answer. -/
  | unavailable (reason : String)
  /-- What the provider holds cannot be read. -/
  | unreadable (reason : String)
deriving DecidableEq

def MetadataError.message : MetadataError → String
  | .notFound id => "Book not found: " ++ id
  | .unavailable reason => "Metadata provider unavailable: " ++ reason
  | .unreadable reason => "Failed to parse metadata: " ++ reason

end ReleaseSearch
