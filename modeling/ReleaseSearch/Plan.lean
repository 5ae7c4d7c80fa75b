/-! Release search plans: the ordered queries for one book. -/
namespace ReleaseSearch

/-- One free-text query, for the languages it stands for. -/
structure Variant where
  query : String
  title : String
  languages : Option (List String)
deriving DecidableEq

/-- A title and the languages that share it. -/
structure TitleGroup where
  title : String
  languages : Option (List String)
deriving DecidableEq

/-- How the free-text part of a plan is walked. -/
inductive Strategy where
  /-- One query for each variant. -/
  | expanded
  /-- One query for each distinct title. -/
  | reduced
deriving DecidableEq

/-- A query as it is sent. -/
structure Query where
  query : String
  languages : Option (List String)
deriving DecidableEq

structure Plan where
  /-- The order of preference; absent when the search is not restricted. -/
  languages : Option (List String)
  /-- Identifier queries, which are tried first. -/
  isbnCandidates : List String
  manualQuery : Option String := none
  /-- The author that every derived query names. -/
  author : Option String := none
  titleVariants : List Variant
  groupedTitleVariants : List TitleGroup
deriving DecidableEq

/-- The title, a space and the author; the title alone when no author is named. -/
def composeQuery (title : String) (author : Option String) : String :=
  match author with
  | some author => if author = "" then title else title ++ " " ++ author
  | none => title

def Variant.ofTitle (title : String) (author : Option String)
    (languages : Option (List String)) : Variant :=
  ⟨composeQuery title author, title, languages⟩

namespace Strategy

/-- The strategy of a caller that names none. -/
def standard : Strategy := .expanded

end Strategy

namespace Plan

def isManual (p : Plan) : Bool := p.manualQuery.isSome

def textQueries (p : Plan) : Strategy → List Query
  | .expanded => p.titleVariants.map fun v => ⟨v.query, v.languages⟩
  | .reduced => p.groupedTitleVariants.map fun g => ⟨composeQuery g.title p.author, g.languages⟩

/-- How many searches a caller makes. -/
def callCount (p : Plan) (strategy : Strategy) : Nat :=
  p.isbnCandidates.length + match strategy with
    | .expanded => p.titleVariants.length
    | .reduced => p.groupedTitleVariants.length

/-- Adds the languages of a variant to those of its group. Without tags on either side nothing is
added. -/
def mergeLanguages (group variant : Option (List String)) : Option (List String) :=
  match group, variant with
  | some merged, some more =>
    some (more.foldl (fun codes code => if codes.contains code then codes else codes ++ [code])
      merged)
  | group, _ => group

/-- Puts a variant into the group of its title, or behind the groups as a new one. -/
def addToGroups (v : Variant) : List TitleGroup → List TitleGroup
  | [] => [⟨v.title, v.languages⟩]
  | group :: rest =>
    if group.title = v.title then
      ⟨group.title, mergeLanguages group.languages v.languages⟩ :: rest
    else group :: addToGroups v rest

/-- One group for each title, in the order in which the titles come first. -/
def groupVariants (variants : List Variant) : List TitleGroup :=
  variants.foldl (fun groups v => addToGroups v groups) []

end Plan

end ReleaseSearch
