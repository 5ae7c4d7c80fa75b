import ReleaseSearch.Text.Digits
import ReleaseSearch.Text.Split

/-! Network addresses and their texts. -/
namespace ReleaseSearch

inductive IpAddress where
  | v4 (a b c d : UInt8)
  /-- Eight groups of sixteen bits. -/
  | v6 (groups : Vector UInt16 8)
deriving DecidableEq

namespace IpAddress

open Text

/-- Up to three digits without a needless zero in front, at most 255. -/
def octet? (cs : List Char) : Option (UInt8 × List Char) :=
  let digits := cs.takeWhile Char.isDigit
  let value := ofDigits 10 digits
  if digits.isEmpty || 3 < digits.length || 255 < value ||
      (1 < digits.length && digits.head? == some '0') then none
  else some (UInt8.ofNat value, cs.dropWhile Char.isDigit)

/-- Four octets with periods between them. -/
def v4? (cs : List Char) : Option ((UInt8 × UInt8 × UInt8 × UInt8) × List Char) := do
  let (a, rest) ← octet? cs
  let (b, rest) ← octet? (← after? '.' rest)
  let (c, rest) ← octet? (← after? '.' rest)
  let (d, rest) ← octet? (← after? '.' rest)
  return ((a, b, c, d), rest)

/-- One to four hexadecimal digits. -/
def group? (cs : List Char) : Option (UInt16 × List Char) :=
  let digits := cs.takeWhile isHexDigit
  if digits.isEmpty || 4 < digits.length then none
  else some (UInt16.ofNat (ofDigits 16 digits),
    cs.dropWhile isHexDigit)

/-- Two octets as a group. -/
def joinOctets (high low : UInt8) : UInt16 := UInt16.ofNat (high.toNat * 256 + low.toNat)

/-- Reads up to `room` groups with colons between them. The last two may be written as a dotted
address; whether they are is the second part of the answer. -/
def groups : (room : Nat) → (first : Bool) → List Char → List UInt16 × Bool × List Char
  | 0, _, cs => ([], false, cs)
  | room + 1, first, cs =>
    match if first then some cs else after? ':' cs with
    | none => ([], false, cs)
    | some rest =>
      match if room = 0 then none else v4? rest with
      | some ((a, b, c, d), rest) => ([joinOctets a b, joinOctets c d], true, rest)
      | none =>
        match group? rest with
        | some (g, rest) =>
          let (more, dotted, rest) := groups room false rest
          (g :: more, dotted, rest)
        | none => ([], false, cs)

/-- Eight groups, or fewer with a double colon in the place of one or more groups of zeros. -/
def v6? (cs : List Char) : Option (List UInt16 × List Char) := do
  let (head, dotted, rest) := groups 8 true cs
  if head.length = 8 then return (head, rest)
  else if dotted then none
  else
    let (tail, _, rest) := groups (7 - head.length) true (← after? ':' (← after? ':' rest))
    return (head ++ List.replicate (8 - head.length - tail.length) 0 ++ tail, rest)

def ofText? (s : String) : Option IpAddress :=
  match v4? s.toList with
  | some ((a, b, c, d), rest) => if rest.isEmpty then some (.v4 a b c d) else none
  | none =>
    match v6? s.toList with
    | some (groups, []) =>
      if h : groups.length = 8 then some (.v6 ⟨groups.toArray, by simpa using h⟩) else none
    | _ => none

def dotted (a b c d : Nat) : String :=
  ".".intercalate ([a, b, c, d].map fun n => String.ofList (Nat.toDigits 10 n))

def hexGroups (groups : List UInt16) : String :=
  ":".intercalate (groups.map fun g => String.ofList (Nat.toDigits 16 g.toNat))

/-- Where the longest run of zeros starts, and its length. Of equal runs the first counts. -/
def longestZeros (groups : List UInt16) : Nat × Nat :=
  (List.range groups.length).foldl (fun best start =>
    let length := ((groups.drop start).takeWhile (· == 0)).length
    if best.2 < length then (start, length) else best) (0, 0)

/-- The shortest customary text: small letters, the longest run of two or more zeros as a double
colon, and addresses that embed a dotted one with that one in its own form. -/
def render : IpAddress → String
  | .v4 a b c d => dotted a.toNat b.toNat c.toNat d.toNat
  | .v6 groups =>
    match groups.toList with
    | [0, 0, 0, 0, 0, 0xFFFF, high, low] =>
      "::ffff:" ++
        dotted (high.toNat / 256) (high.toNat % 256) (low.toNat / 256) (low.toNat % 256)
    | groups =>
      let (start, length) := longestZeros groups
      if 1 < length then
        hexGroups (groups.take start) ++ "::" ++ hexGroups (groups.drop (start + length))
      else hexGroups groups

end IpAddress

end ReleaseSearch
