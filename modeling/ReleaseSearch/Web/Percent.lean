import ReleaseSearch.Text.Digits
import ReleaseSearch.Text.Utf8

/-! Percent-encoding, in paths and in form data. -/
namespace ReleaseSearch.Web.Percent

def hexByte? (high low : UInt8) : Option UInt8 := do
  let a ← Text.hexValue? (Char.ofNat high.toNat)
  let b ← Text.hexValue? (Char.ofNat low.toNat)
  return UInt8.ofNat (a * 16 + b)

/-- A percent sign and two hexadecimal digits are a byte, all else stands for itself. -/
def decodeBytes : List UInt8 → List UInt8
  | b :: high :: low :: rest =>
    match if b = 0x25 then hexByte? high low else none with
    | some byte => byte :: decodeBytes rest
    | none => b :: decodeBytes (high :: low :: rest)
  | bytes => bytes

/-- The text of a path segment, if it is one. -/
def decodeSegment? (segment : String) : Option String :=
  Text.Utf8.decode? (decodeBytes (Text.Utf8.encode segment))

/-- A name or a value in form data: a plus sign is a space, and ill-formed bytes are replaced. -/
def decodeFormPart (part : List Char) : String :=
  let plain := part.map fun c => if c = '+' then ' ' else c
  Text.Utf8.decodeLossy (decodeBytes (Text.Utf8.encode (String.ofList plain)))

end ReleaseSearch.Web.Percent
