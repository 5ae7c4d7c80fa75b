/-! UTF-8. -/
namespace ReleaseSearch.Text.Utf8

/-- The bytes of a text. -/
def encode (s : String) : List UInt8 := s.toList.flatMap String.utf8EncodeChar

/-- The characters that the first `n` bytes of a text hold, if no character goes beyond these. -/
def takeBytes? : Nat → List Char → Option (List Char)
  | 0, _ => some []
  | _ + 1, [] => some []
  | n + 1, c :: rest =>
    if c.utf8Size ≤ n + 1 then (takeBytes? (n + 1 - c.utf8Size) rest).map (c :: ·) else none

/-- What a decoder waits for. -/
inductive State where
  /-- The first byte of a character. -/
  | first
  /-- `count + 1` more bytes, the next of them between `low` and `high`; `value` holds the bits of
  those that have come. -/
  | more (count value : Nat) (low high : UInt8)

/-- What a first byte begins: a character, a part that is ill formed, or a longer sequence. The next
byte is narrowed where overlong forms, surrogates and values above the last character start. -/
def begin (b : UInt8) : List (Option Char) × State :=
  if b < 0x80 then ([some (Char.ofNat b.toNat)], .first)
  else if b < 0xC2 then ([none], .first)
  else if b < 0xE0 then ([], .more 0 (b.toNat - 0xC0) 0x80 0xBF)
  else if b < 0xF0 then
    ([], .more 1 (b.toNat - 0xE0)
      (if b = 0xE0 then 0xA0 else 0x80) (if b = 0xED then 0x9F else 0xBF))
  else if b < 0xF5 then
    ([], .more 2 (b.toNat - 0xF0)
      (if b = 0xF0 then 0x90 else 0x80) (if b = 0xF4 then 0x8F else 0xBF))
  else ([none], .first)

/-- A byte that does not continue a sequence ends it as ill formed and begins anew. -/
def step : State → UInt8 → List (Option Char) × State
  | .first, b => begin b
  | .more count value low high, b =>
    if low ≤ b && b ≤ high then
      let value := value * 64 + (b.toNat - 0x80)
      match count with
      | 0 => ([some (Char.ofNat value)], .first)
      | count + 1 => ([], .more count value 0x80 0xBF)
    else
      let (out, state) := begin b
      (none :: out, state)

def decodeFrom : State → List UInt8 → List (Option Char)
  | .first, [] => []
  | .more .., [] => [none]
  | state, b :: rest =>
    let (out, state) := step state b
    out ++ decodeFrom state rest

/-- The characters, and nothing for each longest part that is ill formed. -/
def decodeParts (bytes : List UInt8) : List (Option Char) := decodeFrom .first bytes

/-- The text, if all of it is well formed. -/
def decode? (bytes : List UInt8) : Option String :=
  ((decodeParts bytes).mapM id).map String.ofList

/-- The text, with a replacement character for each part that is ill formed. -/
def decodeLossy (bytes : List UInt8) : String :=
  String.ofList ((decodeParts bytes).map (·.getD '\ufffd'))

end ReleaseSearch.Text.Utf8
