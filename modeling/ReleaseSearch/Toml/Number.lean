import ReleaseSearch.Numeral
import ReleaseSearch.Text.Digits
import ReleaseSearch.Text.Split
import ReleaseSearch.Toml.Value

/-! Numbers, dates and times of TOML. -/
namespace ReleaseSearch.Toml

/-- Digits behind the first one. A single underscore may stand between two digits. -/
def moreDigits (digit : Char → Bool) : List Char → List Char × List Char
  | [] => ([], [])
  | '_' :: c :: rest =>
    if digit c then
      let (more, rest) := moreDigits digit rest
      (c :: more, rest)
    else ([], '_' :: c :: rest)
  | c :: rest =>
    if digit c then
      let (more, rest) := moreDigits digit rest
      (c :: more, rest)
    else ([], c :: rest)

/-- One or more digits. -/
def digits? (digit : Char → Bool) : List Char → Option (List Char × List Char)
  | c :: rest =>
    if digit c then
      let (more, rest) := moreDigits digit rest
      some (c :: more, rest)
    else none
  | [] => none

/-- Whether there is a minus sign, and what follows the sign. -/
def sign : List Char → Bool × List Char
  | '-' :: rest => (true, rest)
  | '+' :: rest => (false, rest)
  | rest => (false, rest)

/-- Decimal digits without a needless zero in front. -/
def decimal? : List Char → Option (List Char × List Char)
  | '0' :: rest => some (['0'], rest)
  | cs => digits? Char.isDigit cs

/-- Integers have 64 bits. -/
def inRange (n : Int) : Bool := -0x8000000000000000 ≤ n && n < 0x8000000000000000

/-- An integer in another base, which a letter behind a zero names. -/
def based? : List Char → Option (Int × List Char)
  | '0' :: 'x' :: rest => read 16 Text.isHexDigit rest
  | '0' :: 'o' :: rest => read 8 (fun c => '0' ≤ c && c ≤ '7') rest
  | '0' :: 'b' :: rest => read 2 (fun c => c == '0' || c == '1') rest
  | _ => none
where
  read (base : Nat) (digit : Char → Bool) (cs : List Char) : Option (Int × List Char) :=
    (digits? digit cs).map fun (digits, rest) => (Text.ofDigits base digits, rest)

def integer? (cs : List Char) : Option (Value × List Char) := do
  let (n, rest) ← (based? cs).or do
    let (negative, rest) := sign cs
    let (digits, rest) ← decimal? rest
    let n : Int := Text.ofDigits 10 digits
    return (if negative then -n else n, rest)
  if inRange n then return (.integer n, rest) else none

/-- What has been read to get from one rest of the text to the next. -/
def written (cs rest : List Char) : String := String.ofList (cs.take (cs.length - rest.length))

/-- A fraction, an exponent or both. -/
def fractionAndExponent? (cs : List Char) : Option (List Char × Option Int × List Char) :=
  match cs with
  | '.' :: rest => do
    let (fraction, rest) ← digits? Char.isDigit rest
    match exponent? rest with
    | some (n, rest) => return (fraction, some n, rest)
    | none => return (fraction, none, rest)
  | _ => do
    let (n, rest) ← exponent? cs
    return ([], some n, rest)
where
  exponent? : List Char → Option (Int × List Char)
    | c :: rest =>
      if c == 'e' || c == 'E' then do
        let (negative, rest) := sign rest
        let (digits, rest) ← digits? Char.isDigit rest
        let n : Int := Text.ofDigits 10 digits
        return (if negative then -n else n, rest)
      else none
    | [] => none

/-- Infinity or no number, behind the sign. -/
def special? : List Char → Option (List Char)
  | 'i' :: 'n' :: 'f' :: rest => some rest
  | 'n' :: 'a' :: 'n' :: rest => some rest
  | _ => none

/-- A float. One that is too large is refused, unless it is negative. -/
def float? (cs : List Char) : Option (Value × List Char) :=
  let (negative, unsigned) := sign cs
  match special? unsigned with
  | some rest => some (.float (written cs rest), rest)
  | none => do
    let (whole, rest) ← decimal? unsigned
    let (fraction, exponent, rest) ← fractionAndExponent? rest
    let n : Numeral :=
      ⟨negative, Text.ofDigits 10 (whole ++ fraction), exponent.getD 0 - fraction.length, false⟩
    if negative || n.inRange then return (.float (written cs rest), rest) else none

/-- A number of exactly so many digits, within bounds. -/
def field? (size low high : Nat) (cs : List Char) : Option (Nat × List Char) :=
  let digits := cs.take size
  let n := Text.ofDigits 10 digits
  if digits.length == size && digits.all Char.isDigit && low ≤ n && n ≤ high then
    some (n, cs.drop size)
  else none

def daysIn (year month : Nat) : Nat :=
  if month = 2 then
    if year % 4 = 0 && (year % 100 != 0 || year % 400 = 0) then 29 else 28
  else if [4, 6, 9, 11].contains month then 30
  else 31

/-- Passes over a date of the calendar. -/
def date? (cs : List Char) : Option (List Char) := do
  let (year, rest) ← field? 4 0 9999 cs
  let (month, rest) ← field? 2 1 12 (← Text.after? '-' rest)
  let (_, rest) ← field? 2 1 (daysIn year month) (← Text.after? '-' rest)
  return rest

/-- Passes over a time of the day. A minute may have a leap second. -/
def time? (cs : List Char) : Option (List Char) := do
  let (_, rest) ← field? 2 0 23 cs
  let (_, rest) ← field? 2 0 59 (← Text.after? ':' rest)
  let (_, rest) ← field? 2 0 60 (← Text.after? ':' rest)
  match rest with
  | '.' :: rest =>
    if rest.head?.any Char.isDigit then return rest.dropWhile Char.isDigit else none
  | rest => return rest

/-- Passes over the distance from universal time, if there is one. -/
def offset (cs : List Char) : List Char :=
  match cs with
  | 'Z' :: rest => rest
  | 'z' :: rest => rest
  | '+' :: rest => (hours? rest).getD cs
  | '-' :: rest => (hours? rest).getD cs
  | _ => cs
where
  hours? (cs : List Char) : Option (List Char) := do
    let (_, rest) ← field? 2 0 23 cs
    let (_, rest) ← field? 2 0 59 (← Text.after? ':' rest)
    return rest

/-- A date, a time, or both with a letter or a space between them. -/
def dateTime? (cs : List Char) : Option (Value × List Char) :=
  match date? cs with
  | some day =>
    let rest := match day with
      | c :: rest =>
        if c == 'T' || c == 't' || c == ' ' then ((time? rest).map offset).getD day else day
      | [] => day
    some (.dateTime (written cs rest), rest)
  | none => (time? cs).map fun rest => (.dateTime (written cs rest), rest)

end ReleaseSearch.Toml
