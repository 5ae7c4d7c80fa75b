import ReleaseSearch.Text.Digits

/-! Blanks, line ends, comments and quoted texts of TOML. -/
namespace ReleaseSearch.Toml

def isSpace (c : Char) : Bool := c == ' ' || c == '\t'

def skipSpace (cs : List Char) : List Char := cs.dropWhile isSpace

/-- The characters that may stand in comments and texts: all but the control characters, the tab
excepted. -/
def isTextChar (c : Char) : Bool := c == '\t' || (0x20 ≤ c.toNat && c.toNat != 0x7F)

/-- What follows a line end, if there is one here. -/
def newline? : List Char → Option (List Char)
  | '\n' :: rest => some rest
  | '\r' :: '\n' :: rest => some rest
  | _ => none

/-- Passes over the rest of a line: blanks, and a comment if there is one. The end of the text ends
a line too. -/
def lineEnd? (inComment : Bool) : List Char → Option (List Char)
  | [] => some []
  | '\n' :: rest => some rest
  | '\r' :: '\n' :: rest => some rest
  | c :: rest =>
    if inComment then if isTextChar c then lineEnd? true rest else none
    else if c == '#' then lineEnd? true rest
    else if isSpace c then lineEnd? false rest
    else none

/-- Passes over blanks, line ends and comments. A comment ends with its line. -/
def skipLines? (inComment : Bool) : List Char → Option (List Char)
  | [] => if inComment then none else some []
  | '\n' :: rest => skipLines? false rest
  | '\r' :: '\n' :: rest => skipLines? false rest
  | c :: rest =>
    if inComment then if isTextChar c then skipLines? true rest else none
    else if c == '#' then skipLines? true rest
    else if isSpace c then skipLines? false rest
    else if c == '\r' then none
    else some (c :: rest)

/-- The character of a one-letter escape. -/
def escaped? : Char → Option Char
  | 'b' => some '\x08'
  | 't' => some '\t'
  | 'n' => some '\n'
  | 'f' => some '\x0c'
  | 'r' => some '\r'
  | '"' => some '"'
  | '\\' => some '\\'
  | _ => none

/-- The character with this hexadecimal number, if there is one. -/
def charOfHex? (digits : List Char) : Option Char :=
  let n := Text.ofDigits 16 digits
  if digits.all Text.isHexDigit && decide n.isValidChar then some (Char.ofNat n) else none

/-- A character in front of what is read of the rest. -/
def consFound (c : Char) (found : Option (List Char × List Char)) :
    Option (List Char × List Char) :=
  found.map fun (text, rest) => (c :: text, rest)

/-- A text on one line, up to its closing quote. -/
def basic? : List Char → Option (List Char × List Char)
  | [] => none
  | '"' :: rest => some ([], rest)
  | '\\' :: 'u' :: a :: b :: c :: d :: rest => do
    consFound (← charOfHex? [a, b, c, d]) (basic? rest)
  | '\\' :: 'U' :: a :: b :: c :: d :: e :: f :: g :: h :: rest => do
    consFound (← charOfHex? [a, b, c, d, e, f, g, h]) (basic? rest)
  | '\\' :: e :: rest => do consFound (← escaped? e) (basic? rest)
  | c :: rest => if c != '\\' && isTextChar c then consFound c (basic? rest) else none

/-- A literal text on one line, up to its closing quote. -/
def literal? : List Char → Option (List Char × List Char)
  | [] => none
  | '\'' :: rest => some ([], rest)
  | c :: rest => if isTextChar c then consFound c (literal? rest) else none

/-- What a backslash at the end of a line makes of the blanks around that line end. -/
inductive Fold where
  /-- The text goes on. -/
  | text
  /-- Behind the backslash: only blanks up to the line end. -/
  | seek
  /-- Behind the line end: blanks and line ends are dropped. -/
  | drop
deriving DecidableEq

/-- A text on several lines, up to its three closing quotes. One or two more quotes in front of
these belong to the text. -/
def multiBasic? (fold : Fold) : List Char → Option (List Char × List Char)
  | [] => none
  | '\r' :: '\n' :: rest =>
    if fold = .text then consFound '\n' (multiBasic? .text rest) else multiBasic? .drop rest
  | '\n' :: rest =>
    if fold = .text then consFound '\n' (multiBasic? .text rest) else multiBasic? .drop rest
  | c :: rest =>
    if fold ≠ .text && isSpace c then multiBasic? fold rest
    else if fold = .seek then none
    else match c, rest with
      | '"', '"' :: '"' :: '"' :: '"' :: rest => some (['"', '"'], rest)
      | '"', '"' :: '"' :: '"' :: rest => some (['"'], rest)
      | '"', '"' :: '"' :: rest => some ([], rest)
      | '\\', 'u' :: a :: b :: c :: d :: rest => do
        consFound (← charOfHex? [a, b, c, d]) (multiBasic? .text rest)
      | '\\', 'U' :: a :: b :: c :: d :: e :: f :: g :: h :: rest => do
        consFound (← charOfHex? [a, b, c, d, e, f, g, h]) (multiBasic? .text rest)
      | '\\', '\n' :: rest => multiBasic? .drop rest
      | '\\', '\r' :: '\n' :: rest => multiBasic? .drop rest
      | '\\', e :: rest =>
        if isSpace e then multiBasic? .seek rest
        else do consFound (← escaped? e) (multiBasic? .text rest)
      | c, rest => if c != '\\' && isTextChar c then consFound c (multiBasic? .text rest) else none

/-- A literal text on several lines, up to its three closing quotes. -/
def multiLiteral? : List Char → Option (List Char × List Char)
  | [] => none
  | '\'' :: '\'' :: '\'' :: '\'' :: '\'' :: rest => some (['\'', '\''], rest)
  | '\'' :: '\'' :: '\'' :: '\'' :: rest => some (['\''], rest)
  | '\'' :: '\'' :: '\'' :: rest => some ([], rest)
  | '\r' :: '\n' :: rest => consFound '\n' (multiLiteral? rest)
  | '\n' :: rest => consFound '\n' (multiLiteral? rest)
  | c :: rest => if isTextChar c then consFound c (multiLiteral? rest) else none

/-- A line end right behind the opening quotes does not count. -/
def dropNewline (cs : List Char) : List Char := (newline? cs).getD cs

/-- A quoted text of any kind. -/
def quoted? : List Char → Option (List Char × List Char)
  | '"' :: '"' :: '"' :: rest => multiBasic? .text (dropNewline rest)
  | '\'' :: '\'' :: '\'' :: rest => multiLiteral? (dropNewline rest)
  | '"' :: rest => basic? rest
  | '\'' :: rest => literal? rest
  | _ => none

end ReleaseSearch.Toml
