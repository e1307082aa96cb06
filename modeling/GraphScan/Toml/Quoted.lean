import GraphScan.Toml.Scalar

/-!
# Quoted text

TOML has four kinds of quoted text: basic text with escapes and literal text without, each on one
line or on several.  Every reader here starts behind the opening quotes and gives the text with what
follows the closing quotes.

* Control characters other than the tab never stand in quotes; line ends do, in text of several
  lines, and are kept as they are.
* A line end right behind the opening quotes is dropped, and a backslash at the end of a line drops
  all blanks and line ends up to the next visible character.
* Up to two quotes may stand directly before the closing ones.
-/

namespace GraphScan

namespace Toml

namespace Quoted

/-- The characters that may stand in quotes and comments. -/
def isTextChar (c : Char) : Bool :=
  c == '\t' || (' ' ≤ c && c.toNat ≠ 0x7f)

def isBlank (c : Char) : Bool :=
  c == ' ' || c == '\t'

/-! ## Escapes -/

/-- The character of a code point written with `count` hexadecimal digits, if it is one, and the
number of characters read. -/
def codePoint? (count : Nat) (text : List Char) : Option (Char × Nat) :=
  let digits := text.take count
  let n := Scalar.valueOf 16 digits
  if digits.length = count ∧ digits.all Scalar.isHex ∧ n.isValidChar then
    some (Char.ofNat n, count + 1)
  else none

/-- **The character of an escape**, and how many characters it takes behind the backslash. -/
def escape? : List Char → Option (Char × Nat)
  | '"' :: _ => some ('"', 1)
  | '\\' :: _ => some ('\\', 1)
  | 'b' :: _ => some ('\x08', 1)
  | 'e' :: _ => some ('\x1b', 1)
  | 'f' :: _ => some ('\x0c', 1)
  | 'n' :: _ => some ('\n', 1)
  | 'r' :: _ => some ('\r', 1)
  | 't' :: _ => some ('\t', 1)
  | 'x' :: rest => codePoint? 2 rest
  | 'u' :: rest => codePoint? 4 rest
  | 'U' :: rest => codePoint? 8 rest
  | _ => none

/-! ## Text on one line -/

def basic (text : List Char) : Option (List Char × List Char) :=
  match text with
  | [] => none
  | '"' :: rest => some ([], rest)
  | '\\' :: rest => do
    let (c, length) ← escape? rest
    let (body, rest) ← basic (rest.drop length)
    some (c :: body, rest)
  | c :: rest =>
    if isTextChar c then do
      let (body, rest) ← basic rest
      some (c :: body, rest)
    else none
termination_by text.length
decreasing_by all_goals simp only [List.length_drop, List.length_cons]; omega

def literal : List Char → Option (List Char × List Char)
  | [] => none
  | '\'' :: rest => some ([], rest)
  | c :: rest =>
    if isTextChar c then do
      let (body, rest) ← literal rest
      some (c :: body, rest)
    else none

/-! ## Text on several lines -/

def dropLineEnd : List Char → List Char
  | '\n' :: rest => rest
  | '\r' :: '\n' :: rest => rest
  | text => text

/-- The length of the blanks and line ends at the front. -/
def blankLength : List Char → Nat
  | '\n' :: rest => blankLength rest + 1
  | '\r' :: '\n' :: rest => blankLength rest + 2
  | c :: rest => if isBlank c then blankLength rest + 1 else 0
  | [] => 0

/-- Whether a line ends behind nothing but blanks. -/
def endsLine (text : List Char) : Bool :=
  match text.dropWhile isBlank with
  | '\n' :: _ => true
  | '\r' :: '\n' :: _ => true
  | _ => false

/-- The quotes that a text closes with: those that belong to it, and the rest behind all. -/
def closing? (quote : Char) (text : List Char) : Option (List Char × List Char) :=
  let count := min (text.takeWhile (· == quote)).length 5
  if 3 ≤ count then some (List.replicate (count - 3) quote, text.drop count) else none

def basicLines (text : List Char) : Option (List Char × List Char) :=
  match closing? '"' text with
  | some closed => some closed
  | none =>
    match text with
    | [] => none
    | '\\' :: rest =>
      if endsLine rest then basicLines (rest.drop (blankLength rest))
      else do
        let (c, length) ← escape? rest
        let (body, rest) ← basicLines (rest.drop length)
        some (c :: body, rest)
    | '\r' :: '\n' :: rest => do
      let (body, rest) ← basicLines rest
      some ('\r' :: '\n' :: body, rest)
    | c :: rest =>
      if isTextChar c || c == '\n' then do
        let (body, rest) ← basicLines rest
        some (c :: body, rest)
      else none
termination_by text.length
decreasing_by all_goals simp only [List.length_drop, List.length_cons]; omega

def literalLines (text : List Char) : Option (List Char × List Char) :=
  match closing? '\'' text with
  | some closed => some closed
  | none =>
    match text with
    | [] => none
    | '\r' :: '\n' :: rest => do
      let (body, rest) ← literalLines rest
      some ('\r' :: '\n' :: body, rest)
    | c :: rest =>
      if isTextChar c || c == '\n' then do
        let (body, rest) ← literalLines rest
        some (c :: body, rest)
      else none
termination_by text.length

/-! ## All four -/

/-- **Quoted text**, with its opening quotes. -/
def read : List Char → Option (String × List Char)
  | '"' :: '"' :: '"' :: rest => (basicLines (dropLineEnd rest)).map fun (s, r) => (.ofList s, r)
  | '"' :: rest => (basic rest).map fun (s, r) => (.ofList s, r)
  | '\'' :: '\'' :: '\'' :: rest =>
    (literalLines (dropLineEnd rest)).map fun (s, r) => (.ofList s, r)
  | '\'' :: rest => (literal rest).map fun (s, r) => (.ofList s, r)
  | _ => none

/-- Quoted text that may serve as a key: on one line. -/
def readKey : List Char → Option (String × List Char)
  | '"' :: rest => (basic rest).map fun (s, r) => (.ofList s, r)
  | '\'' :: rest => (literal rest).map fun (s, r) => (.ofList s, r)
  | _ => none

end Quoted

end Toml

end GraphScan
