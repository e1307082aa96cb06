import GraphScan.Toml.Item

/-!
# Bare scalars

A value that is written without quotes or brackets is a truth value, an integer, a number with a
fraction or an exponent, or a date or time.  `Scalar.read` decides which, from the whole text.

* Digits may be grouped by single underscores between them.
* A decimal integer has no leading zeros; hexadecimal, octal and binary ones have no sign.
* A date has to exist, and a time may leave out its seconds.
* The form of an integer is checked more loosely than its value.  A base without digits is the form
  of an integer, and so are grouped digits with something else behind the first group; such an
  integer has no value, and is refused only where one is asked for.
-/

namespace GraphScan

namespace Toml

namespace Scalar

/-! ## Digits -/

def isOctal (c : Char) : Bool :=
  '0' ≤ c && c ≤ '7'

def isBinary (c : Char) : Bool :=
  c == '0' || c == '1'

def isHex (c : Char) : Bool :=
  c.isDigit || ('a' ≤ c && c ≤ 'f') || ('A' ≤ c && c ≤ 'F')

def digitValue (c : Char) : Nat :=
  if c.isDigit then c.toNat - '0'.toNat
  else if 'a' ≤ c then c.toNat - 'a'.toNat + 10
  else c.toNat - 'A'.toNat + 10

def valueOf (base : Nat) (digits : List Char) : Nat :=
  digits.foldl (fun n c => n * base + digitValue c) 0

/-- **The digits of a text without the underscores that group them.**  Each underscore has to stand
between two digits. -/
def ungroup (isDigit : Char → Bool) : List Char → Option (List Char)
  | [] => none
  | [c] => if isDigit c then some [c] else none
  | c :: '_' :: rest => if isDigit c then (ungroup isDigit rest).map (c :: ·) else none
  | c :: rest => if isDigit c then (ungroup isDigit rest).map (c :: ·) else none

/-- The digits of a decimal integer without sign: no leading zeros. -/
def decimal (text : List Char) : Option (List Char) := do
  let digits ← ungroup Char.isDigit text
  if digits.head? = some '0' ∧ digits.length ≠ 1 then none else some digits

/-- A text without its sign, and whether that was a minus. -/
def splitSign : List Char → Bool × List Char
  | '+' :: rest => (false, rest)
  | '-' :: rest => (true, rest)
  | text => (false, text)

/-! ## Integers -/

/-- Whether every underscore stands directly between two digits, be they hexadecimal;
`afterDigit` tells whether a digit stands before the text. -/
def isGrouped (afterDigit : Bool) : List Char → Bool
  | [] => true
  | '_' :: rest => afterDigit && rest.head?.any isHex && isGrouped false rest
  | c :: rest => isGrouped (isHex c) rest

/-- Whether a text has the form of grouped decimal digits.  Behind the first underscore anything may
stand, but not a space or what would make it a number with a fraction or an exponent. -/
def isLooselyGrouped (text : List Char) : Bool :=
  let first := text.takeWhile Char.isDigit
  let rest := text.drop first.length
  first.head?.any (· != '0') && rest.head? == some '_' && isGrouped false text &&
    rest.all fun c => c != ' ' && c != '.' && c != 'e' && c != 'E'

/-- The value of digits in a base behind its mark; without digits there is none. -/
def based (base : Nat) (isDigit : Char → Bool) (digits : List Char) : Option (Option Int) :=
  if digits.isEmpty then some none
  else (ungroup isDigit digits).map fun ds => some (valueOf base ds : Int)

/-- **An integer**, and its value if it has one. -/
def integer? : List Char → Option (Option Int)
  | '0' :: 'x' :: digits => based 16 isHex digits
  | '0' :: 'o' :: digits => based 8 isOctal digits
  | '0' :: 'b' :: digits => based 2 isBinary digits
  | text =>
    let (negative, digits) := splitSign text
    match decimal digits with
    | some ds =>
      let n := valueOf 10 ds
      some (some (if negative then -(n : Int) else n))
    | none => if isLooselyGrouped digits then some none else none

/-! ## Numbers with a fraction or an exponent -/

def isExponent : List Char → Bool
  | 'e' :: rest | 'E' :: rest => (ungroup Char.isDigit (splitSign rest).2).isSome
  | _ => false

/-- What follows the whole part: a fraction, an exponent, or both. -/
def isFraction : List Char → Bool
  | '.' :: rest =>
    let digits := rest.takeWhile fun c => c.isDigit || c == '_'
    let exponent := rest.drop digits.length
    (ungroup Char.isDigit digits).isSome && (exponent.isEmpty || isExponent exponent)
  | rest => isExponent rest

/-- **A number with a fraction or an exponent**, an infinity, or no number. -/
def isFloat (text : List Char) : Bool :=
  let unsigned := (splitSign text).2
  if unsigned = ['i', 'n', 'f'] ∨ unsigned = ['n', 'a', 'n'] then true
  else
    let whole := unsigned.takeWhile fun c => c.isDigit || c == '_'
    (decimal whole).isSome && isFraction (unsigned.drop whole.length)

/-! ## Dates and times -/

/-- A number of exactly `count` digits at the front, and the rest. -/
def digits? (count : Nat) (text : List Char) : Option (Nat × List Char) :=
  let digits := text.take count
  if digits.length = count ∧ digits.all Char.isDigit then
    some (valueOf 10 digits, text.drop count)
  else none

/-- The rest of a text after a given character. -/
def after? (c : Char) : List Char → Option (List Char)
  | d :: rest => if d = c then some rest else none
  | [] => none

def daysIn (year month : Nat) : Nat :=
  if month = 2 then
    if year % 4 = 0 ∧ (year % 100 ≠ 0 ∨ year % 400 = 0) then 29 else 28
  else if month = 4 ∨ month = 6 ∨ month = 9 ∨ month = 11 then 30
  else 31

/-- The rest of a text after a date that exists. -/
def date? (text : List Char) : Option (List Char) := do
  let (year, rest) ← digits? 4 text
  let (month, rest) ← digits? 2 (← after? '-' rest)
  let (day, rest) ← digits? 2 (← after? '-' rest)
  if 1 ≤ month ∧ month ≤ 12 ∧ 1 ≤ day ∧ day ≤ daysIn year month then some rest else none

/-- The rest of a text after the fraction of a second, if there is one. -/
def subseconds? : List Char → Option (List Char)
  | '.' :: rest =>
    let digits := rest.takeWhile Char.isDigit
    if digits.isEmpty then none else some (rest.drop digits.length)
  | text => some text

/-- The rest of a text after the seconds of a time, if there are any. -/
def seconds? : List Char → Option (List Char)
  | ':' :: rest => do
    let (second, rest) ← digits? 2 rest
    if second ≤ 60 then subseconds? rest else none
  | text => some text

/-- Hours and minutes at the front, and the rest. -/
def clock? (text : List Char) : Option (List Char) := do
  let (hour, rest) ← digits? 2 text
  let (minute, rest) ← digits? 2 (← after? ':' rest)
  if hour ≤ 23 ∧ minute ≤ 59 then some rest else none

def time? (text : List Char) : Option (List Char) := do
  seconds? (← clock? text)

/-- Whether a text is an offset from universal time, or empty. -/
def isOffset : List Char → Bool
  | [] | ['Z'] | ['z'] => true
  | '+' :: rest | '-' :: rest => clock? rest == some []
  | _ => false

/-- **A date, a time, or both.** -/
def isDateTime (text : List Char) : Bool :=
  match date? text with
  | some [] => true
  | some (mark :: rest) =>
    (mark == 'T' || mark == 't' || mark == ' ') && ((time? rest).map isOffset).getD false
  | none => time? text == some []

/-! ## All scalars -/

/-- **The item that a bare text stands for.** -/
def read (text : List Char) : Option Item :=
  if text = ['t', 'r', 'u', 'e'] then some (.boolean true)
  else if text = ['f', 'a', 'l', 's', 'e'] then some (.boolean false)
  else match integer? text with
    | some value => some (.integer value)
    | none =>
      if isFloat text then some (.float (String.ofList text))
      else if isDateTime text then some (.dateTime (String.ofList text))
      else none

end Scalar

end Toml

end GraphScan
