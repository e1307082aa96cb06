import GraphScan.Text.Invisible
import GraphScan.Text.Extender

/-!
# Quoted text

Text in a diagnostic stands between double quotes, and whatever a reader could not see or tell
apart is written as an escape: the quote, the backslash, line breaks and tabs by one letter, other
characters without a visible form of their own by their code point.
-/

namespace GraphScan

namespace Text

def hexDigits (n : Nat) : List Char :=
  Nat.toDigits 16 n

/-- **One character inside quotes.**  An apostrophe needs no escape there. -/
def escapeChar (c : Char) : List Char :=
  match c with
  | '\x00' => ['\\', '0']
  | '\t' => ['\\', 't']
  | '\r' => ['\\', 'r']
  | '\n' => ['\\', 'n']
  | '"' => ['\\', '"']
  | '\\' => ['\\', '\\']
  | _ =>
    if isExtender c || isInvisible c then
      '\\' :: 'u' :: '\x7b' :: hexDigits c.toNat ++ ['\x7d']
    else [c]

/-- **Text between double quotes**, with escapes. -/
def quoted (s : String) : String :=
  String.ofList ('"' :: s.toList.flatMap escapeChar ++ ['"'])

end Text

end GraphScan
