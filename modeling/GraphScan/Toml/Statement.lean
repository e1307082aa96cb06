import GraphScan.Toml.Quoted

/-!
# TOML statements

A document is a sequence of statements, one to a line: a header opens a table, an assignment puts
an item under a key.  Reading a statement needs no knowledge of those before it.

* `readItem` — one item, up to `maxNesting` brackets deep.
* `statements` — the statements of a document.

A line end has no meaning within brackets or braces and ends a statement elsewhere; only the parts
of a dotted key have to stand on one line everywhere.
-/

namespace GraphScan

namespace Toml

/-- A dotted key: the keys from the outermost table inwards. -/
abbrev KeyPath := List String

inductive Statement where
  /-- `[a.b]` -/
  | openTable (path : KeyPath)
  /-- `[[a.b]]` -/
  | openElement (path : KeyPath)
  /-- `a.b = item` -/
  | assign (path : KeyPath) (item : Item)

/-! ## Adding to tables -/

/-- **Puts an item under a dotted key.**  The key must be new, and its parents either new or tables
that no header has opened and no braces have closed. -/
def Entries.assign (item : Item) : KeyPath → Entries → Option Entries
  | [], _ => none
  | [key], entries =>
    if (entries.lookup key).isSome then none else some (entries ++ [(key, item)])
  | key :: path, entries =>
    match entries.lookup key with
    | none => do
      let inner ← assign item path []
      some (entries ++ [(key, .table .dotted inner)])
    | some (.table origin inner) =>
      if origin = .dotted ∨ origin = .implicit then do
        let inner ← assign item path inner
        some (Entries.update entries key (.table origin inner))
      else none
    | some _ => none

/-! ## Blanks and comments -/

def skipBlanks (text : List Char) : List Char :=
  text.dropWhile Quoted.isBlank

def skipComment : List Char → List Char
  | '#' :: rest => rest.dropWhile Quoted.isTextChar
  | text => text

/-- A text without blanks, comments and line ends at its front. -/
def skipLines (text : List Char) : List Char :=
  match text with
  | [] => []
  | '\n' :: rest => skipLines rest
  | '\r' :: '\n' :: rest => skipLines rest
  | '#' :: rest => skipLines (rest.dropWhile Quoted.isTextChar)
  | c :: rest => if Quoted.isBlank c then skipLines rest else c :: rest
termination_by text.length
decreasing_by
  all_goals simp only [List.length_cons]
  · omega
  · omega
  · exact Nat.lt_succ_of_le (List.dropWhile_suffix _).length_le
  · omega

/-! ## Keys -/

def isKeyChar (c : Char) : Bool :=
  c.isAlphanum || c == '_' || c == '-'

def readKey (text : List Char) : Option (String × List Char) :=
  let bare := text.takeWhile isKeyChar
  if bare.isEmpty then Quoted.readKey text
  else some (.ofList bare, text.drop bare.length)

/-- **A dotted key.**  Blanks may stand around its dots. -/
def readPath (text : List Char) : Option (KeyPath × List Char) :=
  match readKey text with
  | none => none
  | some (key, rest) =>
    match skipBlanks rest with
    | '.' :: rest =>
      let rest := skipBlanks rest
      if rest.length < text.length then do
        let (path, rest) ← readPath rest
        some (key :: path, rest)
      else none
    | rest => some ([key], rest)
termination_by text.length

/-- How deep brackets may be nested, and how many keys a dotted key may have. -/
def maxNesting : Nat := 80

/-- A dotted key of at most `maxNesting` keys. -/
def readKeyPath (text : List Char) : Option (KeyPath × List Char) := do
  let (path, rest) ← readPath text
  if path.length ≤ maxNesting then some (path, rest) else none

/-! ## Items -/

/-- Things separated by commas up to a closing bracket.  Lines may end anywhere between them, and a
comma may stand behind the last. -/
def readSequence {α : Type} (readOne : List Char → Option (α × List Char)) (close : Char)
    (text : List Char) : Option (List α × List Char) :=
  match skipLines text with
  | [] => none
  | c :: rest =>
    if c = close then some ([], rest)
    else
      match readOne (c :: rest) with
      | none => none
      | some (x, rest) =>
        match skipLines rest with
        | ',' :: rest =>
          if rest.length < text.length then do
            let (xs, rest) ← readSequence readOne close rest
            some (x :: xs, rest)
          else none
        | d :: rest => if d = close then some ([x], rest) else none
        | [] => none
termination_by text.length

/-- An assignment, by a way to read its item and a way to skip what may stand around its sign. -/
def readAssignment (readItem : List Char → Option (Item × List Char))
    (skip : List Char → List Char) (text : List Char) :
    Option ((KeyPath × Item) × List Char) := do
  let (path, rest) ← readKeyPath text
  match skip rest with
  | '=' :: rest =>
    let (item, rest) ← readItem (skip rest)
    some ((path, item), rest)
  | _ => none

/-- The table of the assignments between braces. -/
def inlineTable (assignments : List (KeyPath × Item)) : Option Item := do
  let entries ← assignments.foldlM (fun entries (path, item) => Entries.assign item path entries) []
  some (.table .inline entries)

/-- The characters that a bare word does not contain. -/
def isDelimiter (c : Char) : Bool :=
  ['=', ',', '[', ']', '{', '}', '#', ' ', '\t', '\r', '\n'].contains c

/-- Whether a bare word begins behind the blanks at the front. -/
def wordFollows (text : List Char) : Bool :=
  (skipBlanks text).head?.any fun c => !isDelimiter c && c != '"' && c != '\''

/-- **The bare words at the front**, with the blanks between them.  They make up one scalar, since a
date and a time may have a space between them. -/
def bareWords : List Char → List Char
  | [] => []
  | c :: rest =>
    if !isDelimiter c || (Quoted.isBlank c && wordFollows rest) then c :: bareWords rest else []

def readScalar (text : List Char) : Option (Item × List Char) :=
  let words := bareWords text
  (Scalar.read words).map fun item => (item, text.drop words.length)

/-- **One item**, at most `depth` brackets deep. -/
def readItemWithin (depth : Nat) (text : List Char) : Option (Item × List Char) :=
  match text with
  | '"' :: _ | '\'' :: _ => (Quoted.read text).map fun (s, rest) => (.string s, rest)
  | '[' :: rest =>
    match depth with
    | 0 => none
    | depth + 1 => do
      let (items, rest) ← readSequence (readItemWithin depth) ']' rest
      some (.array items, rest)
  | '{' :: rest =>
    match depth with
    | 0 => none
    | depth + 1 => do
      let readOne := readAssignment (readItemWithin depth) skipLines
      let (assignments, rest) ← readSequence readOne '}' rest
      some (← inlineTable assignments, rest)
  | _ => readScalar text

def readItem (text : List Char) : Option (Item × List Char) :=
  readItemWithin maxNesting text

/-! ## Lines -/

def readStatement : List Char → Option (Statement × List Char)
  | '[' :: '[' :: text => do
    let (path, rest) ← readKeyPath (skipBlanks text)
    match skipBlanks rest with
    | ']' :: ']' :: rest => some (.openElement path, rest)
    | _ => none
  | '[' :: text => do
    let (path, rest) ← readKeyPath (skipBlanks text)
    match skipBlanks rest with
    | ']' :: rest => some (.openTable path, rest)
    | _ => none
  | text => do
    let ((path, item), rest) ← readAssignment readItem skipBlanks text
    some (.assign path item, rest)

/-- What follows the end of a line.  Only blanks and a comment may stand before it. -/
def endLine (text : List Char) : Option (List Char) :=
  match skipComment (skipBlanks text) with
  | [] => some []
  | '\n' :: rest => some rest
  | '\r' :: '\n' :: rest => some rest
  | _ => none

/-- **The statements of a document.** -/
def statements (text : List Char) : Option (List Statement) :=
  match skipLines text with
  | [] => some []
  | c :: rest => do
    let (statement, rest) ← readStatement (c :: rest)
    let rest ← endLine rest
    if rest.length < text.length then do
      let more ← statements rest
      some (statement :: more)
    else none
termination_by text.length

end Toml

end GraphScan
