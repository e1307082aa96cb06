import GraphScan.Toml.Statement

/-!
# TOML documents

The statements of a document build its root table.  A header opens a table once, and no table is
added to after it has been closed by braces or opened by another header.

`Toml.parse` gives the root table of a text, or nothing if the text is not a TOML document.
-/

namespace GraphScan

namespace Toml

/-! ## Descending -/

/-- **Changes the table that holds the last key of a path.**  Parents that are missing are made;
of the tables opened by double brackets the latest is meant. -/
def alter (change : String → Entries → Option Entries) : KeyPath → Entries → Option Entries
  | [], _ => none
  | [key], entries => change key entries
  | key :: path, entries =>
    match entries.lookup key with
    | none => do
      let inner ← alter change path []
      some (entries ++ [(key, .table .implicit inner)])
    | some (.table origin inner) =>
      if origin = .inline then none
      else do
        let inner ← alter change path inner
        some (Entries.update entries key (.table origin inner))
    | some (.tables elements) => do
      let last ← elements.getLast?
      let last ← alter change path last
      some (Entries.update entries key (.tables (elements.dropLast ++ [last])))
    | some _ => none

/-- Opens a table by a header of its own, which it may have only once. -/
def openTable (key : String) (entries : Entries) : Option Entries :=
  match entries.lookup key with
  | none => some (entries ++ [(key, .table .header [])])
  | some (.table .implicit inner) => some (Entries.update entries key (.table .header inner))
  | some _ => none

def openElement (key : String) (entries : Entries) : Option Entries :=
  match entries.lookup key with
  | none => some (entries ++ [(key, .tables [[]])])
  | some (.tables elements) => some (Entries.update entries key (.tables (elements ++ [[]])))
  | some _ => none

/-- Puts an item under a dotted key of the table at `key`. -/
def assignWithin (path : KeyPath) (item : Item) (key : String) (entries : Entries) :
    Option Entries :=
  match entries.lookup key with
  | some (.table origin inner) => do
    let inner ← Entries.assign item path inner
    some (Entries.update entries key (.table origin inner))
  | some (.tables elements) => do
    let last ← elements.getLast?
    let last ← Entries.assign item path last
    some (Entries.update entries key (.tables (elements.dropLast ++ [last])))
  | _ => none

/-! ## Documents -/

/-- A document as far as it has been read: the root table, and the table that assignments go to. -/
structure Draft where
  root : Entries
  current : KeyPath

def Draft.apply (draft : Draft) : Statement → Option Draft
  | .openTable path => do
    let root ← alter openTable path draft.root
    some ⟨root, path⟩
  | .openElement path => do
    let root ← alter openElement path draft.root
    some ⟨root, path⟩
  | .assign path item => do
    let root ←
      if draft.current.isEmpty then Entries.assign item path draft.root
      else alter (assignWithin path item) draft.current draft.root
    some { draft with root }

/-- A text without the mark that may stand at its very front. -/
def dropByteOrderMark : List Char → List Char
  | '\ufeff' :: rest => rest
  | text => text

/-- **The root table of a document.** -/
def parse (text : String) : Option Entries := do
  let lines ← statements (dropByteOrderMark text.toList)
  let draft ← lines.foldlM Draft.apply ⟨[], []⟩
  some draft.root

end Toml

end GraphScan
