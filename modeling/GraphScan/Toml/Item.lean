/-!
# TOML items

The contents of a TOML document: scalars, arrays and tables.  A table remembers how it came about,
because that decides whether a later line of the document may still add to it.
-/

namespace GraphScan

namespace Toml

/-- **How a table came about.** -/
inductive TableOrigin where
  /-- Written between braces. -/
  | inline
  /-- As the parent in a dotted key. -/
  | dotted
  /-- As the parent in a header. -/
  | implicit
  /-- By a header of its own. -/
  | header
deriving DecidableEq, Repr

/-- **An item.**  Numbers with a fraction and dates are kept as they are written. -/
inductive Item where
  | string (text : String)
  /-- An integer.  Some texts are integers by their form and yet have no value. -/
  | integer (value : Option Int)
  | float (text : String)
  | boolean (value : Bool)
  | dateTime (text : String)
  | array (items : List Item)
  | table (origin : TableOrigin) (entries : List (String × Item))
  /-- The tables that headers in double brackets have opened under one name, in order. -/
  | tables (elements : List (List (String × Item)))

/-- The entries of a table, in the order of their first lines. -/
abbrev Entries := List (String × Item)

/-- The entries with another item under a key that is present. -/
def Entries.update (entries : Entries) (key : String) (item : Item) : Entries :=
  entries.map fun entry => if entry.1 = key then (key, item) else entry

end Toml

end GraphScan
