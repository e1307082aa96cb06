import GraphScan.Value.Basic

/-!
# Schemas

A schema is an ordered list of named, typed columns.

* `ColumnType.accepts` — a null fits every column, any other value only one of its own kind.
* `Schema.indexOf?` — the first column of a name, where the case of ASCII letters is ignored.
* `Schema.render` — the schema as a listing shows it.
-/

namespace GraphScan

/-! ## Column types -/

inductive ColumnType where
  | bool
  | float
  | int
  | text
deriving DecidableEq, Repr

namespace ColumnType

/-- The kind of the values that a column holds besides nulls. -/
def kind : ColumnType → Kind
  | .bool => .bool
  | .float => .float
  | .int => .int
  | .text => .text

/-- **Whether a column may hold a value.** -/
def accepts (type : ColumnType) (value : Value) : Bool :=
  value.isNull || value.kind == type.kind

def label : ColumnType → String
  | .bool => "BOOLEAN"
  | .float => "FLOAT"
  | .int => "BIGINT"
  | .text => "VARCHAR"

end ColumnType

/-! ## Schemas -/

structure Column where
  name : String
  type : ColumnType
deriving DecidableEq, Repr

def Column.render (column : Column) : String :=
  column.name ++ " " ++ column.type.label

/-- **The columns of a table, in order.** -/
structure Schema where
  columns : List Column
deriving DecidableEq, Repr, Inhabited

namespace Schema

def width (schema : Schema) : Nat :=
  schema.columns.length

def column? (schema : Schema) (index : Nat) : Option Column :=
  schema.columns[index]?

/-- A name with its ASCII letters in lower case. -/
def foldCase (name : String) : List Char :=
  name.toList.map Char.toLower

/-- **The position of the first column of a name**, up to the case of ASCII letters. -/
def indexOf? (schema : Schema) (name : String) : Option Nat :=
  schema.columns.findIdx? fun column => foldCase column.name == foldCase name

def render (schema : Schema) : String :=
  ", ".intercalate (schema.columns.map Column.render)

end Schema

end GraphScan
