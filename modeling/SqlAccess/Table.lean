/-
**Table descriptions.**

A condition is written against the ordered columns of a table.  What is known of a column's type
is its declaration; the type of a parameter compared with the column is inferred from the leading
keyword of that declaration.

Main definitions:

* `SqlAccess.ParameterType`, `SqlAccess.ParameterType.ofDeclaration` — parameter types and their
  inference;
* `SqlAccess.Column`, `SqlAccess.Table` — columns and tables;
* `SqlAccess.Table.columnAt?`, `SqlAccess.Table.columnNamed?` — a column by position or by name.
-/

import SqlAccess.Text.Blank
import SqlAccess.Text.Word
import SqlAccess.Text.Quoted

set_option autoImplicit false

namespace SqlAccess

/-! ### Parameter types -/

/-- The type of a bound parameter. -/
inductive ParameterType where
  | integer
  | text
  | boolean
  | float
  | timestamp
  /-- No better guess for the declared type. -/
  | any
  /-- The parameter of an `IN (?)` predicate. -/
  | list (element : ParameterType)
  deriving DecidableEq, Repr, Inhabited

namespace ParameterType

/-- The name of a parameter type. -/
def render : ParameterType → String
  | integer => "int"
  | text => "string"
  | boolean => "bool"
  | float => "float"
  | timestamp => "timestamp"
  | any => "any"
  | list element => "[]" ++ element.render

/-- The upper-case keywords that declare each type. -/
def keywords : List (ParameterType × List String) := [
  (integer, ["INT", "INTEGER", "TINYINT", "SMALLINT", "MEDIUMINT", "BIGINT", "INT2", "INT4", "INT8",
    "SERIAL", "BIGSERIAL", "SMALLSERIAL"]),
  (text, ["CHAR", "VARCHAR", "CHARACTER", "NCHAR", "NVARCHAR", "TEXT", "TINYTEXT", "MEDIUMTEXT",
    "LONGTEXT", "ENUM"]),
  (boolean, ["BOOL", "BOOLEAN"]),
  (float, ["DECIMAL", "NUMERIC", "FLOAT", "FLOAT4", "FLOAT8", "DOUBLE", "REAL"]),
  (timestamp, ["DATE", "TIME", "DATETIME", "TIMESTAMP", "TIMESTAMPTZ", "TIMETZ", "YEAR"])]

/-- The type declared by a text such as `VARCHAR(64)` or `int unsigned`: only the leading word
counts, in any case. -/
def ofDeclaration (declared : String) : ParameterType :=
  let word := ((Text.trim declared.toList).takeWhile Text.isWordChar).map Char.toUpper
  match keywords.find? fun entry => entry.2.contains (String.ofList word) with
  | some (type, _) => type
  | none => any

end ParameterType

/-! ### Columns and tables -/

/-- A column as declared. -/
structure Column where
  name : String
  declaredType : String
  deriving DecidableEq, Repr, Inhabited

/-- The type of a parameter compared with the column. -/
def Column.paramType (c : Column) : ParameterType := ParameterType.ofDeclaration c.declaredType

/-- A table: its name and its columns in order. -/
structure Table where
  name : String
  columns : List Column
  deriving DecidableEq, Repr, Inhabited

namespace Table

/-- The column at a position counted from 1. -/
def columnAt? (t : Table) (position : Nat) : Option Column :=
  if position = 0 then none else t.columns[position - 1]?

/-- The first column of that name, in any ASCII case. -/
def columnNamed? (t : Table) (name : String) : Option Column :=
  t.columns.find? fun c => Text.sameIgnoringCase c.name.toList name.toList

end Table

end SqlAccess
