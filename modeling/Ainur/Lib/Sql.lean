import Mathlib.Tactic.Common

set_option autoImplicit false

/-! # What a database refuses before it looks at a row

Schemas, the migrations that build them, and the analysis of a statement against a schema: the
table and its columns exist, every value has a type that its column takes, every comparison has
an operator, the target of `ON CONFLICT` is a unique key, the statement is in the grammar
(`UPDATE` takes no `ORDER BY` and no `LIMIT`), and its parameters are all bound. A statement that
fails here fails for every state of the tables and every value of its parameters.
-/

namespace Sql

/-- The types of columns and of typed parameters. -/
inductive ColumnType where
  | text
  | uuid
  | bytea
  | numeric
  | bigint
  | integer
  | timestamptz
  | jsonb
  deriving DecidableEq, Repr

def ColumnType.isNumber : ColumnType → Bool
  | .numeric | .bigint | .integer => true
  | _ => false

/-- A value of type `ty` may be stored in a column of type `col`: assignment casts exist between
the number types only. -/
def assignable (ty col : ColumnType) : Bool :=
  ty = col || (ty.isNumber && col.isNumber)

/-- There is an operator `=` on the two types. -/
def comparable (ty col : ColumnType) : Bool :=
  ty = col || (ty.isNumber && col.isNumber)

/-- A table: its columns, and the column lists of its primary key and unique constraints. -/
structure Table where
  name : String
  columns : List (String × ColumnType)
  unique : List (List String)
  deriving DecidableEq, Repr

abbrev Schema := List Table

/-! ## Migrations -/

inductive Migration where
  /-- `CREATE TABLE IF NOT EXISTS`. -/
  | createTable (table : Table)
  /-- `ALTER TABLE .. ADD COLUMN IF NOT EXISTS`. -/
  | addColumn (table column : String) (type : ColumnType)
  /-- `ALTER TABLE .. ADD CONSTRAINT .. UNIQUE`. -/
  | addUnique (table : String) (columns : List String)
  deriving DecidableEq, Repr

/-- Change the table of that name. -/
def Schema.alter (schema : Schema) (name : String) (f : Table → Table) : Schema :=
  schema.map fun t => if t.name = name then f t else t

def Schema.apply (schema : Schema) : Migration → Schema
  | .createTable table =>
      if schema.any fun t => t.name = table.name then schema else schema ++ [table]
  | .addColumn table column type =>
      schema.alter table fun t =>
        if t.columns.any fun c => c.1 = column then t
        else { t with columns := t.columns ++ [(column, type)] }
  | .addUnique table columns =>
      schema.alter table fun t => { t with unique := t.unique ++ [columns] }

/-- The schema that a list of migrations builds. -/
def migrate (migrations : List Migration) : Schema := migrations.foldl Schema.apply []

/-! ## Statements -/

/-- The target of an `ON CONFLICT` clause and the columns it sets, with the types of the values
(`DO NOTHING` sets none). -/
structure Conflict where
  target : Option (List String)
  set : List (String × ColumnType)
  deriving DecidableEq, Repr

/-- A statement with the types of the expressions it stores and compares. -/
inductive Statement where
  | insert (table : String) (values : List (String × ColumnType)) (conflict : Option Conflict)
  | update (table : String) (set wheres : List (String × ColumnType)) (ordered : Bool)
  | select (table : String) (columns : List String) (wheres : List (String × ColumnType))
  deriving DecidableEq, Repr

/-- The type of a column. -/
def Table.type (t : Table) (column : String) : Option ColumnType := t.columns.lookup column

def Table.stores (t : Table) (v : String × ColumnType) : Bool :=
  (t.type v.1).any (assignable v.2)

def Table.compares (t : Table) (v : String × ColumnType) : Bool :=
  (t.type v.1).any (comparable v.2)

/-- The columns of an `ON CONFLICT` target are those of a unique key, in any order. -/
def Table.isKey (t : Table) (target : List String) : Bool :=
  t.unique.any fun key => key.all target.contains && target.all key.contains

def Conflict.fits (t : Table) (c : Conflict) : Bool :=
  c.target.all t.isKey && c.set.all t.stores

/-- The statement passes the analysis. -/
def accepts (schema : Schema) : Statement → Bool
  | .insert table values conflict =>
      (schema.find? fun t => t.name = table).any fun t =>
        values.all t.stores && conflict.all (Conflict.fits t)
  | .update table set wheres ordered =>
      (schema.find? fun t => t.name = table).any fun t =>
        set.all t.stores && wheres.all t.compares && !ordered
  | .select table columns wheres =>
      (schema.find? fun t => t.name = table).any fun t =>
        (columns.all fun c => (t.type c).isSome) && wheres.all t.compares

/-! ## Parameters -/

/-- The numbers of the parameters that the text of a statement names, and how many values are
bound to it. -/
structure Parameters where
  named : List Nat
  bound : Nat
  deriving DecidableEq, Repr

/-- A value is bound for every parameter up to the largest one, and no more. -/
def Parameters.complete (ps : Parameters) : Bool := ps.named.foldr max 0 = ps.bound

/-- The column comes back as a value of that type. -/
def reads (schema : Schema) (table column : String) (type : ColumnType) : Bool :=
  (schema.find? fun t => t.name = table).any fun t => t.type column = some type

end Sql
