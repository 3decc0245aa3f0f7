import AlertFilter.Field
import AlertFilter.Operator
import AlertFilter.SavedFilter

/-!
# Tables

Rows of cells that are filled up with blanks to the width of their column and stand one blank apart.
A cell that is too wide is written in full, and the last column has no width.
-/

namespace AlertFilter

inductive Side where
  | left
  | right

structure Column where
  title : String
  side : Side
  width : Nat

namespace Column

def fill (c : Column) (cell : String) : String :=
  let blanks := String.ofList (List.replicate (c.width - cell.length) ' ')
  match c.side with
  | .left => cell ++ blanks
  | .right => blanks ++ cell

end Column

/-- The columns of a table and the length of the rule below their titles. -/
structure TableLayout where
  columns : List Column
  rule : Nat

namespace TableLayout

def row (t : TableLayout) (cells : List String) : String :=
  " ".intercalate (List.zipWith Column.fill t.columns cells) ++ "\n"

def render (t : TableLayout) (rows : List (List String)) : String :=
  t.row (t.columns.map (·.title)) ++ String.ofList (List.replicate t.rule '-') ++ "\n" ++
    String.join (rows.map t.row)

def operators : TableLayout :=
  ⟨[⟨"Code", .left, 10⟩, ⟨"Family", .left, 12⟩, ⟨"Symbol", .left, 12⟩, ⟨"Label", .left, 8⟩,
    ⟨"Description", .left, 0⟩], 64⟩

def fields : TableLayout :=
  ⟨[⟨"Field", .left, 20⟩, ⟨"Label", .left, 24⟩, ⟨"Min", .right, 10⟩, ⟨"Max", .right, 10⟩,
    ⟨"Abs", .left, 4⟩, ⟨"Description", .left, 0⟩], 80⟩

def filters : TableLayout :=
  ⟨[⟨"ID", .left, 26⟩, ⟨"Label", .left, 24⟩, ⟨"Steps", .left, 6⟩, ⟨"Result", .left, 0⟩], 64⟩

end TableLayout

def Operator.table (operators : List Operator) : String :=
  TableLayout.operators.render <| operators.map fun o =>
    [o.code, o.family.name, o.symbol, o.entry.label, o.entry.description]

def Field.table (fields : List Field) : String :=
  TableLayout.fields.render <| fields.map fun f =>
    [f.path, f.label, f.min.plainText, f.max.plainText, if f.hasAbs then "yes" else "no",
      f.description]

def SavedFilter.table (filters : List SavedFilter) : String :=
  if filters.isEmpty then "No saved filters\n"
  else TableLayout.filters.render <| filters.map fun f =>
    [f.id.text, f.label, toString f.steps.length, if f.isBoolean then "boolean" else "value"]

end AlertFilter
