import OrgTree.Diff.Basic

/-!
# Diffs as comma separated values

One row for each diff after a header row. Cells are separated by commas and rows end with carriage
return and line feed; a cell with a comma, a quote or a line break stands between quotes, and its
own quotes are doubled.

## Main definitions

- `Csv.rows`: the cells for a list of diffs
- `Csv.write`: the text of a table of cells
-/

namespace OrgTree.Csv

/-- The cell of a value, empty without one. -/
def cell (v : Option FieldValue) : String :=
  (v.map FieldValue.display).getD ""

/-- The three columns of a field: what changed, and the values before and after. -/
def fieldHeader (f : Field) : List String :=
  [f.label, f.label ++ " before", f.label ++ " after"]

/-- The three cells of a field in the row of a diff, empty if the field was not compared. -/
def fieldCells (d : Diff) (f : Field) : List String :=
  match d.comparison? f.key with
  | some c => [c.status.name, cell c.before, cell c.after]
  | none => ["", "", ""]

/-- The header row. -/
def header (fields : List Field) : List String :=
  ["externalId", "diff status", "type"] ++ fields.flatMap fieldHeader

/-- The row of a diff. -/
def row (fields : List Field) (d : Diff) : List String :=
  [d.label, d.status.name, (d.unit?.map Snapshot.typeName).getD ""] ++ fields.flatMap (fieldCells d)

/-- The header and one row for each diff. -/
def rows (diffs : List Diff) (fields : List Field) : List (List String) :=
  header fields :: diffs.map (row fields)

/-- Characters that a bare cell cannot hold. -/
def isSpecial (c : Char) : Bool :=
  c = ',' || c = '"' || c = '\n' || c = '\r'

/-- The characters of a cell, every quote doubled. -/
def doubled : List Char → List Char
  | [] => []
  | c :: r => if c = '"' then '"' :: '"' :: doubled r else c :: doubled r

/-- The written form of a cell. -/
def writeCell (s : List Char) : List Char :=
  if s.any isSpecial then '"' :: doubled s ++ ['"'] else s

/-- The written form of the cells of a row, with commas between them. -/
def writeCells : List (List Char) → List Char
  | [] => []
  | [c] => writeCell c
  | c :: d :: cs => writeCell c ++ ',' :: writeCells (d :: cs)

/-- The written form of a table of cells. -/
def writeRows : List (List (List Char)) → List Char
  | [] => []
  | r :: rs => writeCells r ++ '\r' :: '\n' :: writeRows rs

/-- The text of a table of cells. -/
def write (table : List (List String)) : String :=
  String.ofList (writeRows (table.map fun r => r.map String.toList))

end OrgTree.Csv
