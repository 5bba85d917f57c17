import OrgTree.Render.Paint
import OrgTree.Render.Stats
import OrgTree.Text.Blank

/-!
# Diffs as a table for the terminal

Units that are the same are left out, and so are the fields that bring nothing. Columns are aligned
by the number of characters, two blanks apart, and a summary of all units follows.
-/

namespace OrgTree.TextTable

/-- The style of a unit status. -/
def paintOfUnit : DiffStatus → Paint
  | .same => .plain
  | .new => .green
  | .modified => .yellow
  | .deleted => .red
  | .neverSeen => .dimmed

/-- The style of a comparison status. -/
def paintOfComparison : ComparisonStatus → Paint
  | .same => .plain
  | .new => .green
  | .modified => .yellow
  | .deleted => .red

/-- A cell and its style. -/
structure Cell where
  text : String
  paint : Paint

/-- What a comparison changes, empty if nothing. -/
def change (c : Comparison) : String :=
  if c.status = .same then ""
  else
    let show? (v : Option FieldValue) : String := (v.map FieldValue.display).getD ""
    show? c.before ++ " → " ++ show? c.after

/-- The cell of a field in the row of a diff. -/
def fieldCell (d : Diff) (f : Field) : Cell :=
  match d.comparison? f.key with
  | some c => ⟨change c, paintOfComparison c.status⟩
  | none => ⟨"", .plain⟩

/-- The row of a diff. -/
def row (fields : List Field) (d : Diff) : List Cell :=
  [⟨d.label, .plain⟩, ⟨(d.unit?.map Snapshot.name).getD "", .plain⟩,
    ⟨d.status.name, paintOfUnit d.status⟩] ++ fields.map (fieldCell d)

/-- The header row. -/
def header (fields : List Field) : List Cell :=
  (["externalId", "name", "status"] ++ fields.map Field.label).map fun s => ⟨s, .bold⟩

/-- The widths of the columns: in each the greatest number of characters of a cell. -/
def widths (rows : List (List Cell)) : List Nat :=
  rows.foldl (fun ws cells =>
      List.zipWith max (ws ++ List.replicate (cells.length - ws.length) 0)
        (cells.map fun c => c.text.length)) []

/-- The text with blanks after it up to a width. -/
def padded (width : Nat) (s : String) : String :=
  s ++ String.ofList (List.replicate (width - s.length) ' ')

/-- The text without white space at its end. -/
def trimEnd (s : String) : String :=
  String.ofList (s.toList.reverse.dropWhile Text.isBlank).reverse

/-- The line of a row. -/
def line (colors : Bool) (widths : List Nat) (cells : List Cell) : String :=
  let texts := List.zipWith (fun (c : Cell) w => c.paint.apply colors (padded w c.text))
    cells widths
  trimEnd ("  ".intercalate texts) ++ "\n"

/-- The line that counts the units by status. -/
def summary (s : Stats) : String :=
  let counts := s.unitCounts.map fun (u, n) => toString n ++ " " ++ u.name
  toString s.total ++ " units: " ++ ", ".intercalate counts ++ "\n"

/-- The table of the units that are not the same. -/
def render (colors : Bool) (diffs : List Diff) (fields : List Field) (s : Stats) : String :=
  let active := fields.filter fun f => (s.field? f.key).any FieldStats.hasChanges
  let table := header active :: (diffs.filter fun d => d.status ≠ .same).map (row active)
  String.join (table.map (line colors (widths table))) ++ summary s

end OrgTree.TextTable
