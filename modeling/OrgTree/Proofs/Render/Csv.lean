import OrgTree.Render.Csv

/-!
# Comma separated values read back

The format is that of RFC 4180: rows end with carriage return and line feed, which the last one may
lack; cells stand between commas; a cell is bare if it has no comma, quote, carriage return or line
feed, and any cell may stand between quotes, its own quotes doubled. A blank line is a row with one
empty cell, so a row without cells has no written form, and the empty text is the table without
rows.

## Main definitions

- `Csv.IsCell`, `Csv.IsRow`, `Csv.IsTable`: the grammar
- `Csv.readFrom`, `Csv.readRows`, `Csv.read?`: a reader for it

## Main statements

- `Csv.readRows_eq_some_iff`: the reader reads what the grammar says
- `Csv.isTable_writeRows`: the writer follows the grammar
- `Csv.read?_write`: tables are read back from their texts
-/

namespace OrgTree.Csv

variable {c : Char} {s w r : List Char} {cell : List Char} {cells : List (List Char)}
  {rs : List (List (List Char))}

/-! ### The grammar -/

/-- The written forms of a cell. -/
inductive IsCell : (written cell : List Char) → Prop
  | bare {s : List Char} (h : ∀ c ∈ s, isSpecial c = false) : IsCell s s
  | quoted (s : List Char) : IsCell ('"' :: doubled s ++ ['"']) s

/-- The written forms of a row. -/
inductive IsRow : (written : List Char) → (cells : List (List Char)) → Prop
  | one {w c : List Char} (h : IsCell w c) : IsRow w [c]
  | more {w c ws : List Char} {cs : List (List Char)} (h : IsCell w c) (hs : IsRow ws cs) :
    IsRow (w ++ ',' :: ws) (c :: cs)

/-- The written forms of a table. -/
inductive IsTable : (written : List Char) → (rows : List (List (List Char))) → Prop
  | empty : IsTable [] []
  /-- The last row without the end of its line. -/
  | last {w : List Char} {cs : List (List Char)} (h : IsRow w cs) (hne : w ≠ []) : IsTable w [cs]
  | line {w ws : List Char} {cs : List (List Char)} {rs : List (List (List Char))} (h : IsRow w cs)
    (hs : IsTable ws rs) : IsTable (w ++ '\r' :: '\n' :: ws) (cs :: rs)

/-! ### The reader -/

/-- Where in a cell a reader stands. -/
inductive Place where
  | start
  | bare
  | quoted
  /-- Behind a quote of a quoted cell: it closes the cell or is the first half of a doubled one. -/
  | closed
deriving DecidableEq

/-- What follows a place: the rest of the cell, the other cells of the row and the other rows. -/
structure Found where
  cell : List Char := []
  cells : List (List Char) := []
  rows : List (List (List Char)) := []

namespace Found

/-- One more character of the cell. -/
def push (c : Char) (f : Found) : Found :=
  { f with cell := c :: f.cell }

/-- What follows a comma. -/
def nextCell (f : Found) : Found where
  cells := f.cell :: f.cells
  rows := f.rows

/-- The rows from the start of a line on. -/
def table (f : Found) : List (List (List Char)) :=
  (f.cell :: f.cells) :: f.rows

/-- What follows the end of a line. -/
def nextRow (f : Found) : Found where
  rows := f.table

end Found

/-- Reads from a place on. -/
def readFrom : Place → List Char → Option Found
  | .quoted, [] => none
  | _, [] => some {}
  | .quoted, c :: r =>
    if c = '"' then readFrom .closed r else (readFrom .quoted r).map (.push c)
  | .start, '"' :: r => readFrom .quoted r
  | .closed, '"' :: r => (readFrom .quoted r).map (.push '"')
  | _, ',' :: r => (readFrom .start r).map .nextCell
  | _, ['\r', '\n'] => some {}
  | _, '\r' :: '\n' :: r => (readFrom .start r).map .nextRow
  | .closed, _ :: _ => none
  | _, c :: r => if isSpecial c then none else (readFrom .bare r).map (.push c)

/-- The rows of a text. -/
def readRows (s : List Char) : Option (List (List (List Char))) :=
  if s = [] then some [] else (readFrom .start s).map Found.table

/-- The table of a text. -/
def read? (s : String) : Option (List (List String)) :=
  (readRows s.toList).map fun t => t.map fun r => r.map String.ofList

theorem readFrom_comma {p : Place} (hp : p ≠ .quoted) (s : List Char) :
    readFrom p (',' :: s) = (readFrom .start s).map .nextCell := by
  cases p with
  | quoted => exact absurd rfl hp
  | start | bare | closed => rfl

/-- The end of a line is the end of the row, and of the table if nothing follows. -/
theorem readFrom_line {p : Place} (hp : p ≠ .quoted) (s : List Char) :
    readFrom p ('\r' :: '\n' :: s) = (readRows s).map fun rs => { rows := rs } := by
  cases s with
  | nil => cases p <;> first | rfl | exact absurd rfl hp
  | cons c s =>
    have hrows : readRows (c :: s) = (readFrom .start (c :: s)).map Found.table :=
      if_neg (List.cons_ne_nil c s)
    rw [hrows, Option.map_map]
    cases p with
    | quoted => exact absurd rfl hp
    | start | bare | closed => rfl

theorem readFrom_bare {p : Place} (hp : p = .start ∨ p = .bare) (hc : isSpecial c = false)
    (s : List Char) : readFrom p (c :: s) = (readFrom .bare s).map (.push c) := by
  simp only [isSpecial, Bool.or_eq_false_iff, decide_eq_false_iff_not] at hc
  obtain ⟨⟨⟨hcomma, hquote⟩, hline⟩, hreturn⟩ := hc
  rcases hp with rfl | rfl <;> simp [readFrom, isSpecial, hcomma, hquote, hline, hreturn]

/-! ### What the grammar says is read -/

/-- Wherever a cell ends, these cells and rows follow. -/
def IsReadAfterCell (s : List Char) (cells : List (List Char)) (rs : List (List (List Char))) :
    Prop :=
  ∀ p, p ≠ .quoted → readFrom p s = some { cells, rows := rs }

theorem readFrom_doubled (hs : IsReadAfterCell s cells rs) (cell : List Char) :
    readFrom .quoted (doubled cell ++ '"' :: s) = some { cell, cells, rows := rs } := by
  induction cell with
  | nil => exact hs .closed (by decide)
  | cons c r ih =>
    rw [doubled]
    split
    · rename_i hc
      subst hc
      change (readFrom .quoted (doubled r ++ '"' :: s)).map (Found.push '"') = _
      rw [ih]
      rfl
    · rename_i hc
      rw [List.cons_append, readFrom, if_neg hc, ih]
      rfl

theorem readFrom_of_bare (hs : IsReadAfterCell s cells rs) (h : ∀ c ∈ cell, isSpecial c = false)
    {p : Place} (hp : p = .start ∨ p = .bare) :
    readFrom p (cell ++ s) = some { cell, cells, rows := rs } := by
  induction cell generalizing p with
  | nil => exact hs p (by rcases hp with rfl | rfl <;> decide)
  | cons c r ih =>
    rw [List.forall_mem_cons] at h
    rw [List.cons_append, readFrom_bare hp h.1, ih h.2 (.inr rfl)]
    rfl

theorem IsCell.readFrom (h : IsCell w cell) (hs : IsReadAfterCell s cells rs) :
    readFrom .start (w ++ s) = some { cell, cells, rows := rs } := by
  cases h with
  | bare h => exact readFrom_of_bare hs h (.inl rfl)
  | quoted =>
    have hquoted := readFrom_doubled hs cell
    rwa [List.append_assoc, List.cons_append, Csv.readFrom]

/-- A row is read up to the end of its line or of the text. -/
theorem IsRow.readFrom (h : IsRow w cells) (hs : IsReadAfterCell s [] rs) :
    ∃ c cs, cells = c :: cs ∧ readFrom .start (w ++ s) = some ⟨c, cs, rs⟩ := by
  induction h with
  | one h => exact ⟨_, _, rfl, h.readFrom hs⟩
  | more h _ ih =>
    obtain ⟨c, cs, rfl, hread⟩ := ih
    refine ⟨_, _, rfl, ?_⟩
    rw [List.append_assoc]
    refine h.readFrom fun p hp => ?_
    rw [List.cons_append, readFrom_comma hp, hread]
    rfl

theorem IsTable.readRows (h : IsTable w rs) : readRows w = some rs := by
  induction h with
  | empty => rfl
  | last h hne =>
    have hend : IsReadAfterCell [] [] [] := fun p hp => by
      cases p <;> first | rfl | exact absurd rfl hp
    obtain ⟨c, cs, rfl, hread⟩ := h.readFrom hend
    rw [List.append_nil] at hread
    rw [Csv.readRows, if_neg hne, hread]
    rfl
  | line h _ ih =>
    -- The rows below are read already when the end of this line is met.
    have hend : IsReadAfterCell _ [] _ := fun p hp => by
      rw [readFrom_line hp, ih]
      rfl
    obtain ⟨c, cs, rfl, hread⟩ := h.readFrom hend
    rw [Csv.readRows, if_neg (by simp), hread]
    rfl

/-! ### What is read is what the grammar says -/

/-- What may follow a cell: the end of the text, of a line, or another cell. -/
inductive IsRest : List Char → List (List Char) → List (List (List Char)) → Prop
  | stop : IsRest [] [] []
  | line {s : List Char} {rs : List (List (List Char))} (h : IsTable s rs) :
    IsRest ('\r' :: '\n' :: s) [] rs
  | comma {w r cell : List Char} {cells : List (List Char)} {rs : List (List (List Char))}
    (h : IsCell w cell) (hr : IsRest r cells rs) : IsRest (',' :: (w ++ r)) (cell :: cells) rs

theorem IsTable.cons_cell (hw : IsCell w cell) (h : IsTable s (cells :: rs)) :
    IsTable (w ++ ',' :: s) ((cell :: cells) :: rs) := by
  cases h with
  | last h hne => exact .last (.more hw h) (by simp)
  | line h hs =>
    have hrow := IsTable.line (.more hw h) hs
    rwa [List.append_assoc, List.cons_append] at hrow

theorem IsRest.isTable (hw : IsCell w cell) (hr : IsRest r cells rs) (hne : w ++ r ≠ []) :
    IsTable (w ++ r) ((cell :: cells) :: rs) := by
  induction hr generalizing w cell with
  | stop => exact .last (by simpa using .one hw) hne
  | line h => exact .line (.one hw) h
  | @comma w' r' cell' cells rs hw' hr ih =>
    by_cases hempty : w' ++ r' = []
    · -- a comma at the end of the text has an empty cell behind it
      obtain ⟨rfl, rfl⟩ := List.append_eq_nil_iff.1 hempty
      cases hr
      exact .last (.more hw (.one hw')) (by simp)
    · exact (ih hw' hempty).cons_cell hw

/-- What is found from a place on stands there. -/
def IsFoundAt : Place → List Char → Found → Prop
  | .start, s, f => ∃ w r, s = w ++ r ∧ IsCell w f.cell ∧ IsRest r f.cells f.rows
  | .bare, s, f =>
    ∃ r, s = f.cell ++ r ∧ (∀ c ∈ f.cell, isSpecial c = false) ∧ IsRest r f.cells f.rows
  | .quoted, s, f => ∃ r, s = doubled f.cell ++ '"' :: r ∧ IsRest r f.cells f.rows
  | .closed, s, f => ∃ r, '"' :: s = doubled f.cell ++ '"' :: r ∧ IsRest r f.cells f.rows

theorem IsRest.isFoundAt {p : Place} (h : IsRest r cells rs) (hp : p ≠ .quoted) :
    IsFoundAt p r { cells, rows := rs } := by
  cases p with
  | quoted => exact absurd rfl hp
  | start => exact ⟨[], r, rfl, .bare (by simp), h⟩
  | bare => exact ⟨r, rfl, by simp, h⟩
  | closed => exact ⟨r, rfl, h⟩

theorem isTable_of_isFoundAt {f : Found} (h : IsFoundAt .start s f) (hne : s ≠ []) :
    IsTable s f.table := by
  obtain ⟨w, r, rfl, hw, hr⟩ := h
  exact hr.isTable hw hne

theorem isFoundAt_of_readFrom {p : Place} {f : Found} (h : readFrom p s = some f) :
    IsFoundAt p s f := by
  -- What is found behind the first character stands there; the cases say how it goes on.
  fun_induction readFrom p s generalizing f with
  | case1 => cases h
  | case2 p hp =>
    cases h
    exact IsRest.stop.isFoundAt hp
  | case3 r ih => exact ih h
  | case4 c r hc ih =>
    obtain ⟨f, hf, rfl⟩ := Option.map_eq_some_iff.1 h
    obtain ⟨r, rfl, hr⟩ := ih hf
    exact ⟨r, by simp [Found.push, doubled, hc], hr⟩
  | case5 r ih =>
    obtain ⟨r, rfl, hr⟩ := ih h
    exact ⟨'"' :: doubled f.cell ++ ['"'], r, by simp, .quoted _, hr⟩
  | case6 r ih =>
    obtain ⟨f, hf, rfl⟩ := Option.map_eq_some_iff.1 h
    obtain ⟨r, rfl, hr⟩ := ih hf
    exact ⟨r, by simp [Found.push, doubled], hr⟩
  | case7 p r hp ih =>
    obtain ⟨f, hf, rfl⟩ := Option.map_eq_some_iff.1 h
    obtain ⟨w, r, rfl, hw, hr⟩ := ih hf
    exact (IsRest.comma hw hr).isFoundAt hp
  | case8 p hp =>
    cases h
    exact (IsRest.line .empty).isFoundAt hp
  | case9 p r hp hne ih =>
    obtain ⟨f, hf, rfl⟩ := Option.map_eq_some_iff.1 h
    exact (IsRest.line (isTable_of_isFoundAt (ih hf) hne)).isFoundAt hp
  | case10 => cases h
  | case11 => cases h
  | case12 p c r hquoted _ _ _ _ _ hclosed hc ih =>
    obtain ⟨f, hf, rfl⟩ := Option.map_eq_some_iff.1 h
    obtain ⟨r, rfl, hcell, hr⟩ := ih hf
    have hcell' : ∀ d ∈ c :: f.cell, isSpecial d = false :=
      List.forall_mem_cons.2 ⟨by simpa using hc, hcell⟩
    cases p with
    | quoted => exact absurd rfl hquoted
    | closed => exact absurd rfl hclosed
    | start => exact ⟨c :: f.cell, r, rfl, .bare hcell', hr⟩
    | bare => exact ⟨r, rfl, hcell', hr⟩

/-- The reader reads what the grammar says. -/
theorem readRows_eq_some_iff : readRows s = some rs ↔ IsTable s rs := by
  refine ⟨fun h => ?_, IsTable.readRows⟩
  unfold readRows at h
  split at h
  · rename_i hs
    cases h
    exact hs ▸ .empty
  · rename_i hne
    obtain ⟨f, hf, rfl⟩ := Option.map_eq_some_iff.1 h
    exact isTable_of_isFoundAt (isFoundAt_of_readFrom hf) hne

/-! ### The writer -/

theorem isCell_writeCell (s : List Char) : IsCell (writeCell s) s := by
  unfold writeCell
  split
  · exact .quoted s
  · rename_i h
    exact .bare (by simpa using h)

theorem isRow_writeCells (hne : cells ≠ []) : IsRow (writeCells cells) cells := by
  fun_induction writeCells cells with
  | case1 => exact absurd rfl hne
  | case2 c => exact .one (isCell_writeCell c)
  | case3 c d cs ih => exact .more (isCell_writeCell c) (ih (List.cons_ne_nil d cs))

/-- The writer follows the grammar. -/
theorem isTable_writeRows (h : ∀ cs ∈ rs, cs ≠ []) : IsTable (writeRows rs) rs := by
  induction rs with
  | nil => exact .empty
  | cons cs rs ih =>
    rw [List.forall_mem_cons] at h
    exact .line (isRow_writeCells h.1) (ih h.2)

/-! ### Texts -/

/-- A text that holds a table by the grammar. -/
def IsText (text : String) (table : List (List String)) : Prop :=
  IsTable text.toList (table.map fun cells => cells.map String.toList)

/-- Every row has a cell. -/
def HasCells (table : List (List String)) : Prop :=
  ∀ cells ∈ table, cells ≠ []

theorem read?_eq_some_iff {text : String} {table : List (List String)} :
    read? text = some table ↔ IsText text table := by
  rw [IsText, ← readRows_eq_some_iff, read?, Option.map_eq_some_iff]
  constructor
  · rintro ⟨rows, hrows, rfl⟩
    rw [hrows]
    simp [Function.comp_def]
  · intro h
    exact ⟨_, h, by simp [Function.comp_def]⟩

theorem isText_write {table : List (List String)} (h : HasCells table) :
    IsText (write table) table := by
  rw [IsText, write, String.toList_ofList]
  refine isTable_writeRows fun cells hcells => ?_
  obtain ⟨r, hr, rfl⟩ := List.mem_map.1 hcells
  simpa using h r hr

theorem length_flatMap_of_three {cellsOf : Field → List String}
    (h : ∀ f, (cellsOf f).length = 3) (fields : List Field) :
    (fields.flatMap cellsOf).length = 3 * fields.length := by
  induction fields with
  | nil => rfl
  | cons f fs ih =>
    rw [List.flatMap_cons, List.length_append, h, ih, List.length_cons]
    omega

theorem length_of_mem_rows {diffs : List Diff} {fields : List Field} {cells : List String}
    (h : cells ∈ rows diffs fields) : cells.length = 3 + 3 * fields.length := by
  rcases List.mem_cons.1 h with rfl | h
  · rw [header, List.length_append, length_flatMap_of_three fun _ => rfl]
    rfl
  · obtain ⟨d, -, rfl⟩ := List.mem_map.1 h
    have hcells : ∀ f, (fieldCells d f).length = 3 := by
      intro f
      unfold fieldCells
      split <;> rfl
    rw [row, List.length_append, length_flatMap_of_three hcells]
    rfl

theorem hasCells_rows (diffs : List Diff) (fields : List Field) : HasCells (rows diffs fields) := by
  rintro _ h rfl
  have hlength := length_of_mem_rows h
  rw [List.length_nil] at hlength
  omega

/-- A reader of the format finds in the text of a table whose rows all have cells that table and no
other, so two such tables differ in their texts. The table of some diffs is one of them, whatever is
in its cells: it has a row for each diff below the header, and three cells for each field beside the
first three. -/
theorem read?_write :
    (∀ text table, read? text = some table ↔ IsText text table) ∧
    (∀ table, HasCells table → read? (write table) = some table ∧
      ∀ other, HasCells other → write other = write table → other = table) ∧
    ∀ (diffs : List Diff) (fields : List Field), ∃ table,
      read? (write (rows diffs fields)) = some table ∧ table = rows diffs fields ∧
      table.length = 1 + diffs.length ∧ ∀ cells ∈ table, cells.length = 3 + 3 * fields.length := by
  have hread : ∀ {table}, HasCells table → read? (write table) = some table :=
    fun h => read?_eq_some_iff.2 (isText_write h)
  refine ⟨fun _ _ => read?_eq_some_iff, fun table h => ⟨hread h, fun other hother heq => ?_⟩,
    fun diffs fields => ?_⟩
  · have htable := hread h
    rw [← heq, hread hother] at htable
    exact Option.some.inj htable
  · refine ⟨_, hread (hasCells_rows diffs fields), rfl, ?_, fun _ => length_of_mem_rows⟩
    rw [rows, List.length_cons, List.length_map, Nat.add_comm]

/-- A table with separators, quotes and line ends in cells, a row with one empty cell, and rows of
different lengths. -/
def oddCells : List (List String) :=
  [["a", "b,c", "", "\r\n"], [""], ["say \"hi\"", "\""], ["\n", ""]]

theorem read?_write_oddCells :
    HasCells oddCells ∧
      write oddCells = "a,\"b,c\",,\"\r\n\"\r\n\r\n\"say \"\"hi\"\"\",\"\"\"\"\r\n\"\n\",\r\n" ∧
      read? (write oddCells) = some oddCells ∧
      ∀ other, HasCells other → write other = write oddCells → other = oddCells := by
  have hcells : HasCells oddCells := by simp [HasCells, oddCells]
  exact ⟨hcells, by decide, read?_write.2.1 oddCells hcells⟩

/-- A row without cells is written like a row with one empty cell. -/
example : write [[]] = write [[""]] := rfl

end OrgTree.Csv
