import OrgTree.Toml.Scalar
import OrgTree.Toml.Text

/-!
# Reading TOML documents

A total reader for version 1.0 of the format. Every call passes on less fuel than it got, and twice
the length of the document is more than any document needs.

## Main definitions

- `ofText?`: the members of a document, if it is well formed
-/

namespace OrgTree.Toml

/-- Characters of numbers, truth values, dates and times. -/
def isWordChar (c : Char) : Bool :=
  c.isAlphanum || c = '+' || c = '-' || c = '_' || c = '.' || c = ':'

/-- Reads a word; a date takes the time after one space with it. -/
def readWord (s : List Char) : List Char × List Char :=
  let word := s.takeWhile isWordChar
  let rest := s.drop word.length
  match rest with
  | ' ' :: r =>
    let time := r.takeWhile isWordChar
    if isDate word && isTime true time then (word ++ ' ' :: time, r.drop time.length)
    else (word, rest)
  | _ => (word, rest)

/-- The pairs of a table between braces, added one after the other. -/
def ofPairs? (pairs : List (List String × Toml)) : Option Toml :=
  (pairs.foldlM (fun ms (path, v) => insertPair path v .header ms) []).map .inlineTable

mutual

/-- Reads a value inside of `depth` arrays and tables. -/
def readValue? : (fuel : Nat) → (depth : Nat) → List Char → Option (Toml × List Char)
  | 0, _, _ => none
  | fuel + 1, depth, s =>
    match s with
    | '[' :: r =>
      if depth < depthLimit then
        (readItems? fuel (depth + 1) r).map fun (xs, rest) => (.array xs, rest)
      else none
    | '\x7b' :: r =>
      if depth < depthLimit then
        match skipSpace r with
        | '\x7d' :: rest => some (.inlineTable [], rest)
        | _ => do
          let (pairs, rest) ← readPairs? fuel (depth + 1) r
          return (← ofPairs? pairs, rest)
      else none
    | '"' :: _ => (readText? s).map fun (t, rest) => (.text t, rest)
    | '\'' :: _ => (readText? s).map fun (t, rest) => (.text t, rest)
    | s =>
      let (word, rest) := readWord s
      (ofWord? word).map (·, rest)

/-- Reads the items of an array up to its closing bracket; a comma may follow the last one. -/
def readItems? : (fuel : Nat) → (depth : Nat) → List Char → Option (List Toml × List Char)
  | 0, _, _ => none
  | fuel + 1, depth, s =>
    match skipFiller s.length s with
    | ']' :: rest => some ([], rest)
    | s => do
      let (x, r) ← readValue? fuel depth s
      match skipFiller r.length r with
      | ']' :: rest => return ([x], rest)
      | ',' :: r =>
        let (xs, rest) ← readItems? fuel depth r
        return (x :: xs, rest)
      | _ => none

/-- Reads a pair of a path of keys and a value. -/
def readPair? :
    (fuel : Nat) → (depth : Nat) → List Char → Option ((List String × Toml) × List Char)
  | 0, _, _ => none
  | fuel + 1, depth, s => do
    let (path, r) ← readPath? s
    let .cons '=' r := skipSpace r | none
    let (v, rest) ← readValue? fuel depth (skipSpace r)
    return ((path, v), rest)

/-- Reads the pairs of a table between braces, at least one, all on one line. -/
def readPairs? :
    (fuel : Nat) → (depth : Nat) → List Char → Option (List (List String × Toml) × List Char)
  | 0, _, _ => none
  | fuel + 1, depth, s => do
    let (p, r) ← readPair? fuel depth s
    match skipSpace r with
    | '\x7d' :: rest => return ([p], rest)
    | ',' :: r =>
      let (ps, rest) ← readPairs? fuel depth r
      return (p :: ps, rest)
    | _ => none

end

/-- One line of a document that says something. -/
inductive Line where
  | pair (path : List String) (v : Toml)
  | tableHeader (path : List String)
  | arrayHeader (path : List String)

/-- Reads a line that says something, and its end. -/
def readLine? (s : List Char) : Option (Line × List Char) := do
  let (line, rest) ← match s with
    | '[' :: '[' :: r => do
      let (path, r) ← readPath? r
      let .cons ']' (.cons ']' rest) := r | none
      pure (.arrayHeader path, rest)
    | '[' :: r => do
      let (path, r) ← readPath? r
      let .cons ']' rest := r | none
      pure (.tableHeader path, rest)
    | s => do
      let ((path, v), rest) ← readPair? (2 * s.length + 2) 0 s
      pure (Line.pair path v, rest)
  return (line, ← skipLineEnd? rest)

/-- Reads the lines of a document up to its end. -/
def readDocument? : (fuel : Nat) → List Char → Option (List Line)
  | 0, _ => none
  | fuel + 1, s =>
    match skipFiller s.length s with
    | [] => some []
    | '#' :: r => if (skipComment ('#' :: r)).isEmpty then some [] else none
    | s => do
      let (line, rest) ← readLine? s
      return line :: (← readDocument? fuel rest)

/-- The members of a document after some lines, with the path of the table that is open. -/
def build? (ms : Members) (opened : List String) : List Line → Option Members
  | [] => some ms
  | .pair path v :: lines => do
    build? (← changeAt false opened (insertPair path v) .header ms) opened lines
  | .tableHeader path :: lines => do build? (← openTable path ms) path lines
  | .arrayHeader path :: lines => do build? (← openArrayItem path ms) path lines

/-- The members of the document that a text writes. A byte order mark before it is left out. -/
def ofText? (s : String) : Option Members := do
  let cs := match s.toList with
    | '\uFEFF' :: r => r
    | cs => cs
  build? [] [] (← readDocument? (cs.length + 1) cs)

end OrgTree.Toml
