import OrgTree.Json.Reader

/-!
# Texts, keys and comments of TOML documents

Four kinds of texts: basic ones with escapes and literal ones without, each on one line or over
several. A line break is one line feed, however it is written.

## Main definitions

- `readText?`: a text of any kind
- `readPath?`: one or more keys with dots between them
- `depthLimit`: how deep paths and values may go
- `skipLineEnd?`: the rest of a line after a value
-/

namespace OrgTree.Toml

/-- Space and tab. -/
def isSpace (c : Char) : Bool :=
  c = ' ' || c = '\t'

/-- The text from the first character that is no space or tab. -/
def skipSpace (s : List Char) : List Char :=
  s.dropWhile isSpace

/-- Characters that may stand in comments and texts: no controls but the tab. -/
def isPrintable (c : Char) : Bool :=
  c = '\t' || (' ' ≤ c && c ≠ '\x7f')

/-- The text after a line break, if it starts with one. -/
def newline? : List Char → Option (List Char)
  | '\n' :: r => some r
  | '\r' :: '\n' :: r => some r
  | _ => none

/-- The text after a comment, if one stands here. -/
def skipComment (s : List Char) : List Char :=
  match s with
  | '#' :: r => r.dropWhile isPrintable
  | s => s

/-- The text of the next line, if nothing but a comment is left on this one. -/
def skipLineEnd? (s : List Char) : Option (List Char) :=
  match skipComment (skipSpace s) with
  | [] => some []
  | rest => newline? rest

/-- The text after spaces, line breaks and comments. -/
def skipFiller : (fuel : Nat) → List Char → List Char
  | 0, s => s
  | fuel + 1, s =>
    let rest := skipComment (skipSpace s)
    match newline? rest with
    | some next => skipFiller fuel next
    | none => skipSpace s

/-- The number that hexadecimal digits name. -/
def natOfHex? (ds : List Char) : Option Nat :=
  ds.foldlM (fun n c => (Json.hexDigit? c).map (16 * n + ·)) 0

/-- The character with this number in hexadecimal digits. -/
def scalar? (ds : List Char) : Option Char := do
  let n ← natOfHex? ds
  if n.isValidChar then some (Char.ofNat n) else none

/-- The character that an escape of one letter stands for. -/
def escape? (c : Char) : Option Char :=
  if c = 'b' then some '\x08'
  else if c = 't' then some '\t'
  else if c = 'n' then some '\n'
  else if c = 'f' then some '\x0c'
  else if c = 'r' then some '\r'
  else if c = '"' then some '"'
  else if c = '\\' then some '\\'
  else none

/-- Reads an escape after its backslash. -/
def readEscape? : List Char → Option (Char × List Char)
  | [] => none
  | c :: r =>
    let width := if c = 'u' then 4 else if c = 'U' then 8 else 0
    if width = 0 then (escape? c).map (·, r)
    else if r.length < width then none
    else (scalar? (r.take width)).map (·, r.drop width)

/-- Reads a basic text on one line after its opening quote. -/
def readBasic? : (fuel : Nat) → List Char → Option (List Char × List Char)
  | 0, _ => none
  | _, [] => none
  | fuel + 1, c :: r =>
    if c = '"' then some ([], r)
    else if c = '\\' then do
      let (e, r) ← readEscape? r
      let (cs, rest) ← readBasic? fuel r
      return (e :: cs, rest)
    else if isPrintable c then (readBasic? fuel r).map fun (cs, rest) => (c :: cs, rest)
    else none

/-- Reads a literal text on one line after its opening quote. -/
def readLiteral? : List Char → Option (List Char × List Char)
  | [] => none
  | c :: r =>
    if c = '\'' then some ([], r)
    else if isPrintable c then (readLiteral? r).map fun (cs, rest) => (c :: cs, rest)
    else none

/-- The text after spaces, tabs and line breaks. -/
def skipBlankLines : List Char → List Char
  | '\r' :: '\n' :: r => skipBlankLines r
  | c :: r => if isSpace c || c = '\n' then skipBlankLines r else c :: r
  | [] => []

/-- The text after an escaped line break and all blanks that follow it, if the backslash before
stands at the end of a line. -/
def escapedNewline? (s : List Char) : Option (List Char) :=
  (newline? (skipSpace s)).map skipBlankLines

/-- Reads a text over several lines after its opening quotes, up to the first three closing ones.
Up to two more quotes directly before those belong to the text. -/
def readLines? (quote : Char) (escapes : Bool) : (fuel : Nat) → List Char →
    Option (List Char × List Char)
  | 0, _ => none
  | _, [] => none
  | fuel + 1, c :: r =>
    if c = quote then
      let run := ((c :: r).takeWhile (· = quote)).length
      let rest := (c :: r).drop run
      if run < 3 then
        (readLines? quote escapes fuel rest).map fun (cs, rest) =>
          (List.replicate run quote ++ cs, rest)
      else if run ≤ 5 then some (List.replicate (run - 3) quote, rest)
      else none
    else if escapes && c = '\\' then
      match escapedNewline? r with
      | some r => readLines? quote escapes fuel r
      | none => do
        let (e, r) ← readEscape? r
        let (cs, rest) ← readLines? quote escapes fuel r
        return (e :: cs, rest)
    else
      match newline? (c :: r) with
      | some r => (readLines? quote escapes fuel r).map fun (cs, rest) => ('\n' :: cs, rest)
      | none =>
        if isPrintable c then
          (readLines? quote escapes fuel r).map fun (cs, rest) => (c :: cs, rest)
        else none

/-- The text without a line break at its start. -/
def afterNewline (s : List Char) : List Char :=
  (newline? s).getD s

/-- Reads a text of any kind. -/
def readText? (s : List Char) : Option (String × List Char) :=
  let chars := match s with
    | '"' :: '"' :: '"' :: r => readLines? '"' true (r.length + 1) (afterNewline r)
    | '\'' :: '\'' :: '\'' :: r => readLines? '\'' false (r.length + 1) (afterNewline r)
    | '"' :: r => readBasic? (r.length + 1) r
    | '\'' :: r => readLiteral? r
    | _ => none
  chars.map fun (cs, rest) => (String.ofList cs, rest)

/-- Characters of a key without quotes. -/
def isBare (c : Char) : Bool :=
  c.isAlphanum || c = '_' || c = '-'

/-- Reads a key. -/
def readKey? (s : List Char) : Option (String × List Char) :=
  match s with
  | '"' :: r => (readBasic? (r.length + 1) r).map fun (cs, rest) => (String.ofList cs, rest)
  | '\'' :: r => (readLiteral? r).map fun (cs, rest) => (String.ofList cs, rest)
  | s =>
    match s.takeWhile isBare with
    | [] => none
    | cs => some (String.ofList cs, s.drop cs.length)

/-- Reads keys with dots between them, spaces around each left out. -/
def readKeys? : (fuel : Nat) → List Char → Option (List String × List Char)
  | 0, _ => none
  | fuel + 1, s => do
    let (key, r) ← readKey? (skipSpace s)
    match skipSpace r with
    | '.' :: r =>
      let (keys, rest) ← readKeys? fuel r
      return (key :: keys, rest)
    | rest => return ([key], rest)

/-- How deep a document may go: the most keys in one path, and the most arrays and tables between
braces inside each other. -/
def depthLimit : Nat := 79

/-- Reads a path: keys with dots between them, at least one and no more than the limit. -/
def readPath? (s : List Char) : Option (List String × List Char) := do
  let (keys, rest) ← readKeys? (s.length + 1) s
  if keys.length ≤ depthLimit then some (keys, rest) else none

end OrgTree.Toml
