import OrgTree.Decimal.Layout
import OrgTree.Json.Basic

/-!
# Writing JSON

Both written forms come from one printer. They differ in what stands before an item or a closing
bracket and after a colon: nothing in the compact form, line breaks with two blanks a level and one
blank in the indented form. Members are written in the order in which the value has them.
-/

namespace OrgTree.Json

/-- The blanks of a written form. -/
structure Style where
  /-- What stands before an item or a closing bracket at this depth. -/
  gap : Nat → List Char
  /-- What stands between a key and its value. -/
  colon : List Char

/-- No blanks at all. -/
def Style.compact : Style :=
  ⟨fun _ => [], [':']⟩

/-- One item or member a line, indented by two blanks a level. -/
def Style.indented : Style :=
  ⟨fun depth => '\n' :: List.replicate (2 * depth) ' ', [':', ' ']⟩

/-- Reals keep a point, and have an exponent outside the range from 1e-5 to 1e16. -/
def realLayout : Decimal.Layout :=
  ⟨some (-5, 15), true, .toEven⟩

/-- Four lower case hexadecimal digits. -/
def hex4 (n : Nat) : List Char :=
  let cs := Nat.toDigits 16 n
  List.replicate (4 - cs.length) '0' ++ cs

/-- How one character stands inside a JSON string. -/
def escapedChar (c : Char) : List Char :=
  if c = '"' then ['\\', '"']
  else if c = '\\' then ['\\', '\\']
  else if c = '\n' then ['\\', 'n']
  else if c = '\r' then ['\\', 'r']
  else if c = '\t' then ['\\', 't']
  else if c = '\x08' then ['\\', 'b']
  else if c = '\x0c' then ['\\', 'f']
  else if c < ' ' then '\\' :: 'u' :: hex4 c.toNat
  else [c]

/-- The characters of a JSON string, quotes included. -/
def textChars (s : String) : List Char :=
  '"' :: s.toList.flatMap escapedChar ++ ['"']

/-- The characters of a number. -/
def Number.chars : Number → List Char
  | .whole n => (toString n).toList
  | .real x => if x.isNaN || x.isInf then ['n', 'u', 'l', 'l'] else realLayout.text x

mutual

/-- The characters of a value that starts at this depth. -/
def chars (style : Style) (depth : Nat) : Json → List Char
  | .null => ['n', 'u', 'l', 'l']
  | .unreadable => ['n', 'u', 'l', 'l']
  | .bool true => ['t', 'r', 'u', 'e']
  | .bool false => ['f', 'a', 'l', 's', 'e']
  | .num n => n.chars
  | .str s => textChars s
  | .arr [] => ['[', ']']
  | .arr (x :: xs) =>
    '[' :: style.gap (depth + 1) ++ chars style (depth + 1) x ++ itemsChars style (depth + 1) xs
      ++ style.gap depth ++ [']']
  | .obj [] => ['\x7b', '\x7d']
  | .obj ((k, v) :: ms) =>
    '\x7b' :: style.gap (depth + 1) ++ textChars k ++ style.colon ++ chars style (depth + 1) v
      ++ membersChars style (depth + 1) ms ++ style.gap depth ++ ['\x7d']

/-- The items after the first, each after a comma. -/
def itemsChars (style : Style) (depth : Nat) : List Json → List Char
  | [] => []
  | x :: xs => ',' :: style.gap depth ++ chars style depth x ++ itemsChars style depth xs

/-- The members after the first, each after a comma. -/
def membersChars (style : Style) (depth : Nat) : List (String × Json) → List Char
  | [] => []
  | (k, v) :: ms =>
    ',' :: style.gap depth ++ textChars k ++ style.colon ++ chars style depth v
      ++ membersChars style depth ms

end

/-- The text of a value without blanks. -/
def compact (j : Json) : String :=
  String.ofList (chars .compact 0 j)

/-- The text of a value over several lines. -/
def indented (j : Json) : String :=
  String.ofList (chars .indented 0 j)

end OrgTree.Json
