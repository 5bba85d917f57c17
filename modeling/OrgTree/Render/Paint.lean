import OrgTree.Text.Pieces

/-!
# Painted text

Terminal output may be painted with escape sequences. A painted text starts with the codes of its
style and ends with a reset; resets inside it are followed by the codes again, so that the style
lasts to the end.
-/

namespace OrgTree

/-- A style of painted text. -/
inductive Paint where
  | plain
  | bold
  | dimmed
  | red
  | green
  | yellow
  | cyan
  | boldGreen
  | boldYellow
deriving DecidableEq, Repr

namespace Paint

/-- The codes of a style, empty for plain text. -/
def codes : Paint → String
  | .plain => ""
  | .bold => "1"
  | .dimmed => "2"
  | .red => "31"
  | .green => "32"
  | .yellow => "33"
  | .cyan => "36"
  | .boldGreen => "1;32"
  | .boldYellow => "1;33"

/-- The sequence that ends a style. -/
def reset : List Char :=
  ['\x1b', '[', '0', 'm']

/-- The text with `codes` after every reset in it. -/
def renewed (codes : List Char) : List Char → List Char
  | '\x1b' :: '[' :: '0' :: 'm' :: r => reset ++ codes ++ renewed codes r
  | c :: r => c :: renewed codes r
  | [] => []

/-- The text in a style, or as it is if colors are off. -/
def apply (p : Paint) (colors : Bool) (s : String) : String :=
  if !colors || p = .plain then s
  else
    let start := '\x1b' :: '[' :: p.codes.toList ++ ['m']
    String.ofList (start ++ renewed start s.toList ++ reset)

end Paint

end OrgTree
