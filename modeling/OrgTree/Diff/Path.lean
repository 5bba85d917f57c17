import OrgTree.Text.Numeral
import OrgTree.Text.Pieces

/-!
# The order of paths

Paths are compared segment by segment, two numbers by value and other segments as texts, a path
before its extensions and a missing path after all others. Sorting items by their paths keeps the
order of items with equal paths.
-/

namespace OrgTree.Path

/-- Compares two segments: numbers by value, and texts if one of the two is no number. -/
def compareSegments (a b : String) : Ordering :=
  match Text.readUInt64? a, Text.readUInt64? b with
  | some m, some n => compare m.toNat n.toNat
  | _, _ => compare a b

/-- Compares two lists of segments; a list comes before its extensions. -/
def compareLists : List String → List String → Ordering
  | [], [] => .eq
  | [], _ :: _ => .lt
  | _ :: _, [] => .gt
  | a :: as, b :: bs =>
    match compareSegments a b with
    | .eq => compareLists as bs
    | o => o

/-- Compares two paths; a missing path comes last. -/
def compare : Option String → Option String → Ordering
  | none, none => .eq
  | none, some _ => .gt
  | some _, none => .lt
  | some a, some b => compareLists (Text.pieces '.' a) (Text.pieces '.' b)

variable {α : Type}

/-- Inserts an item into a list in descending order, before the first item that is not greater. -/
def insertDescending (path : α → Option String) (a : α) : List α → List α
  | [] => [a]
  | b :: bs =>
    if compare (path a) (path b) = .lt then b :: insertDescending path a bs else a :: b :: bs

/-- The items in the order of their paths; items with equal paths keep their order. -/
def sort (path : α → Option String) (items : List α) : List α :=
  (items.foldl (fun sorted a => insertDescending path a sorted) []).reverse

end OrgTree.Path
