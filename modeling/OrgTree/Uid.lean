/-!
# Reference identifiers

The reference system accepts identifiers of eleven ASCII letters and digits that start with a
letter. Units without a source reference get a generated identifier of this shape.

## Main definitions

- `Uid.IsValid`: texts of this shape
- `Uid.ofIndices`: the identifier that a list of random numbers selects
-/

namespace OrgTree.Uid

/-- The number of characters of an identifier. -/
def size : Nat := 11

/-- The letters an identifier may start with. -/
def letters : List Char :=
  "abcdefghijklmnopqrstuvwxyzABCDEFGHIJKLMNOPQRSTUVWXYZ".toList

/-- The characters that may follow. -/
def alphanumerics : List Char :=
  letters ++ "0123456789".toList

/-- A text of eleven ASCII letters and digits that starts with a letter. -/
def isValid (s : String) : Bool :=
  match s.toList with
  | [] => false
  | c :: r => r.length + 1 == size && c.isAlpha && (c :: r).all Char.isAlphanum

/-- The texts that the reference system accepts as identifiers. -/
def IsValid (s : String) : Prop :=
  isValid s = true

/-- The identifier selected by eleven numbers, each taken modulo the size of its alphabet. -/
def ofIndices (first : Nat) (others : List Nat) : String :=
  let pick (alphabet : List Char) (n : Nat) : Char := (alphabet[n % alphabet.length]?).getD 'a'
  String.ofList (pick letters first :: (others.take (size - 1)).map (pick alphanumerics))

end OrgTree.Uid
