/-!
# Blank characters and trimmed text

White space is the Unicode property of that name, 25 characters in ten ranges. A text is blank
when it holds nothing else; such a text is no source reference to match units by.

## Main definitions

- `isBlank`: the white space characters
- `trim`: a text without the white space at its two ends
- `IsBlank`: a text of white space only, the empty text included
- `nonBlank?`: keeps a text that says something
-/

namespace OrgTree.Text

/-- Closed ranges of code points with the property White_Space, ascending and apart. -/
def blankRanges : List (Nat × Nat) :=
  [(0x09, 0x0D), (0x20, 0x20), (0x85, 0x85), (0xA0, 0xA0), (0x1680, 0x1680), (0x2000, 0x200A),
    (0x2028, 0x2029), (0x202F, 0x202F), (0x205F, 0x205F), (0x3000, 0x3000)]

/-- Whether a code point lies in one of the closed ranges. -/
def inRanges (ranges : List (Nat × Nat)) (n : Nat) : Bool :=
  ranges.any fun r => r.1 ≤ n && n ≤ r.2

/-- White space characters. -/
def isBlank (c : Char) : Bool :=
  inRanges blankRanges c.toNat

/-- The characters of a text without the white space at its two ends. -/
def trimmed (cs : List Char) : List Char :=
  ((cs.dropWhile isBlank).reverse.dropWhile isBlank).reverse

/-- The text without the white space at its two ends. -/
def trim (s : String) : String :=
  String.ofList (trimmed s.toList)

/-- A text of white space only, the empty text included. -/
def IsBlank (s : String) : Prop :=
  ∀ c ∈ s.toList, isBlank c = true

instance (s : String) : Decidable (IsBlank s) :=
  decidable_of_iff (s.toList.all isBlank = true) List.all_eq_true

/-- The text, unless it is blank. -/
def nonBlank? (s : String) : Option String :=
  if IsBlank s then none else some s

theorem isBlank_empty : IsBlank "" := by
  intro c hc; simp at hc

theorem nonBlank?_eq_some_iff {s t : String} : nonBlank? s = some t ↔ ¬ IsBlank s ∧ s = t := by
  unfold nonBlank?
  split <;> simp_all

theorem nonBlank?_eq_none_iff {s : String} : nonBlank? s = none ↔ IsBlank s := by
  unfold nonBlank?
  split <;> simp_all

end OrgTree.Text
