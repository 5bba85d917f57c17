import OrgTree.Json.Decode
import OrgTree.Text.Blank
import OrgTree.Text.Numeral

/-!
# Local identifiers

Rows of a store are named by unsigned numbers of 64 bits, one numbering for each kind of row. A
local identifier means something in its own store only; units of two versions are matched by their
source reference instead.
-/

namespace OrgTree

/-- What an identifier names. -/
inductive IdKind where
  | version
  | unit
  | group
  | groupSet
  | unitType
deriving DecidableEq, Repr

/-- The name of an identifier's kind in debugging output. -/
def IdKind.label : IdKind → String
  | .version => "VersionId"
  | .unit => "UnitId"
  | .group => "GroupId"
  | .groupSet => "GroupSetId"
  | .unitType => "OrgUnitTypeId"

/-- An identifier of one kind. -/
structure Id (kind : IdKind) where
  number : UInt64
deriving DecidableEq, Repr

abbrev VersionId := Id .version
abbrev UnitId := Id .unit
abbrev GroupId := Id .group
abbrev GroupSetId := Id .groupSet
abbrev UnitTypeId := Id .unitType

namespace Id

variable {kind : IdKind}

/-- Identifiers are ordered by their numbers. -/
instance : LT (Id kind) where
  lt a b := a.number < b.number

instance (a b : Id kind) : Decidable (a < b) :=
  inferInstanceAs (Decidable (a.number < b.number))

/-- The identifier with the next number, if that is a number of 64 bits. -/
def next? (i : Id kind) : Option (Id kind) :=
  if i.number.toNat + 1 < UInt64.size then some ⟨i.number + 1⟩ else none

/-- The decimal numeral of an identifier. -/
def toText (i : Id kind) : String :=
  Text.showUInt64 i.number

/-- The numeral after the name of the kind, in parentheses. -/
def debugText (i : Id kind) : String :=
  kind.label ++ "(" ++ i.toText ++ ")"

/-- The identifier that a numeral names, blanks around it left out. -/
def ofText? (s : String) : Option (Id kind) :=
  (Text.readUInt64? (Text.trim s)).map Id.mk

/-- What is said about a text that names no identifier, its blanks included. -/
def refusal (s : String) : String :=
  "invalid identifier: " ++ s

/-- The JSON form of an identifier, a whole number. -/
def toJson (i : Id kind) : Json :=
  .ofNat i.number.toNat

/-- Reads an identifier from a whole number. -/
def ofJson? : Json.Decoder (Id kind) := fun j =>
  (Json.uint64 j).map Id.mk

theorem ext_number {a b : Id kind} (h : a.number = b.number) : a = b := by
  cases a; cases b; simp_all

theorem lt_iff_toNat {a b : Id kind} : a < b ↔ a.number.toNat < b.number.toNat := by
  show a.number < b.number ↔ _
  exact UInt64.lt_iff_toNat_lt

end Id

end OrgTree
