import OrgTree.Id

/-!
# Errors of a store

Why a store refuses an operation, and the words for it.

A creation that runs out of numbers is no refusal: the program ends at the addition. It is an error
here as well, which nothing catches, so that what was done before is still there to be looked at.
-/

namespace OrgTree

/-- A row of a store by its kind and identifier. -/
inductive RowName where
  | unitType (id : UnitTypeId)
  | groupSet (id : GroupSetId)
  | group (id : GroupId)
  | unit (id : UnitId)
deriving DecidableEq, Repr

/-- What a unit refers to within its version. -/
inductive Referent where
  | parent (id : UnitId)
  | group (id : GroupId)
deriving DecidableEq, Repr

/-- What is wrong with a parent. -/
inductive ParentFault where
  | missing
  | descendant
deriving DecidableEq, Repr

/-- A reference that leads nowhere. -/
inductive Dangling where
  | groupSet (group : GroupId) (set : GroupSetId)
  | unitType (unit : UnitId) (type : UnitTypeId)
  /-- A reference that some other source reports, in its own words. -/
  | reported (words : String)
deriving DecidableEq, Repr

/-- Why a store refuses an operation. -/
inductive StoreError where
  | unitNotFound (id : UnitId)
  | groupNotFound (id : GroupId)
  | versionMismatch (what : Referent) (expected actual : VersionId)
  | invalidParent (unit parent : UnitId) (fault : ParentFault)
  | duplicateId (row : RowName)
  | danglingReference (what : Dangling)
  /-- A text that is no document. -/
  | serialization
  /-- A file that cannot be read or written, in the words of the system. -/
  | file (words : String)
  /-- No answer of a store: the identifier after the greatest one is no number of 64 bits, and the
  addition ends the program. -/
  | overflow
deriving DecidableEq, Repr

/-- The words for a row. -/
def RowName.message : RowName → String
  | .unitType id => "org unit type " ++ id.toText
  | .groupSet id => "group set " ++ id.toText
  | .group id => "group " ++ id.toText
  | .unit id => "org unit " ++ id.toText

/-- The words for a referent. -/
def Referent.message : Referent → String
  | .parent id => "parent " ++ id.toText
  | .group id => "group " ++ id.toText

/-- The words for what is wrong with a parent. -/
def ParentFault.message : ParentFault → String
  | .missing => "parent does not exist"
  | .descendant => "parent is a descendant of the unit"

/-- The words for a reference that leads nowhere. -/
def Dangling.message : Dangling → String
  | .groupSet g s => "group " ++ g.toText ++ " references unknown group set " ++ s.toText
  | .unitType u t => "org unit " ++ u.toText ++ " has unknown type " ++ t.toText
  | .reported words => words

/-- The words for an error. -/
def StoreError.message : StoreError → String
  | .unitNotFound id => "org unit not found: " ++ id.toText
  | .groupNotFound id => "group not found: " ++ id.toText
  | .versionMismatch what expected actual =>
    what.message ++ " belongs to version " ++ actual.toText ++ ", expected version "
      ++ expected.toText
  | .invalidParent unit parent fault =>
    "invalid parent " ++ parent.toText ++ " for org unit " ++ unit.toText ++ ": " ++ fault.message
  | .duplicateId row => "duplicate id: " ++ row.message
  | .danglingReference what => "dangling reference: " ++ what.message
  | .serialization => "serialization error"
  | .file words => "I/O error: " ++ words
  | .overflow => "attempt to add with overflow"

end OrgTree
