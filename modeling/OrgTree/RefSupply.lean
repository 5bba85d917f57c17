import OrgTree.Id
import OrgTree.Uid

/-!
# Supply of generated references

Runs draw new source references for units that have none. A supply answers the `n`-th draw of a
run, made for a certain unit; which references it hands out is its own affair.
-/

namespace OrgTree

/-- The reference for the `n`-th draw, made for this unit. -/
abbrev RefSupply := Nat → UnitId → String

namespace RefSupply

/-- The first `n` numbers of a generator. -/
def numbers : (n : Nat) → StdGen → List Nat
  | 0, _ => []
  | n + 1, g =>
    let (x, g) := stdNext g
    x :: numbers n g

/-- Identifiers that look random, different for different seeds. -/
def seeded (seed : Nat) : RefSupply := fun draw _ =>
  match numbers Uid.size (mkStdGen (seed + draw)) with
  | [] => Uid.ofIndices 0 []
  | first :: others => Uid.ofIndices first others

end RefSupply

end OrgTree
