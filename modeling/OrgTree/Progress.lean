/-!
# Progress reports

A long run reports its progress at fixed points, and whoever listens may answer that the run shall
stop. A `Listener` decides from everything reported so far.
-/

namespace OrgTree.Progress

/-- One report of a run. -/
structure Report where
  message : String
  /-- How far the phase has got, if known. -/
  value : Option Nat
  /-- Where the phase ends, if known. -/
  endValue : Option Nat
deriving DecidableEq, Repr

/-- Whether the run shall stop after these reports, oldest first, the latest included. -/
abbrev Listener := List Report → Bool

namespace Listener

/-- Never stops a run. -/
def patient : Listener :=
  fun _ => false

/-- Stops a run from its `n`-th report on. -/
def stoppingAt (n : Nat) : Listener :=
  fun reports => n ≤ reports.length

end Listener

/-- What a stopped run says. -/
def cancelledMessage : String :=
  "operation cancelled"

end OrgTree.Progress
