import Rankwise.Group.Dialogue

/-!
# Workers that cannot be started

Workers that run as processes of their own are started from a program. Where there is no such
program no group is ever started, and each launch tells for every rank the same code of the system.
-/

namespace Rankwise

namespace Outside

/-- The code of the system for a file that is not there. -/
def noSuchFile : Nat := 2

/-- The workers were not started; one code is told for each rank. -/
def notLaunched (program : String) (codes : List Nat) : Failure where
  kind := .io
  message := "Failed to spawn worker processes"
  fields := [("executable", program),
    ("errcodes", "[" ++ ", ".intercalate (codes.map toString) ++ "]")]

/-- There is no connection, since no group was launched. -/
def nowhere : Failure := .missing "channel of the group"

/-- The outside where the program of the workers is not there. -/
def withoutProgram (program : String) : Outside Unit where
  launch _ request state :=
    some (.error (notLaunched program (List.replicate request.workers noSuchFile)), state)
  send _ _ _ state := some (.error nowhere, state)
  receive _ _ state := some (.error nowhere, state)
  shutdown _ state := some (.error nowhere, state)

end Outside

end Rankwise
