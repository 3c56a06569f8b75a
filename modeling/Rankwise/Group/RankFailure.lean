import Rankwise.Failure

/-!
# Failures of ranks

A computation may fail on some ranks and not on others. Each rank reports its failure without the
causes behind it, and the coordinator combines the reports into one result: the common failure if
all ranks failed in the same way, and otherwise a failure behind which the failures of the ranks are
listed, the highest rank first, each with its rank.
-/

namespace Rankwise

/-- The failure of a computation on one rank, in the form in which it leaves the worker. -/
structure RankFailure where
  kind : String
  message : String
  fields : List (String × String)
deriving DecidableEq, Repr

namespace RankFailure

/-- The report of a failure, without what lies behind it. -/
def ofFailure (failure : Failure) : RankFailure where
  kind := failure.kind.name
  message := failure.message
  fields := failure.fields

/-- The failure that was reported. -/
def toFailure (report : RankFailure) : Failure where
  kind := .ofName report.kind
  message := report.message
  fields := report.fields

/-- The report on one line. -/
def text (report : RankFailure) : String := report.kind ++ ": " ++ report.message

/-- Whether two ranks failed in the same way, whatever their fields say. -/
def SameFailure (a b : RankFailure) : Prop := a.kind = b.kind ∧ a.message = b.message

instance (a b : RankFailure) : Decidable (SameFailure a b) :=
  inferInstanceAs (Decidable (_ ∧ _))

/-- The failure of a rank, with the rank attached. -/
def onRank (report : RankFailure) (rank : Nat) : Failure :=
  report.toFailure.withField "rank" (toString rank)

/-- The failures of the ranks that failed, each with its rank, by increasing rank. -/
def failing (statuses : List (Option RankFailure)) : List Failure :=
  statuses.zipIdx.filterMap fun (status, rank) => status.map fun report => report.onRank rank

/-- Puts each failure behind the next one and gives the last. -/
def chain : List Failure → Option Failure
  | [] => none
  | first :: rest => some (rest.foldl (fun behind failure => failure.causedBy behind) first)

/-- Some ranks failed, and not all of them in the same way. -/
def someFailed (failures : List Failure) : Failure :=
  let failure : Failure :=
    { kind := .remote, message := "Some ranks failed",
      fields := [("failed_ranks", toString failures.length)] }
  match chain failures with
  | some behind => failure.causedBy behind
  | none => failure

/-- The common failure of all ranks, if there are ranks and all failed in the same way. -/
def common? (statuses : List (Option RankFailure)) : Option RankFailure :=
  match statuses with
  | some first :: rest =>
    if rest.all fun status => status.any fun report => decide (SameFailure report first)
    then some first else none
  | _ => none

/-- Combines what the ranks reported, indexed by rank. -/
def combine (statuses : List (Option RankFailure)) : Except Failure Unit :=
  if statuses.all Option.isNone then .ok ()
  else match common? statuses with
    | some report => .error report.toFailure
    | none => .error (someFailed (failing statuses))

end RankFailure

end Rankwise
