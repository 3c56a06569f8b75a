/-!
# Failures

A failure has a kind, a message and fields in the order in which they were attached. The failures
behind it are listed from the nearest to the furthest, so a chain of causes is a list and not a
tree. Behind the last of them there may be an error of the surroundings, of which only its text is
known.

An operation that walks untrusted data, or that waits for a worker, may also never return. And where
a sum of two machine words is no machine word, the program breaks off if it was built to check for
that (`Overflow`). `Stop` keeps the ways of not giving a result apart: only a failure is reported.

What is held in memory is never more than a machine word can count. All other sums are taken without
bound, and what that leaves out is said where they are defined.
-/

namespace Rankwise

/-- The broad class of a failure. -/
inductive Failure.Kind where
  | general
  | invalidInput
  | plan
  | backend
  | remote
  | protocol
  | internal
  | io
deriving DecidableEq, Repr

namespace Failure.Kind

/-- The name of the class, as it is shown and as it travels between processes. -/
def name : Kind → String
  | general => "General"
  | invalidInput => "InvalidInput"
  | plan => "Plan"
  | backend => "Backend"
  | remote => "Remote"
  | protocol => "Protocol"
  | internal => "Internal"
  | io => "Io"

/-- The class with the given name. A name of no class stands for the general one. -/
def ofName : String → Kind
  | "InvalidInput" => invalidInput
  | "Plan" => plan
  | "Backend" => backend
  | "Remote" => remote
  | "Protocol" => protocol
  | "Internal" => internal
  | "Io" => io
  | _ => general

/-- A class is found again by its name. -/
@[simp] theorem ofName_name (kind : Kind) : ofName kind.name = kind := by
  cases kind <;> rfl

end Failure.Kind

/-- What a failure itself says, without its causes. -/
structure Report where
  /-- The class of the failure. -/
  kind : Failure.Kind := .general
  /-- The message for people. -/
  message : String
  /-- Further facts, in the order in which they were attached. A key may occur more than once. -/
  fields : List (String × String) := []
deriving DecidableEq, Repr

namespace Report

/-- The value of the first field with the given key. -/
def field? (report : Report) (key : String) : Option String :=
  report.fields.lookup key

/-- The message, followed by one indented line per field. -/
def text (report : Report) : String :=
  report.fields.foldl (fun shown (key, value) => shown ++ "\n  " ++ key ++ ": " ++ value)
    report.message

end Report

/-- A report together with what lies behind it. -/
structure Failure extends Report where
  /-- The failures behind this one, the nearest first. -/
  causes : List Report := []
  /-- The text of the foreign error behind the last failure, if there is one. -/
  origin : Option String := none
deriving DecidableEq, Repr

namespace Failure

/-- Attaches a field behind the ones already there. -/
def withField (failure : Failure) (key value : String) : Failure :=
  { failure with fields := failure.fields ++ [(key, value)] }

/-- The same failure in another class. -/
def withKind (failure : Failure) (kind : Kind) : Failure :=
  { failure with kind := kind }

/-- Puts `cause` behind the failure, in place of whatever was there. -/
def causedBy (failure cause : Failure) : Failure :=
  { failure with causes := cause.toReport :: cause.causes, origin := cause.origin }

/-- A failure with a foreign error behind it, of which only the text is known. -/
def ofForeign (message text : String) : Failure :=
  { message, origin := some text }

/-- An error of reading or writing outside the program. -/
def ofInputOutput (text : String) : Failure :=
  (ofForeign "IO error" text).withKind .io

/-- Reports `message` with this failure behind it. -/
def inContext (failure : Failure) (message : String) : Failure :=
  causedBy { message } failure

/-- A value that has to be there is not. -/
def missing (what : String) : Failure :=
  { kind := .internal, message := "Missing required value: " ++ what }

/-- A wish that is understood but not served. -/
def unsupported (what : String) : Failure :=
  { message := "Not implemented: " ++ what }

/-- The texts of the report and of everything behind it, each cause on a line that announces it. -/
def text (failure : Failure) : String :=
  "\nError source: ".intercalate
    (failure.toReport.text :: (failure.causes.map Report.text ++ failure.origin.toList))

/-- Adding a cause does not change what the failure itself says. -/
@[simp] theorem toReport_causedBy (failure cause : Failure) :
    (failure.causedBy cause).toReport = failure.toReport := rfl

/-- The causes of the cause come behind the cause. -/
@[simp] theorem causes_causedBy (failure cause : Failure) :
    (failure.causedBy cause).causes = cause.toReport :: cause.causes := rfl

/-- A fact is attached behind those that are there. -/
@[simp] theorem fields_withField (failure : Failure) (key value : String) :
    (failure.withField key value).fields = failure.fields ++ [(key, value)] := rfl

end Failure

/-- Why an operation gives no result: it failed, it runs without end, or it broke off at a sum that
is too large for a machine word. -/
inductive Stop where
  | failed (failure : Failure)
  | unending
  | overflow
deriving DecidableEq, Repr

/-- What becomes of a sum that is too large for a machine word. This is settled when the program is
built. -/
inductive Overflow where
  /-- Nothing is checked, and the sum starts again at zero. -/
  | wraps
  /-- Sums are checked, and the program breaks off. -/
  | stops
deriving DecidableEq, Repr

namespace Overflow

variable {first second : Nat}

/-- The sum of two machine words. -/
def add (overflow : Overflow) (first second : Nat) : Except Stop Nat :=
  if first + second < 0x10000000000000000 then .ok (first + second)
  else match overflow with
    | wraps => .ok ((first + second) % 0x10000000000000000)
    | stops => .error .overflow

/-- A sum that is a machine word is the same in every build. -/
theorem add_of_fits (overflow : Overflow) (fits : first + second < 0x10000000000000000) :
    overflow.add first second = .ok (first + second) := if_pos fits

/-- Where nothing is checked there always is a sum. -/
theorem wraps_add (first second : Nat) :
    wraps.add first second = .ok ((first + second) % 0x10000000000000000) := by
  rw [add]
  split
  case isTrue fits => rw [Nat.mod_eq_of_lt fits]
  case isFalse => rfl

/-- Where a sum is given, it is the remainder that a machine word can hold. -/
theorem add_eq_ok {overflow : Overflow} {sum : Nat} (added : overflow.add first second = .ok sum) :
    sum = (first + second) % 0x10000000000000000 := by
  by_cases fits : first + second < 0x10000000000000000
  · cases (overflow.add_of_fits fits).symm.trans added
    exact (Nat.mod_eq_of_lt fits).symm
  · cases overflow with
    | wraps => exact (Except.ok.inj ((wraps_add first second).symm.trans added)).symm
    | stops => cases (if_neg fits).symm.trans added

/-- A sum fails only where sums are checked and if it is too large. -/
theorem add_eq_error {overflow : Overflow} {stop : Stop}
    (failed : overflow.add first second = .error stop) :
    stop = .overflow ∧ overflow = .stops ∧ ¬ first + second < 0x10000000000000000 := by
  cases overflow with
  | wraps => cases (wraps_add first second).symm.trans failed
  | stops =>
    rw [add] at failed
    split at failed <;> cases failed
    exact ⟨rfl, rfl, by assumption⟩

/-- Where sums are checked the program breaks off at one that is too large. -/
theorem stops_add (large : ¬ first + second < 0x10000000000000000) :
    stops.add first second = .error .overflow := if_neg large

end Overflow

/-- An operation that can only fail is one that also might never return. -/
instance : MonadLift (Except Failure) (Except Stop) where
  monadLift
    | .ok value => .ok value
    | .error failure => .error (.failed failure)

instance {m : Type → Type} [Monad m] : MonadLift (Except Failure) (ExceptT Stop m) where
  monadLift
    | .ok value => ExceptT.mk (pure (.ok value))
    | .error failure => ExceptT.mk (pure (.error (.failed failure)))

instance {m : Type → Type} [Monad m] : MonadLift (Except Stop) (ExceptT Stop m) where
  monadLift result := ExceptT.mk (pure result)

end Rankwise
