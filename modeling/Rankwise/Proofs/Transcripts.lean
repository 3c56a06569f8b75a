import Rankwise.Group.Dialogue

/-!
# Transcripts

A transcript lists what was asked of the outside, each request with its answer. Nothing is assumed
of the answers: whatever the outside does, some transcript tells it. `Dialogue.Conducted` tells what
a dialogue comes to with a transcript, part by part (`conducted_bind`).
-/

namespace Rankwise

/-- A request to the outside with its answer. -/
inductive Inquiry where
  | launch (spawner : SpawnerId) (request : LaunchRequest) (answer : Except Failure Link)
  | send (link : Link) (rank : Nat) (message : Message) (answer : Except Failure Unit)
  | receive (link : Link) (rank : Nat) (answer : Except Failure Message)
  | shutdown (link : Link) (answer : Except Failure Unit)

namespace Inquiry

/-- Whether the answer was a failure. -/
def hasFailed : Inquiry → Bool
  | launch _ _ (.error _) | send _ _ _ (.error _) | receive _ _ (.error _)
  | shutdown _ (.error _) => true
  | _ => false

/-- Whether talk with a rank has failed. -/
def breaks : Inquiry → Bool
  | send _ _ _ (.error _) | receive _ _ (.error _) => true
  | _ => false

/-- The inquiry is talk with a rank over a connection, and what is said satisfies `may`. -/
def IsTalk (may : Message → Prop) (link : Link) : Inquiry → Prop
  | send along _ message _ => along = link ∧ may message
  | receive along _ _ => along = link
  | _ => False

/-- Talk stays talk if more may be said. -/
theorem IsTalk.mono {may other : Message → Prop} {link : Link} {inquiry : Inquiry}
    (talks : inquiry.IsTalk may link) (weaker : ∀ message, may message → other message) :
    inquiry.IsTalk other link := by
  cases inquiry with
  | send along rank message answer => exact ⟨talks.1, weaker message talks.2⟩
  | receive along rank answer => exact talks
  | launch spawner request answer => exact talks
  | shutdown along answer => exact talks

end Inquiry

/-- What was asked of the outside, with the answers, in order. -/
abbrev Transcript := List Inquiry

/-- Whether some answer was a failure. -/
def Transcript.hasFailed (transcript : Transcript) : Bool := transcript.any Inquiry.hasFailed

/-- Something has failed in two parts if it has in one of them. -/
theorem Transcript.hasFailed_append (first second : Transcript) :
    Transcript.hasFailed (first ++ second) = (first.hasFailed || second.hasFailed) :=
  List.any_append

namespace Dialogue

variable {α β : Type}

/-- With the transcript, the dialogue comes to the value. -/
inductive Conducted : Dialogue α → Transcript → α → Prop
  | done (value : α) : Conducted (.done value) [] value
  | launch (spawner : SpawnerId) (request : LaunchRequest)
      (next : Except Failure Link → Dialogue α) (answer : Except Failure Link)
      {transcript : Transcript} {value : α} (later : Conducted (next answer) transcript value) :
      Conducted (.launch spawner request next) (.launch spawner request answer :: transcript) value
  | send (link : Link) (rank : Nat) (message : Message)
      (next : Except Failure Unit → Dialogue α) (answer : Except Failure Unit)
      {transcript : Transcript} {value : α} (later : Conducted (next answer) transcript value) :
      Conducted (.send link rank message next) (.send link rank message answer :: transcript) value
  | receive (link : Link) (rank : Nat) (next : Except Failure Message → Dialogue α)
      (answer : Except Failure Message) {transcript : Transcript} {value : α}
      (later : Conducted (next answer) transcript value) :
      Conducted (.receive link rank next) (.receive link rank answer :: transcript) value
  | shutdown (link : Link) (next : Except Failure Unit → Dialogue α)
      (answer : Except Failure Unit) {transcript : Transcript} {value : α}
      (later : Conducted (next answer) transcript value) :
      Conducted (.shutdown link next) (.shutdown link answer :: transcript) value

/-- A dialogue is conducted part by part. -/
theorem conducted_bind (dialogue : Dialogue α) (continuation : α → Dialogue β)
    (transcript : Transcript) (result : β) :
    (dialogue.bind continuation).Conducted transcript result ↔
      ∃ first value second, transcript = first ++ second ∧ dialogue.Conducted first value ∧
        (continuation value).Conducted second result := by
  constructor
  · intro conducted
    induction dialogue generalizing transcript with
    | done value => exact ⟨[], value, transcript, rfl, .done value, conducted⟩
    | launch spawner request next inductionHypothesis =>
      cases conducted with
      | launch _ _ _ answer later =>
        obtain ⟨first, value, second, rfl, begun, ended⟩ := inductionHypothesis answer _ later
        exact ⟨_ :: first, value, second, rfl, .launch _ _ _ answer begun, ended⟩
    | send link rank message next inductionHypothesis =>
      cases conducted with
      | send _ _ _ _ answer later =>
        obtain ⟨first, value, second, rfl, begun, ended⟩ := inductionHypothesis answer _ later
        exact ⟨_ :: first, value, second, rfl, .send _ _ _ _ answer begun, ended⟩
    | receive link rank next inductionHypothesis =>
      cases conducted with
      | receive _ _ _ answer later =>
        obtain ⟨first, value, second, rfl, begun, ended⟩ := inductionHypothesis answer _ later
        exact ⟨_ :: first, value, second, rfl, .receive _ _ _ answer begun, ended⟩
    | shutdown link next inductionHypothesis =>
      cases conducted with
      | shutdown _ _ answer later =>
        obtain ⟨first, value, second, rfl, begun, ended⟩ := inductionHypothesis answer _ later
        exact ⟨_ :: first, value, second, rfl, .shutdown _ _ answer begun, ended⟩
  · rintro ⟨first, value, second, rfl, begun, ended⟩
    induction begun with
    | done value => exact ended
    | launch spawner request next answer _ inductionHypothesis =>
      exact .launch _ _ _ answer (inductionHypothesis ended)
    | send link rank message next answer _ inductionHypothesis =>
      exact .send _ _ _ _ answer (inductionHypothesis ended)
    | receive link rank next answer _ inductionHypothesis =>
      exact .receive _ _ _ answer (inductionHypothesis ended)
    | shutdown link next answer _ inductionHypothesis =>
      exact .shutdown _ _ answer (inductionHypothesis ended)

/-- A dialogue that is over asks nothing more. -/
theorem conducted_done (value result : α) (transcript : Transcript) :
    (done value).Conducted transcript result ↔ transcript = [] ∧ result = value := by
  constructor
  · intro conducted
    cases conducted
    exact ⟨rfl, rfl⟩
  · rintro ⟨rfl, rfl⟩
    exact .done _

/-- A dialogue that asks for nothing, where a value comes with a state. -/
theorem Conducted.of_done {value result : α} {state last : β} {transcript : Transcript}
    (conducted : (Dialogue.done (value, state)).Conducted transcript (result, last)) :
    transcript = [] ∧ result = value ∧ last = state := by
  obtain ⟨rfl, same⟩ := (conducted_done _ _ _).mp conducted
  exact ⟨rfl, Prod.mk.inj same⟩

end Dialogue

end Rankwise
