import Mathlib.Data.List.Basic
import Mathlib.Data.List.TakeWhile
import Rankwise.Group.Inbox

/-!
# What is received from each rank

Messages of all ranks arrive in one queue, and between them the notices that workers have closed
their sides, in any order; messages are awaited from the ranks in any order too. A call that awaits
a message of a rank goes past the messages of other ranks and puts them aside, up to a message of
its own rank, or else up to the first item that is no message of a rank of the group (`search_eq`).

Main statement (`received_in_order`): whatever arrives and is asked for in whatever order, the
messages that were received from a rank and those that are unread make up what has arrived from it,
in order. A call gives the first message of its rank that is at hand, which means that it was put
aside or lies in the queue before the first notice. Only if there is none the call meets the notice,
and what was at hand from other ranks is at hand then as well.
-/

namespace Rankwise

namespace Inbound

/-- The message, if it is one of this rank. -/
def messageOf? (rank : Nat) : Inbound → Option Message
  | message sender content => if sender = rank then some content else none
  | closed _ _ => none

/-- Whether this is a message of a rank of a group. -/
def isFromGroup (size : Nat) : Inbound → Bool
  | message sender _ => decide (sender < size)
  | closed _ _ => false

/-- Whether this is a message of another rank of the group. -/
def isOther (size rank : Nat) : Inbound → Bool
  | message sender _ => decide (sender < size) && decide (sender ≠ rank)
  | closed _ _ => false

end Inbound

namespace Inbox

/-- The messages of a rank that arrived and were not received, in order. -/
def unread (inbox : Inbox) (rank : Nat) : List Message :=
  (inbox.aside[rank]?).getD [] ++ inbox.queue.filterMap fun
    | .message sender message => if sender = rank then some message else none
    | .closed _ _ => none

/-- The messages of a rank among the items of a queue. -/
def messagesOf (rank : Nat) (queue : List Inbound) : List Message :=
  queue.filterMap (Inbound.messageOf? rank)

/-- The unread messages of a rank of a group that were put aside or that lie before the first item
that is no message of a rank of the group. -/
def atHand (inbox : Inbox) (size rank : Nat) : List Message :=
  (inbox.aside[rank]?).getD [] ++ messagesOf rank (inbox.queue.takeWhile (Inbound.isFromGroup size))

/-- Puts a message aside for its rank. -/
def putAside (aside : List (List Message)) : Inbound → List (List Message)
  | .message sender message => aside.modify sender (· ++ [message])
  | .closed _ _ => aside

/-- What comes of a search at the first item that it does not put aside. -/
def ending (rank : Nat) (isOpen : Bool) :
    List Inbound → List (List Message) → Option (Except Failure Message × Inbox)
  | [], aside => if isOpen then none else some (.error disconnected, { aside })
  | .message sender message :: queue, aside =>
    some (if sender = rank then .ok message else .error (unknownRank sender), { queue, aside })
  | .closed sender reason :: queue, aside =>
    some (.error (closedBy sender reason), { queue, aside })

variable {inbox later : Inbox} {rank size other : Nat} {isOpen : Bool} {queue : List Inbound}
  {aside : List (List Message)} {answer : Except Failure Message}

/-- What is unread from a rank was put aside for it or stands in the queue. -/
theorem unread_eq (inbox : Inbox) (rank : Nat) :
    inbox.unread rank = (inbox.aside[rank]?).getD [] ++ messagesOf rank inbox.queue := rfl

/-- The first item of the queue adds its message if it comes from the rank. -/
theorem messagesOf_cons (rank : Nat) (item : Inbound) (rest : List Inbound) :
    messagesOf rank (item :: rest) = (item.messageOf? rank).toList ++ messagesOf rank rest := by
  cases found : item.messageOf? rank <;> simp [messagesOf, found]

/-- The messages of a rank in two queues follow one another. -/
theorem messagesOf_append (rank : Nat) (queue more : List Inbound) :
    messagesOf rank (queue ++ more) = messagesOf rank queue ++ messagesOf rank more :=
  List.filterMap_append

/-- To put an item aside adds no rank. -/
@[simp] theorem length_putAside (aside : List (List Message)) (item : Inbound) :
    (putAside aside item).length = aside.length := by
  cases item with
  | message sender content => exact List.length_modify ..
  | closed sender reason => rfl

/-- Nor does it to put several aside. -/
@[simp] theorem length_foldl_putAside (items : List Inbound) (aside : List (List Message)) :
    (items.foldl putAside aside).length = aside.length := by
  induction items generalizing aside with
  | nil => rfl
  | cons item rest inductionHypothesis => rw [List.foldl_cons, inductionHypothesis, length_putAside]

/-- What is put aside goes behind what lies there for its rank. -/
theorem getD_foldl_putAside (items : List Inbound) (aside : List (List Message)) (rank : Nat)
    (inside : rank < aside.length) :
    ((items.foldl putAside aside)[rank]?).getD [] =
      (aside[rank]?).getD [] ++ messagesOf rank items := by
  induction items generalizing aside with
  | nil => exact (List.append_nil _).symm
  | cons item rest inductionHypothesis =>
    have step : ((putAside aside item)[rank]?).getD [] =
        (aside[rank]?).getD [] ++ (item.messageOf? rank).toList := by
      cases item with
      | message sender content =>
        by_cases same : sender = rank
        · simp [putAside, Inbound.messageOf?, same, List.getElem?_eq_getElem inside]
        · simp [putAside, Inbound.messageOf?, same]
      | closed sender reason => simp [putAside, Inbound.messageOf?]
    rw [List.foldl_cons, inductionHypothesis _ (by simpa using inside), step, List.append_assoc,
      messagesOf_cons]

/-- A search puts aside what other ranks of the group have sent, and ends at the first item that is
no such message. -/
theorem search_eq (rank : Nat) (isOpen : Bool) (queue : List Inbound) (aside : List (List Message)) :
    search rank isOpen queue aside =
      ending rank isOpen (queue.dropWhile (Inbound.isOther aside.length rank))
        ((queue.takeWhile (Inbound.isOther aside.length rank)).foldl putAside aside) := by
  induction queue generalizing aside with
  | nil => rfl
  | cons item queue inductionHypothesis =>
    cases item with
    | closed sender reason => rfl
    | message sender content =>
      by_cases own : sender = rank
      · simp [search, ending, Inbound.isOther, own]
      · by_cases known : sender < aside.length
        · have passed : (Inbound.message sender content).isOther aside.length rank = true := by
            simp [Inbound.isOther, own, known]
          rw [search, if_neg own, if_pos known, List.dropWhile_cons_of_pos passed,
            List.takeWhile_cons_of_pos passed, List.foldl_cons, inductionHypothesis]
          simp [putAside]
        · simp [search, ending, Inbound.isOther, own, known]

/-! What the items that a search puts aside, and those behind them, mean to the other ranks. -/

/-- An item passed over comes from another rank of the group. -/
theorem isFromGroup_of_isOther {item : Inbound} (passed : item.isOther size rank = true) :
    item.isFromGroup size = true ∧ item.messageOf? rank = none := by
  cases item with
  | closed sender reason => cases passed
  | message sender content =>
    simp only [Inbound.isOther, Bool.and_eq_true, decide_eq_true_eq] at passed
    simp [Inbound.isFromGroup, Inbound.messageOf?, passed.1, passed.2]

/-- Items of other ranks hold no message of this one. -/
theorem messagesOf_others {items : List Inbound}
    (others : ∀ item ∈ items, item.isOther size rank = true) : messagesOf rank items = [] :=
  List.filterMap_eq_nil_iff.mpr fun item member => (isFromGroup_of_isOther (others item member)).2

/-- An item at which a search ends is a message of the rank, or it is of no use to any rank of the
group. -/
theorem own_or_useless {item : Inbound} (ends : item.isOther size rank = false) :
    (∃ content, item = .message rank content) ∨
      item.isFromGroup size = false ∧ ∀ other < size, item.messageOf? other = none := by
  cases item with
  | closed sender reason => exact .inr ⟨rfl, fun _ _ => rfl⟩
  | message sender content =>
    by_cases own : sender = rank
    · exact .inl ⟨content, own ▸ rfl⟩
    · have unknown : ¬ sender < size := by simpa [Inbound.isOther, own] using ends
      refine .inr ⟨by simp [Inbound.isFromGroup, unknown], fun other inside => ?_⟩
      have foreign : sender ≠ other := fun same => unknown (same ▸ inside)
      simp [Inbound.messageOf?, foreign]

/-- A queue is what a search for a message of a rank puts aside, and behind it comes nothing more or
an item at which the search ends. -/
theorem queue_cases (size rank : Nat) (queue : List Inbound) :
    ∃ passed, (∀ item ∈ passed, item.isOther size rank = true) ∧
      queue.takeWhile (Inbound.isOther size rank) = passed ∧
      (queue = passed ∧ queue.dropWhile (Inbound.isOther size rank) = [] ∨
        ∃ item rest, queue = passed ++ item :: rest ∧ item.isOther size rank = false ∧
          queue.dropWhile (Inbound.isOther size rank) = item :: rest) := by
  refine ⟨_, fun item member => List.mem_takeWhile_imp member, rfl, ?_⟩
  have whole := List.takeWhile_append_dropWhile (p := Inbound.isOther size rank) (l := queue)
  cases found : queue.dropWhile (Inbound.isOther size rank) with
  | nil =>
    rw [found, List.append_nil] at whole
    exact .inl ⟨whole.symm, rfl⟩
  | cons item rest =>
    rw [found] at whole
    refine .inr ⟨item, rest, whole.symm, ?_, rfl⟩
    have ends := List.head?_dropWhile_not (Inbound.isOther size rank) queue
    rw [found] at ends
    exact ends

/-! What a call answers. -/

/-- What is answered if these messages are at hand, and if this is the first item that is no message
of a rank of the group. -/
def answerOf (isOpen : Bool) : List Message → Option Inbound → Option (Except Failure Message)
  | message :: _, _ => some (.ok message)
  | [], some (.closed sender reason) => some (.error (closedBy sender reason))
  | [], some (.message sender _) => some (.error (unknownRank sender))
  | [], none => if isOpen then none else some (.error disconnected)

/-- What a call for a message of a rank is answered, if it is answered at once. -/
def verdict (inbox : Inbox) (size rank : Nat) (isOpen : Bool) : Option (Except Failure Message) :=
  if rank < size then
    answerOf isOpen (inbox.atHand size rank) (inbox.queue.find? fun item => !item.isFromGroup size)
  else some (.error (noSuchRank rank))

/-- To wait for a rank outside the group fails at once and reads nothing. -/
theorem receive_beyond (beyond : ¬ rank < inbox.aside.length) (isOpen : Bool) :
    inbox.receive rank isOpen = some (.error (noSuchRank rank), inbox) := by
  rw [receive, List.getElem?_eq_none (Nat.le_of_not_lt beyond)]

/-- The next message of a rank is the first one at hand. -/
theorem receive_verdict (inbox : Inbox) (rank : Nat) (isOpen : Bool) :
    (inbox.receive rank isOpen).map Prod.fst = inbox.verdict inbox.aside.length rank isOpen := by
  by_cases inside : rank < inbox.aside.length
  case neg => rw [receive_beyond inside, verdict, if_neg inside, Option.map_some]
  rw [verdict, if_pos inside, receive, atHand, List.getElem?_eq_getElem inside, Option.getD_some]
  cases kept : inbox.aside[rank] with
  | cons message rest => rfl
  | nil =>
    obtain ⟨passed, others, taken, ends⟩ := queue_cases inbox.aside.length rank inbox.queue
    have fromGroup (item : Inbound) (member : item ∈ passed) :
        item.isFromGroup inbox.aside.length = true := (isFromGroup_of_isOther (others item member)).1
    have none : passed.find? (fun item => !item.isFromGroup inbox.aside.length) = none :=
      List.find?_eq_none.mpr fun item member => by simp [fromGroup item member]
    rw [search_eq, taken]
    obtain ⟨all, nothing⟩ | ⟨item, rest, split, stops, left⟩ := ends
    · rw [nothing, all, List.takeWhile_eq_self_iff.mpr fromGroup, messagesOf_others others, none]
      cases isOpen <;> rfl
    · rw [left, split, List.takeWhile_append_of_pos fromGroup, messagesOf_append,
        messagesOf_others others, List.find?_append, none]
      obtain ⟨content, rfl⟩ | ⟨useless, -⟩ := own_or_useless stops
      · simp [ending, answerOf, messagesOf, Inbound.messageOf?, Inbound.isFromGroup, inside]
      · cases item with
        | closed sender reason => rfl
        | message sender content =>
          have unknown : ¬ sender < inbox.aside.length := by
            simpa [Inbound.isFromGroup] using useless
          have foreign : sender ≠ rank := fun same => unknown (same ▸ inside)
          simp [ending, answerOf, messagesOf, Inbound.isFromGroup, unknown, foreign]

/-! What an event leaves of the messages of each rank. -/

/-- Something arrives, or a call for a message of a rank is answered. -/
inductive Event where
  | arrival (item : Inbound)
  | call (rank : Nat) (answer : Except Failure Message)

namespace Event

/-- What arrives. -/
def arrived? : Event → Option Inbound
  | arrival item => some item
  | call _ _ => none

/-- The message that is received from this rank. -/
def received? (rank : Nat) : Event → Option Message
  | call asked (.ok message) => if asked = rank then some message else none
  | _ => none

end Event

/-- What the inbox of a group comes to by an event. -/
inductive Step : Inbox → Event → Inbox → Prop
  | arrival (inbox : Inbox) (item : Inbound) :
      Step inbox (.arrival item) { inbox with queue := inbox.queue ++ [item] }
  | call (inbox later : Inbox) (rank : Nat) (isOpen : Bool) (answer : Except Failure Message)
      (answered : inbox.receive rank isOpen = some (answer, later)) :
      Step inbox (.call rank answer) later

/-- What is received by a search is what the item at which it ends holds for the rank. -/
theorem ending_cons {item : Inbound} {rest : List Inbound} (stops : item.isOther size rank = false)
    (ends : ending rank isOpen (item :: rest) aside = some (answer, later)) :
    later = { queue := rest, aside } ∧ ∀ other < size,
      (Event.call rank answer).received? other = item.messageOf? other := by
  cases item with
  | closed sender reason =>
    cases ends
    exact ⟨rfl, fun other _ => rfl⟩
  | message sender content =>
    cases ends
    refine ⟨rfl, fun other inside => ?_⟩
    split
    case isTrue own =>
      subst own
      rfl
    case isFalse foreign =>
      obtain ⟨_, same⟩ | ⟨-, useless⟩ := own_or_useless stops
      · cases same
        exact absurd rfl foreign
      · exact (useless other inside).symm

/-- A search for a message of a rank of which none was put aside takes the first one of the rank, if
it receives one, and leaves the messages of the others as they are. -/
theorem search_leaves (none : aside[rank]? = some [])
    (found : search rank isOpen queue aside = some (answer, later)) :
    later.aside.length = aside.length ∧ later.queue <:+ queue ∧ ∀ other < aside.length,
      unread { queue, aside } other =
          ((Event.call rank answer).received? other).toList ++ later.unread other ∧
        atHand { queue, aside } aside.length other <+:
          ((Event.call rank answer).received? other).toList ++ later.atHand aside.length other := by
  obtain ⟨passed, others, taken, ends⟩ := queue_cases aside.length rank queue
  have fromGroup (item : Inbound) (member : item ∈ passed) : item.isFromGroup aside.length = true :=
    (isFromGroup_of_isOther (others item member)).1
  have put (other : Nat) (inside : other < aside.length) :
      ((passed.foldl putAside aside)[other]?).getD [] =
        (aside[other]?).getD [] ++ messagesOf other passed :=
    getD_foldl_putAside passed aside other inside
  -- The search ends at the first item that it does not put aside, if there is one.
  rw [search_eq, taken] at found
  obtain ⟨rfl, nothing⟩ | ⟨item, rest, rfl, stops, left⟩ := ends
  · rw [nothing, ending] at found
    split at found
    case isTrue => cases found
    case isFalse =>
      cases found
      refine ⟨length_foldl_putAside _ _, List.nil_suffix, fun other inside => ?_⟩
      simp only [unread_eq, atHand, put other inside, List.takeWhile_eq_self_iff.mpr fromGroup]
      simp [Event.received?, messagesOf]
  · rw [left] at found
    obtain ⟨rfl, received⟩ := ending_cons stops found
    have behind : rest <:+ passed ++ item :: rest :=
      (List.suffix_cons item rest).trans (List.suffix_append _ _)
    refine ⟨length_foldl_putAside _ _, behind, fun other inside => ?_⟩
    simp only [unread_eq, atHand, put other inside, received other inside, messagesOf_append,
      messagesOf_cons, List.takeWhile_append_of_pos fromGroup]
    obtain ⟨content, rfl⟩ | ⟨useless, foreign⟩ := own_or_useless stops
    · have ofGroup : (Inbound.message rank content).isFromGroup aside.length = true :=
        decide_eq_true (List.getElem?_eq_some_iff.mp none).1
      rw [List.takeWhile_cons_of_pos ofGroup, messagesOf_cons]
      by_cases own : other = rank
      · subst own
        rw [none, messagesOf_others others]
        exact ⟨rfl, List.prefix_refl _⟩
      · have foreign : (Inbound.message rank content).messageOf? other = .none :=
          if_neg (Ne.symm own)
        rw [foreign]
        simp
    · have ends : (item :: rest).takeWhile (Inbound.isFromGroup aside.length) = [] :=
        List.takeWhile_cons_of_neg (by simp [useless])
      rw [foreign other inside, ends]
      exact ⟨by simp, by simp [messagesOf]⟩

/-- A call takes the first unread message of its rank, if it receives one. The messages of all other
ranks are left as they are, and those that are at hand stay at hand. -/
theorem receive_leaves (received : inbox.receive rank isOpen = some (answer, later)) :
    later.aside.length = inbox.aside.length ∧ later.queue <:+ inbox.queue ∧
      ∀ other < inbox.aside.length,
        inbox.unread other = ((Event.call rank answer).received? other).toList ++ later.unread other ∧
          inbox.atHand inbox.aside.length other <+:
            ((Event.call rank answer).received? other).toList ++
              later.atHand inbox.aside.length other := by
  by_cases inside : rank < inbox.aside.length
  case neg =>
    rw [receive_beyond inside] at received
    cases received
    exact ⟨rfl, List.suffix_refl _, fun other _ => ⟨rfl, List.prefix_refl _⟩⟩
  have there : inbox.aside[rank]? = some inbox.aside[rank] := List.getElem?_eq_getElem inside
  rw [receive, there] at received
  cases kept : inbox.aside[rank] with
  | cons message rest =>
    rw [kept] at received
    cases received
    refine ⟨List.length_set, List.suffix_refl _, fun other _ => ?_⟩
    by_cases own : other = rank
    · subst own
      simp [unread, atHand, Event.received?, there, kept, List.getElem?_set_self inside]
    · simp [unread, atHand, Event.received?, Ne.symm own]
  | nil =>
    rw [kept] at received
    exact search_leaves (there.trans (congrArg some kept)) received

/-- A call that has to wait has put aside all that lies in the queue. It goes on with what arrives
later, as a call does that is made then. -/
theorem receive_waiting (waits : inbox.receive rank isOpen = none) :
    ∃ moved : Inbox, moved.queue = [] ∧
      (∀ other < inbox.aside.length, moved.unread other = inbox.unread other) ∧
      ∀ more isOpen, receive { inbox with queue := inbox.queue ++ more } rank isOpen =
        receive { moved with queue := more } rank isOpen := by
  have inside : rank < inbox.aside.length := by
    by_contra beyond
    rw [receive_beyond beyond] at waits
    cases waits
  have there : inbox.aside[rank]? = some inbox.aside[rank] := List.getElem?_eq_getElem inside
  rw [receive, there] at waits
  -- Nothing is put aside for the rank, so the queue was searched to its end, and all of it put
  -- aside.
  cases kept : inbox.aside[rank] with
  | cons message rest =>
    rw [kept] at waits
    cases waits
  | nil =>
    rw [kept] at there waits
    obtain ⟨passed, others, taken, ends⟩ := queue_cases inbox.aside.length rank inbox.queue
    dsimp only at waits
    rw [search_eq, taken] at waits
    obtain ⟨all, -⟩ | ⟨item, rest, -, -, left⟩ := ends
    · have put (other : Nat) (inside : other < inbox.aside.length) :
          ((passed.foldl putAside inbox.aside)[other]?).getD [] =
            (inbox.aside[other]?).getD [] ++ messagesOf other passed :=
        getD_foldl_putAside passed inbox.aside other inside
      refine ⟨{ aside := passed.foldl putAside inbox.aside }, rfl, fun other inside => ?_, ?_⟩
      · rw [unread_eq, unread_eq, put other inside, all]
        exact List.append_nil _
      · intro more isOpen
        have none : (passed.foldl putAside inbox.aside)[rank]? = some [] := by
          have listed : rank < (passed.foldl putAside inbox.aside).length := by simpa using inside
          have empty := put rank inside
          rw [there, messagesOf_others others, List.getElem?_eq_getElem listed] at empty
          rw [List.getElem?_eq_getElem listed]
          exact congrArg some empty
        simp only [receive, there, none]
        rw [search_eq, search_eq, length_foldl_putAside, all, List.takeWhile_append_of_pos others,
          List.dropWhile_append_of_pos others, List.foldl_append]
    · rw [left] at waits
      cases item <;> cases waits

/-- What an event leaves of what is unread and of what is at hand. -/
theorem Step.leaves {event : Event} (step : Step inbox event later) :
    later.aside.length = inbox.aside.length ∧ ∀ other < inbox.aside.length,
      inbox.unread other ++ messagesOf other event.arrived?.toList =
          (event.received? other).toList ++ later.unread other ∧
        inbox.atHand inbox.aside.length other <+:
          (event.received? other).toList ++ later.atHand inbox.aside.length other := by
  cases step with
  | arrival item =>
    refine ⟨rfl, fun other _ => ⟨?_, ?_⟩⟩
    · simp [unread_eq, Event.arrived?, Event.received?, messagesOf]
    · refine (List.prefix_append_right_inj _).mpr (List.IsPrefix.filterMap _ ?_)
      rw [List.takeWhile_append]
      split
      · exact (List.takeWhile_prefix _).trans (List.prefix_append _ _)
      · exact List.prefix_refl _
  | call _ rank isOpen answer answered =>
    obtain ⟨counted, -, leaves⟩ := receive_leaves answered
    refine ⟨counted, fun other inside => ⟨?_, (leaves other inside).2⟩⟩
    exact (List.append_nil _).trans (leaves other inside).1

/-- What has become of the inbox of a group after these events, in this order. -/
inductive Follows (size : Nat) : List Event → Inbox → Prop
  | start : Follows size [] (ofSize size)
  | next (history : List Event) (inbox later : Inbox) (event : Event)
      (before : Follows size history inbox) (step : Step inbox event later) :
      Follows size (history ++ [event]) later

/-- All that has arrived, in order. -/
def arrived (history : List Event) : List Inbound := history.filterMap Event.arrived?

/-- The messages that were received from a rank, in order. -/
def received (rank : Nat) (history : List Event) : List Message :=
  history.filterMap (Event.received? rank)

/-- What was received from a rank and what is unread make up what has arrived from it. -/
theorem Follows.streams {history : List Event} (follows : Follows size history inbox) :
    inbox.aside.length = size ∧ ∀ rank < size,
      received rank history ++ inbox.unread rank = messagesOf rank (arrived history) := by
  induction follows with
  | start =>
    refine ⟨List.length_replicate, fun rank inside => ?_⟩
    simp [unread, ofSize, inside, received, messagesOf, arrived]
  | next history inbox later event _ step inductionHypothesis =>
    obtain ⟨counted, streams⟩ := inductionHypothesis
    obtain ⟨countedThen, leaves⟩ := step.leaves
    refine ⟨countedThen.trans counted, fun rank inside => ?_⟩
    have here := (leaves rank (counted.symm ▸ inside)).1
    calc received rank (history ++ [event]) ++ later.unread rank
      _ = received rank history ++ ((event.received? rank).toList ++ later.unread rank) := by
        cases taken : event.received? rank <;> simp [received, taken]
      _ = received rank history ++ inbox.unread rank ++ messagesOf rank event.arrived?.toList := by
        rw [← here, List.append_assoc]
      _ = messagesOf rank (arrived history ++ event.arrived?.toList) := by
        rw [streams rank inside, messagesOf_append]
      _ = messagesOf rank (arrived (history ++ [event])) := by
        cases new : event.arrived? <;> simp [arrived, new]

/-- Whatever has arrived and was asked for, and in whatever order: what was received from a rank and
what was put aside of it or is still in the queue make up what has arrived from it, in order. A call
for a message of a rank is answered as the messages at hand and the first item that is none of the
group say. Whatever is at hand stays at hand until it is received, also behind a call that fails. A
call that has to wait, and puts aside what it meets, is answered in the end like one that is made
then. -/
theorem received_in_order (size : Nat) (history : List Event) (inbox : Inbox)
    (follows : Follows size history inbox) :
    (∀ rank < size,
      received rank history ++ inbox.unread rank = messagesOf rank (arrived history)) ∧
    (∀ rank isOpen, (inbox.receive rank isOpen).map Prod.fst = inbox.verdict size rank isOpen) ∧
    (∀ event later, Step inbox event later → ∀ rank < size,
      inbox.atHand size rank <+: (event.received? rank).toList ++ later.atHand size rank) ∧
    ∀ rank isOpen, inbox.receive rank isOpen = none → ∃ moved : Inbox, moved.queue = [] ∧
      (∀ other < size, moved.unread other = inbox.unread other) ∧
      ∀ more isOpen, receive { inbox with queue := inbox.queue ++ more } rank isOpen =
        receive { moved with queue := more } rank isOpen := by
  obtain ⟨rfl, streams⟩ := follows.streams
  refine ⟨streams, inbox.receive_verdict, fun event later step rank inside => ?_, ?_⟩
  · exact (step.leaves.2 rank inside).2
  · exact fun rank isOpen waits => receive_waiting waits

/-- The second worker says that it is done, then the first one does, then the second one closes its
side and the first one goes on. The first one is asked twice, then the second one. -/
def crossed : List Event :=
  [.arrival (.message 1 .completed), .arrival (.message 0 .completed), .call 0 (.ok .completed),
    .arrival (.closed 1 none), .call 0 (.error (closedBy 1 none)),
    .arrival (.message 0 (.status none)), .call 1 (.ok .completed)]

/-- The notice is met when the first worker is asked again; what the second worker had sent before
is received all the same, and what the first one sends then is at hand. -/
theorem crossed_in_order : ∃ inbox, Follows 2 crossed inbox ∧
    received 0 crossed ++ inbox.unread 0 = [.completed, .status none] ∧
    received 1 crossed ++ inbox.unread 1 = [.completed] ∧
    (inbox.receive 0 false).map Prod.fst = some (.ok (.status none)) := by
  have begun : Follows 2 _ _ := .next _ _ _ (.arrival (.message 1 .completed)) .start (.arrival _ _)
  have both := begun.next _ _ _ (.arrival (.message 0 .completed)) (.arrival _ _)
  have passed := both.next _ _ _ (.call 0 (.ok .completed)) (.call _ _ 0 true _ rfl)
  have closed := passed.next _ _ _ (.arrival (.closed 1 none)) (.arrival _ _)
  have failed := closed.next _ _ _ (.call 0 (.error (closedBy 1 none))) (.call _ _ 0 true _ rfl)
  have more := failed.next _ _ _ (.arrival (.message 0 (.status none))) (.arrival _ _)
  have follows := more.next _ _ _ (.call 1 (.ok .completed)) (.call _ _ 1 true _ rfl)
  obtain ⟨streams, verdict, -, -⟩ := received_in_order 2 _ _ follows
  exact ⟨_, follows, streams 0 (by decide), streams 1 (by decide), verdict 0 false⟩

end Inbox

end Rankwise
