import Mathlib.Data.List.Infix
import Mathlib.Data.List.Nodup
import Mathlib.Data.Set.List

/-!
# Linearizability of a replicated object

Clients invoke operations on an object, each under a key of its own, and get values back.  What they
see is linearizable when the operations could have been performed one at a time, in an order in
which whatever was answered comes before all that was invoked afterwards.  Servers replicate the
object when they all perform beginnings of one sequence of operations.
-/

namespace Linearizability

/-- What clients see. -/
inductive Event (Op Key Value : Type*)
  /-- An operation is invoked. -/
  | invoke (op : Op)
  /-- The operation of a key is answered. -/
  | respond (key : Key) (value : Value)
  deriving DecidableEq

/-- The operation that an event invokes. -/
def Event.invoked {Op Key Value : Type*} : Event Op Key Value → Option Op
  | .invoke op => some op
  | .respond _ _ => none

/-- An object whose operations change its state and may return a value. -/
structure Object (Op Key State Value : Type*) where
  /-- The name of an operation. -/
  key : Op → Key
  /-- The initial state. -/
  start : State
  /-- What an operation does. -/
  perform : Op → State → State × Option Value

variable {Op Key State Value Replica : Type*}

/-- A longer sequence has the same operations at the places of a shorter one. -/
theorem getElem?_of_begins {shorter longer : List Op} (begins : shorter <+: longer) {place : ℕ}
    (inside : place < shorter.length) : longer[place]? = shorter[place]? := by
  obtain ⟨rest, rfl⟩ := begins
  exact List.getElem?_append_left inside

namespace Object

variable (object : Object Op Key State Value)

/-- The state after a sequence of operations. -/
def after (ops : List Op) : State :=
  ops.foldl (fun state op => (object.perform op state).1) object.start

/-- The value that the operation at a place of a sequence returns. -/
def answer (ops : List Op) (place : ℕ) : Option Value :=
  ops[place]?.bind fun op => (object.perform op (object.after (ops.take place))).2

@[simp] theorem after_nil : object.after [] = object.start := rfl

@[simp] theorem after_concat (ops : List Op) (op : Op) :
    object.after (ops ++ [op]) = (object.perform op (object.after ops)).1 := by
  simp [after]

@[simp] theorem answer_concat (ops : List Op) (op : Op) :
    object.answer (ops ++ [op]) ops.length = (object.perform op (object.after ops)).2 := by
  simp [answer]

/-- What an operation returns does not depend on the operations after it. -/
theorem answer_of_begins {shorter longer : List Op} (begins : shorter <+: longer) {place : ℕ}
    (inside : place < shorter.length) :
    object.answer longer place = object.answer shorter place := by
  rw [answer, answer, getElem?_of_begins begins inside]
  obtain ⟨rest, rfl⟩ := begins
  rw [List.take_append_of_le_length (Nat.le_of_lt inside)]

end Object

/-- The operations that have been invoked, oldest first. -/
def invocations (events : List (Event Op Key Value)) : List Op := events.filterMap Event.invoked

theorem mem_invocations {events : List (Event Op Key Value)} {op : Op} :
    op ∈ invocations events ↔ .invoke op ∈ events := by
  rw [invocations, List.mem_filterMap]
  constructor
  · rintro ⟨event, member, same⟩
    cases event with
    | invoke other => exact Option.some.inj same ▸ member
    | respond key value => exact nomatch same
  · exact fun member => ⟨_, member, rfl⟩

@[simp] theorem invocations_append (first second : List (Event Op Key Value)) :
    invocations (first ++ second) = invocations first ++ invocations second :=
  List.filterMap_append

@[simp] theorem invocations_invoke (op : Op) :
    invocations [(.invoke op : Event Op Key Value)] = [op] := rfl

@[simp] theorem invocations_respond (key : Key) (value : Value) :
    invocations [(.respond key value : Event Op Key Value)] = [] := rfl

/-- The events agree with performing the operations of a sequence one after the other. -/
structure Linearizes (object : Object Op Key State Value) (order : List Op)
    (events : List (Event Op Key Value)) : Prop where
  /-- No operation is performed twice. -/
  distinct : (order.map object.key).Nodup
  /-- All of them have been invoked. -/
  invoked : ∀ op ∈ order, .invoke op ∈ events
  /-- Every value is what the operation returns at its place. -/
  answered : ∀ key value, .respond key value ∈ events →
    ∃ place op, order[place]? = some op ∧ object.key op = key ∧
      object.answer order place = some value
  /-- An operation that is invoked after another one was answered is performed after it. -/
  realTime : ∀ before after key value, events = before ++ .respond key value :: after →
    ∀ later, .invoke later ∈ after → ∀ (place : ℕ) (op : Op), order[place]? = some op →
      object.key op = key → ∀ place' : ℕ, order[place']? = some later → place < place'

/-- Every value was returned by a replica, when only invoked operations had been performed there. -/
def Answered (object : Object Op Key State Value) (performed : Replica → List Op)
    (events : List (Event Op Key Value)) : Prop :=
  ∀ before after key value, events = before ++ .respond key value :: after →
    ∃ replica place op, (performed replica)[place]? = some op ∧ object.key op = key ∧
      object.answer (performed replica) place = some value ∧
      ∀ earlier ∈ (performed replica).take (place + 1), .invoke earlier ∈ before

/-! ## Recording the events -/

theorem concat_eq_append_cons {α : Type*} {events before after : List α} {event middle : α}
    (same : events ++ [event] = before ++ middle :: after) :
    (events = before ∧ event = middle ∧ after = []) ∨ ∃ rest, after = rest ++ [event] ∧
      events = before ++ middle :: rest := by
  rcases List.eq_nil_or_concat' after with rfl | ⟨rest, last, rfl⟩
  · obtain ⟨sameEvents, sameEvent⟩ := List.append_inj' same rfl
    exact .inl ⟨sameEvents, List.singleton_inj.mp sameEvent, rfl⟩
  · rw [← List.cons_append, ← List.append_assoc] at same
    obtain ⟨sameEvents, sameEvent⟩ := List.append_inj' same rfl
    exact .inr ⟨rest, by rw [List.singleton_inj.mp sameEvent], sameEvents⟩

namespace Answered

variable {object : Object Op Key State Value} {performed performed' : Replica → List Op}
  {events : List (Event Op Key Value)}

theorem nil (object : Object Op Key State Value) (performed : Replica → List Op) :
    Answered object performed [] := fun _ _ _ _ same => by simp at same

/-- Replicas may perform more operations. -/
theorem mono (answered : Answered object performed events)
    (grows : ∀ replica, performed replica <+: performed' replica) :
    Answered object performed' events := by
  intro before after key value same
  obtain ⟨replica, place, op, found, named, answer, invoked⟩ := answered before after key value same
  have inside := (List.getElem?_eq_some_iff.mp found).1
  have begins := grows replica
  refine ⟨replica, place, op, ?_, named, ?_, ?_⟩
  · rw [getElem?_of_begins begins inside, found]
  · rw [object.answer_of_begins begins inside, answer]
  · obtain ⟨rest, longer⟩ := begins
    rwa [← longer, List.take_append_of_le_length inside]

/-- Clients may invoke more operations. -/
theorem invoke (answered : Answered object performed events) (op : Op) :
    Answered object performed (events ++ [.invoke op]) := by
  intro before after key value same
  rcases concat_eq_append_cons same with ⟨-, impossible, -⟩ | ⟨rest, -, earlier⟩
  · exact nomatch impossible
  · exact answered before rest key value earlier

/-- A replica that has performed an operation may answer it. -/
theorem respond (answered : Answered object performed events) {replica : Replica} {place : ℕ}
    {op : Op} (found : (performed replica)[place]? = some op) {value : Value}
    (answer : object.answer (performed replica) place = some value)
    (invoked : ∀ earlier ∈ (performed replica).take (place + 1), .invoke earlier ∈ events) :
    Answered object performed (events ++ [.respond (object.key op) value]) := by
  intro before after key value' same
  rcases concat_eq_append_cons same with ⟨rfl, now, -⟩ | ⟨rest, -, earlier⟩
  · obtain ⟨rfl, rfl⟩ := Event.respond.inj now
    exact ⟨replica, place, op, found, rfl, answer, invoked⟩
  · exact answered before rest key value' earlier

end Answered

/-! ## One order for all replicas -/

/-- Among sequences of which any two are beginnings of one another there is a longest one. -/
theorem exists_order (members : List Replica) {performed : Replica → List Op}
    (alike : ∀ left right, performed left <+: performed right ∨
      performed right <+: performed left)
    (idle : ∀ replica ∉ members, performed replica = []) :
    ∃ order, (∀ replica, performed replica <+: order) ∧
      (order = [] ∨ ∃ replica, order = performed replica) := by
  have longest : ∃ order, (∀ replica ∈ members, performed replica <+: order) ∧
      (order = [] ∨ ∃ replica, order = performed replica) := by
    clear idle
    induction members with
    | nil => exact ⟨[], by simp, .inl rfl⟩
    | cons first rest ih =>
        obtain ⟨order, begins, source⟩ := ih
        have comparable : performed first <+: order ∨ order <+: performed first := by
          rcases source with rfl | ⟨replica, rfl⟩
          · exact .inr List.nil_prefix
          · exact alike first replica
        rcases comparable with shorter | longer
        · exact ⟨order, List.forall_mem_cons.mpr ⟨shorter, begins⟩, source⟩
        · exact ⟨performed first, List.forall_mem_cons.mpr
            ⟨List.prefix_rfl, fun replica member => (begins replica member).trans longer⟩,
            .inr ⟨first, rfl⟩⟩
  obtain ⟨order, begins, source⟩ := longest
  refine ⟨order, fun replica => ?_, source⟩
  by_cases member : replica ∈ members
  · exact begins replica member
  · rw [idle replica member]
    exact List.nil_prefix

/-- Servers replicate an object. -/
structure Replicates (object : Object Op Key State Value) (members : List Replica)
    (performed : Replica → List Op) (events : List (Event Op Key Value)) : Prop where
  /-- Of what two of them have performed one begins the other. -/
  alike : ∀ left right, performed left <+: performed right ∨ performed right <+: performed left
  /-- Only members perform anything. -/
  idle : ∀ replica ∉ members, performed replica = []
  /-- They perform nothing twice. -/
  distinct : ∀ replica, ((performed replica).map object.key).Nodup
  /-- They perform what has been invoked. -/
  invoked : ∀ replica, ∀ op ∈ performed replica, .invoke op ∈ events
  /-- Nothing is invoked twice. -/
  once : (invocations events).Nodup
  /-- They have returned the values. -/
  answered : Answered object performed events

/-- What clients see of a replicated object is linearizable. -/
theorem Replicates.linearizes {object : Object Op Key State Value} {members : List Replica}
    {performed : Replica → List Op} {events : List (Event Op Key Value)}
    (replicates : Replicates object members performed events) :
    ∃ order, Linearizes object order events ∧ ∀ replica, performed replica <+: order := by
  obtain ⟨order, begins, source⟩ := exists_order members replicates.alike replicates.idle
  have distinct : (order.map object.key).Nodup := by
    rcases source with rfl | ⟨replica, rfl⟩
    · exact List.nodup_nil
    · exact replicates.distinct replica
  have atPlace : ∀ {replica : Replica} {place : ℕ} {op : Op},
      (performed replica)[place]? = some op → order[place]? = some op := fun found => by
    rw [getElem?_of_begins (begins _) (List.getElem?_eq_some_iff.mp found).1, found]
  refine ⟨order,
    { distinct
      invoked := fun op member => ?_
      answered := fun key value responded => ?_
      realTime := fun before after key value split later invoked place op found named place'
        found' => ?_ }, begins⟩
  · rcases source with rfl | ⟨replica, rfl⟩
    · simp at member
    · exact replicates.invoked replica op member
  · obtain ⟨before, after, split⟩ := List.append_of_mem responded
    obtain ⟨replica, place, op, found, named, answer, -⟩ :=
      replicates.answered before after key value split
    refine ⟨place, op, atPlace found, named, ?_⟩
    rw [object.answer_of_begins (begins replica) (List.getElem?_eq_some_iff.mp found).1, answer]
  · obtain ⟨replica, answeredAt, op', foundIn, named', -, past⟩ :=
      replicates.answered before after key value split
    have inOrder := atPlace foundIn
    -- keys are distinct, so this is the place at which the replica has answered
    have samePlace : place = answeredAt := by
      refine (List.getElem?_inj ?_ distinct).mp ?_
      · rw [List.length_map]
        exact (List.getElem?_eq_some_iff.mp found).1
      · rw [List.getElem?_map, List.getElem?_map, found, inOrder, Option.map_some,
          Option.map_some, named, named']
    subst samePlace
    by_contra notAfter
    have upTo : place' < place + 1 := by omega
    have inside : place < (performed replica).length := (List.getElem?_eq_some_iff.mp foundIn).1
    have early : later ∈ (performed replica).take (place + 1) := by
      refine List.mem_of_getElem? (i := place') ?_
      rw [List.getElem?_take_of_lt upTo, ← getElem?_of_begins (begins replica) (by omega), found']
    have twice := replicates.once
    rw [split, invocations_append, List.nodup_append] at twice
    refine twice.2.2 later (mem_invocations.mpr (past later early)) later ?_ rfl
    rw [mem_invocations]
    exact List.mem_cons_of_mem _ invoked

/-! ## Delayed answers -/

/-- Clients see the same invocations, and some of the answers, which may come later. -/
structure Delays (late events : List (Event Op Key Value)) : Prop where
  /-- The invocations are the same. -/
  invocations : invocations late = invocations events
  /-- Answers have been given. -/
  answered : ∀ key value, .respond key value ∈ late → .respond key value ∈ events
  /-- What is invoked after an answer was invoked after it was given. -/
  after : ∀ before after key value, late = before ++ .respond key value :: after →
    ∀ op, .invoke op ∈ after → ∃ before' after',
      events = before' ++ .respond key value :: after' ∧ .invoke op ∈ after'

namespace Delays

variable {late events : List (Event Op Key Value)}

theorem nil : Delays ([] : List (Event Op Key Value)) [] where
  invocations := rfl
  answered _ _ member := member
  after _ _ _ _ same := by simp at same

/-- An operation is invoked. -/
theorem invoke (delays : Delays late events) (op : Op) :
    Delays (late ++ [.invoke op]) (events ++ [.invoke op]) where
  invocations := by rw [invocations_append, invocations_append, delays.invocations]
  answered key value member := by
    rcases List.mem_append.mp member with old | new
    · exact List.mem_append_left _ (delays.answered key value old)
    · cases List.mem_singleton.mp new
  after before after key value same later invoked := by
    rcases concat_eq_append_cons same with ⟨-, impossible, -⟩ | ⟨rest, rfl, split⟩
    · cases impossible
    rcases List.mem_append.mp invoked with old | new
    · obtain ⟨before', after', split', member⟩ :=
        delays.after before rest key value split later old
      refine ⟨before', after' ++ [.invoke op], ?_, List.mem_append_left _ member⟩
      rw [split', List.append_assoc, List.cons_append]
    · -- whatever has been answered so far was answered before
      have given := delays.answered key value (split ▸ by simp)
      obtain ⟨before', after', split'⟩ := List.append_of_mem given
      refine ⟨before', after' ++ [.invoke op], ?_, List.mem_append_right _ new⟩
      rw [split', List.append_assoc, List.cons_append]

/-- An operation is answered, which is not seen yet. -/
theorem given (delays : Delays late events) (key : Key) (value : Value) :
    Delays late (events ++ [.respond key value]) where
  invocations := by
    rw [invocations_append, invocations_respond, List.append_nil, delays.invocations]
  answered key' value' member := List.mem_append_left _ (delays.answered key' value' member)
  after before after key' value' same op invoked := by
    obtain ⟨before', after', split, member⟩ := delays.after before after key' value' same op invoked
    refine ⟨before', after' ++ [.respond key value], ?_, List.mem_append_left _ member⟩
    rw [split, List.append_assoc, List.cons_append]

/-- An answer is seen. -/
theorem respond (delays : Delays late events) {key : Key} {value : Value}
    (given : .respond key value ∈ events) : Delays (late ++ [.respond key value]) events where
  invocations := by
    rw [invocations_append, invocations_respond, List.append_nil, delays.invocations]
  answered key' value' member := by
    rcases List.mem_append.mp member with old | new
    · exact delays.answered key' value' old
    · obtain ⟨rfl, rfl⟩ := Event.respond.inj (List.mem_singleton.mp new)
      exact given
  after before after key' value' same op invoked := by
    rcases concat_eq_append_cons same with ⟨-, -, rfl⟩ | ⟨rest, rfl, split⟩
    · exact absurd invoked List.not_mem_nil
    · refine delays.after before rest key' value' split op ?_
      simpa using invoked

end Delays

/-- What is linearizable stays so when answers come later. -/
theorem Linearizes.delay {object : Object Op Key State Value} {order : List Op}
    {late events : List (Event Op Key Value)} (linearizes : Linearizes object order events)
    (delays : Delays late events) : Linearizes object order late where
  distinct := linearizes.distinct
  invoked op member := by
    rw [← mem_invocations, delays.invocations, mem_invocations]
    exact linearizes.invoked op member
  answered key value member := linearizes.answered key value (delays.answered key value member)
  realTime before after key value same later invoked := by
    obtain ⟨before', after', split, member⟩ :=
      delays.after before after key value same later invoked
    exact linearizes.realTime before' after' key value split later member

/-! ## Coded operations -/

section Coding

variable {Op' Value' : Type*}

/-- What is seen of coded operations and values. -/
def Event.map (code : Op → Op') (wrap : Value → Value') :
    Event Op Key Value → Event Op' Key Value'
  | .invoke op => .invoke (code op)
  | .respond key value => .respond key (wrap value)

/-- Performing the code of an operation that has been invoked is performing the operation. -/
structure Codes (object : Object Op Key State Value) (coded : Object Op' Key State Value')
    (code : Op → Op') (wrap : Value → Value') (events : List (Event Op Key Value)) : Prop where
  /-- It has the same key. -/
  key : ∀ op, coded.key (code op) = object.key op
  /-- The initial state is the same. -/
  start : coded.start = object.start
  /-- The code does what the operation does. -/
  perform : ∀ op, .invoke op ∈ events → ∀ state, coded.perform (code op) state =
    ((object.perform op state).1, (object.perform op state).2.map wrap)
  /-- No value is lost. -/
  injective : Function.Injective wrap

namespace Codes

variable {object : Object Op Key State Value} {coded : Object Op' Key State Value'}
  {code : Op → Op'} {wrap : Value → Value'} {events : List (Event Op Key Value)} {order : List Op}

theorem after (codes : Codes object coded code wrap events)
    (invoked : ∀ op ∈ order, .invoke op ∈ events) :
    coded.after (order.map code) = object.after order := by
  induction order using List.reverseRecOn with
  | nil => exact codes.start
  | append_singleton ops op ih =>
      obtain ⟨earlier, last⟩ := List.forall_mem_append.mp invoked
      rw [List.map_append, List.map_singleton, Object.after_concat, Object.after_concat,
        ih earlier, codes.perform op (last op (List.mem_singleton_self op))]

theorem answer (codes : Codes object coded code wrap events)
    (invoked : ∀ op ∈ order, .invoke op ∈ events) (place : ℕ) :
    coded.answer (order.map code) place = (object.answer order place).map wrap := by
  simp only [Object.answer, List.getElem?_map]
  cases found : order[place]? with
  | none => rfl
  | some op =>
      rw [Option.map_some, Option.bind_some, Option.bind_some, ← List.map_take,
        codes.after fun op member => invoked op (List.mem_of_mem_take member),
        codes.perform op (invoked op (List.mem_of_getElem? found))]

/-- Operations that have been invoked are found again in their codes. -/
theorem exists_order {order' : List Op'}
    (invoked : ∀ op ∈ order', .invoke op ∈ events.map (Event.map code wrap)) :
    ∃ order : List Op, order.map code = order' ∧ ∀ op ∈ order, .invoke op ∈ events := by
  have found : order' ∈ Set.range
      (List.map fun op : { op // .invoke op ∈ events } => code op.val) := by
    rw [Set.range_list_map]
    intro op member
    obtain ⟨event, seen, same⟩ := List.mem_map.mp (invoked op member)
    cases event with
    | invoke op' => exact ⟨⟨op', seen⟩, Event.invoke.inj same⟩
    | respond key value => cases same
  obtain ⟨order, rfl⟩ := found
  refine ⟨order.map Subtype.val, by rw [List.map_map]; rfl, fun op member => ?_⟩
  obtain ⟨op', -, rfl⟩ := List.mem_map.mp member
  exact op'.property

/-- What linearizes the codes linearizes the operations. -/
theorem linearizes (codes : Codes object coded code wrap events) {order' : List Op'}
    (linearizes : Linearizes coded order' (events.map (Event.map code wrap))) :
    ∃ order : List Op, order.map code = order' ∧ (∀ op ∈ order, .invoke op ∈ events) ∧
      Linearizes object order events := by
  obtain ⟨order, rfl, invoked⟩ := exists_order linearizes.invoked
  have keys : coded.key ∘ code = object.key := funext codes.key
  refine ⟨order, rfl, invoked, ?_, invoked, fun key value member => ?_, ?_⟩
  · have distinct := linearizes.distinct
    rwa [List.map_map, keys] at distinct
  · obtain ⟨place, op', found, named, answer⟩ :=
      linearizes.answered key (wrap value) (List.mem_map_of_mem member)
    rw [List.getElem?_map] at found
    obtain ⟨op, here, rfl⟩ := Option.map_eq_some_iff.mp found
    rw [codes.answer invoked] at answer
    obtain ⟨value', answer, same⟩ := Option.map_eq_some_iff.mp answer
    exact ⟨place, op, here, (codes.key op).symm.trans named, codes.injective same ▸ answer⟩
  · rintro before after key value rfl later member place op here named place' there
    refine linearizes.realTime (before.map (Event.map code wrap))
      (after.map (Event.map code wrap)) key (wrap value) ?_ (code later)
      (List.mem_map_of_mem member) place (code op) ?_ ((codes.key op).trans named) place' ?_
    · rw [List.map_append, List.map_cons]
      rfl
    · rw [List.getElem?_map, here, Option.map_some]
    · rw [List.getElem?_map, there, Option.map_some]

end Codes

end Coding

end Linearizability
