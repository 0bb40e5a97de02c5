import Mathlib.Data.List.Basic

/-!
# Event queue

`EventQueue.cpp` without its thread: events are added at the end, under the mutex of the queue, and
the thread takes them from the front.
-/

namespace Quintet

/-- `EventQueue::Impl`. -/
structure EventQueue (Event : Type) where
  /-- The events that have not been taken, oldest first. -/
  q : List Event := []
  /-- The thread takes no events. -/
  paused : Bool := false
  deriving DecidableEq, Repr

namespace EventQueue

variable {Event : Type}

/-- `EventQueue::addEvent`. -/
def addEvent (event : Event) (queue : EventQueue Event) : EventQueue Event :=
  { queue with q := queue.q ++ [event] }

/-- `EventQueue::resume`. -/
def resume (queue : EventQueue Event) : EventQueue Event := { queue with paused := false }

/-- One turn of `execute`: the thread wakes up when the queue is neither paused nor empty, and takes
the front. -/
def next (queue : EventQueue Event) : Option (Event × EventQueue Event) :=
  if queue.paused then none
  else
    match queue.q with
    | [] => none
    | event :: rest => some (event, { queue with q := rest })

@[simp] theorem addEvent_q (event : Event) (queue : EventQueue Event) :
    (queue.addEvent event).q = queue.q ++ [event] := rfl

@[simp] theorem resume_q (queue : EventQueue Event) : queue.resume.q = queue.q := rfl

/-- What is taken is the front. -/
theorem next_eq_some {queue later : EventQueue Event} {event : Event}
    (taken : queue.next = some (event, later)) :
    queue.paused = false ∧ queue.q = event :: later.q ∧ later.paused = false := by
  unfold next at taken
  split_ifs at taken with paused
  split at taken
  · exact nomatch taken
  · obtain ⟨rfl, rfl⟩ := Prod.mk.inj (Option.some.inj taken)
    exact ⟨by simpa using paused, ‹_›, by simpa using paused⟩

end EventQueue

end Quintet
