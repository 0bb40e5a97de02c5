import QuintetRaft.Model.HeartBeatController

/-!
# The contract of the heartbeat controller

`start` answers as documented, `restart` arms a beat, and no assertion fails, as long as nobody
calls `start` after a beat has come to its end by itself.
-/

namespace Quintet.HeartBeatController

variable {F : Type} {controller before after : HeartBeatController F} {event : BeatEvent F}
  {events : List (BeatEvent F)} {immediate repeats : Bool}

/-! ## The contract -/

/-- A thread has been started and its function has not returned. -/
def InProgress (controller : HeartBeatController F) : Prop :=
  ∃ beat ∈ controller.th, beat.phase ≠ .finished

/-- The function of the thread has returned, and nobody has joined the thread. -/
def Ended (controller : HeartBeatController F) : Prop :=
  ∃ beat ∈ controller.th, beat.phase = .finished

/-- A beat is about to begin, with the function and the period that are bound. -/
def Armed (controller : HeartBeatController F) (immediate repeats : Bool) : Prop :=
  controller.th =
    some { immediate, repeats, period := controller.period, func := controller.func } ∧
      controller.locked = true

/-- What `start` is documented to do: it gives up, and changes nothing, when there is a beat, and
arms one otherwise. -/
structure Starts (before : HeartBeatController F) (immediate repeats : Bool)
    (after : HeartBeatController F) : Prop where
  refuses : before.InProgress → after = { before with returned := some false }
  arms : ¬ before.InProgress → after.returned = some true ∧ after.Armed immediate repeats
  survives : after.failure = none

/-- What `restart` is documented to do: it arms a beat with the parameters of the last `start` that
succeeded. -/
structure Restarts (before after : HeartBeatController F) : Prop where
  arms : after.Armed (before.lastStart.getD (false, false)).1
    (before.lastStart.getD (false, false)).2
  survives : after.failure = none

/-- A step keeps the contract. -/
def Honours (before : HeartBeatController F) (event : BeatEvent F)
    (after : HeartBeatController F) : Prop :=
  match event with
  | .start immediate repeats => before.Starts immediate repeats after
  | .joined =>
      if before.caller = .joining true then before.Restarts after else after.failure = none
  | _ => after.failure = none

/-- A period is bound before the first start, and nobody starts after a beat that has ended by
itself unless `stop` has been called since. -/
def InTurn (before : HeartBeatController F) (event : BeatEvent F) (_ : HeartBeatController F) :
    Prop :=
  match event with
  | .start _ _ => before.period ≠ 0 ∧ ¬ before.Ended
  | .joined => before.caller = .joining true → before.period ≠ 0
  | _ => True

/-! ## The invariant -/

/-- The mutex is held while there is a beat, and free when there is no thread. -/
structure Sound (controller : HeartBeatController F) : Prop where
  free : controller.th = none → controller.locked = false
  held : controller.InProgress → controller.locked = true
  cached : controller.failure = none →
    (controller.immediateCache, controller.repeatCache) =
      controller.lastStart.getD (false, false)

theorem sound_init : Sound ({} : HeartBeatController F) where
  free _ := rfl
  held progress := by simp [InProgress] at progress
  cached _ := rfl

theorem Sound.start (sound : before.Sound) : (before.start immediate repeats).Sound := by
  unfold HeartBeatController.start
  split_ifs with unset locked
  · exact ⟨sound.free, sound.held, by simp⟩
  · exact ⟨sound.free, sound.held, sound.cached⟩
  · exact ⟨sound.free, sound.held, by simp⟩
  · exact ⟨by simp, by simp, by simp⟩

theorem Sound.joined (sound : before.Sound) : before.joined.Sound :=
  ⟨by simp [HeartBeatController.joined], by simp [HeartBeatController.joined, InProgress],
    sound.cached⟩

/-- The thread goes on, and has not given its mutex back before. -/
theorem Sound.advance {enabled : Beat F → Bool} {phase : Beat F → BeatPhase} (sound : before.Sound)
    (running : ∀ beat, enabled beat = true → beat.phase ≠ .finished)
    (taken : before.advance enabled phase = some after) : after.Sound := by
  rw [HeartBeatController.advance] at taken
  cases thread : before.th with
  | none => simp [thread] at taken
  | some beat =>
      rw [thread] at taken
      obtain ⟨goes, taken⟩ := Option.ite_none_right_eq_some.mp taken
      obtain rfl := Option.some.inj taken
      have locked := sound.held ⟨beat, thread, running beat goes⟩
      exact ⟨by simp, fun _ => locked, sound.cached⟩

theorem Sound.stop (sound : before.Sound) (restarts : Bool) : (before.stop restarts).Sound where
  free none := sound.free (by simpa [HeartBeatController.stop] using none)
  held progress := by
    obtain ⟨beat, member, running⟩ := progress
    obtain ⟨earlier, present, rfl⟩ := Option.map_eq_some_iff.mp member
    exact sound.held ⟨earlier, present, running⟩
  cached := sound.cached

/-- How the join ends. -/
theorem step_joined (taken : before.step .joined = some after) :
    (∀ beat ∈ before.th, beat.phase = .finished) ∧
      (before.caller = .joining false ∧ after = before.joined ∨
        before.caller = .joining true ∧
          after = before.joined.start before.immediateCache before.repeatCache) := by
  obtain ⟨-, taken⟩ := Option.ite_none_left_eq_some.mp taken
  obtain ⟨gone, taken⟩ := Option.ite_none_right_eq_some.mp taken
  refine ⟨gone, ?_⟩
  cases caller : before.caller with
  | idle => simp [caller] at taken
  | joining restarts =>
      rw [caller] at taken
      cases restarts with
      | false => exact .inl ⟨rfl, (Option.some.inj taken).symm⟩
      | true => exact .inr ⟨rfl, (Option.some.inj taken).symm⟩

theorem Sound.step (sound : before.Sound) (taken : before.step event = some after) :
    after.Sound := by
  cases event with
  | joined =>
      obtain ⟨-, ⟨-, rfl⟩ | ⟨-, rfl⟩⟩ := step_joined taken
      · exact sound.joined
      · exact sound.joined.start
  | bind periodMs f =>
      obtain ⟨-, taken⟩ := Option.ite_none_left_eq_some.mp taken
      obtain ⟨-, taken⟩ := Option.ite_none_right_eq_some.mp taken
      obtain rfl := Option.some.inj taken
      exact ⟨sound.free, sound.held, sound.cached⟩
  | start immediate repeats =>
      obtain ⟨-, taken⟩ := Option.ite_none_left_eq_some.mp taken
      obtain ⟨-, taken⟩ := Option.ite_none_right_eq_some.mp taken
      obtain rfl := Option.some.inj taken
      exact sound.start
  | stop | restart =>
      obtain ⟨-, taken⟩ := Option.ite_none_left_eq_some.mp taken
      obtain ⟨-, taken⟩ := Option.ite_none_right_eq_some.mp taken
      obtain rfl := Option.some.inj taken
      exact sound.stop _
  | begin | awake | fired | interrupted =>
      obtain ⟨-, taken⟩ := Option.ite_none_left_eq_some.mp taken
      exact sound.advance (fun beat goes ended => by simp [ended] at goes) taken
  | release =>
      obtain ⟨-, taken⟩ := Option.ite_none_left_eq_some.mp taken
      obtain ⟨⟨ended, present, gone⟩, taken⟩ := Option.ite_none_right_eq_some.mp taken
      obtain rfl := Option.some.inj taken
      refine ⟨fun _ => rfl, fun ⟨beat, member, running⟩ => ?_, sound.cached⟩
      obtain rfl := Option.some.inj (present.symm.trans member)
      exact absurd gone running

/-! ## When the contract is kept -/

theorem inProgress_iff_not_ended {beat : Beat F} (thread : controller.th = some beat) :
    controller.InProgress ↔ ¬ controller.Ended := by
  simp [InProgress, Ended, thread]

theorem not_inProgress_of_none (none : controller.th = none) : ¬ controller.InProgress := by
  simp [InProgress, none]

theorem not_ended_of_none (none : controller.th = none) : ¬ controller.Ended := by
  simp [Ended, none]

theorem starts_iff (sound : before.Sound) (safe : before.failure = none) :
    before.Starts immediate repeats (before.start immediate repeats) ↔
      before.period ≠ 0 ∧ ¬ before.Ended := by
  unfold HeartBeatController.start
  split_ifs with unset locked joinable
  · exact iff_of_false (fun starts => by simpa using starts.survives) (fun ⟨set, _⟩ => set unset)
  · obtain ⟨beat, thread⟩ := Option.ne_none_iff_exists'.mp fun none =>
      absurd locked (by simp [sound.free none])
    by_cases gone : before.Ended
    · have resting : ¬ before.InProgress := fun running =>
        (inProgress_iff_not_ended thread).mp running gone
      exact iff_of_false (fun starts => by simpa using (starts.arms resting).1)
        (fun ⟨_, fresh⟩ => fresh gone)
    · have running := (inProgress_iff_not_ended thread).mpr gone
      exact iff_of_true ⟨fun _ => rfl, fun resting => absurd running resting, safe⟩ ⟨unset, gone⟩
  · obtain ⟨beat, thread⟩ := Option.isSome_iff_exists.mp joinable
    have gone : before.Ended := by
      by_contra fresh
      exact locked (sound.held ((inProgress_iff_not_ended thread).mpr fresh))
    exact iff_of_false (fun starts => by simpa using starts.survives) (fun ⟨_, fresh⟩ => fresh gone)
  · have none : before.th = none := by simpa using joinable
    exact iff_of_true
      ⟨fun running => absurd running (not_inProgress_of_none none), fun _ => ⟨rfl, rfl, rfl⟩, safe⟩
      ⟨unset, not_ended_of_none none⟩

theorem restarts_iff (sound : before.Sound) (safe : before.failure = none) :
    before.Restarts (before.joined.start before.immediateCache before.repeatCache) ↔
      before.period ≠ 0 := by
  unfold HeartBeatController.start
  split_ifs with unset locked joinable
  · exact iff_of_false (fun restarts => by simpa using restarts.survives) (fun set => set unset)
  · simp [HeartBeatController.joined] at locked
  · simp [HeartBeatController.joined] at joinable
  · exact iff_of_true ⟨⟨by rw [← sound.cached safe], rfl⟩, safe⟩ unset

theorem advance_failure {enabled : Beat F → Bool} {phase : Beat F → BeatPhase}
    (taken : before.advance enabled phase = some after) : after.failure = before.failure := by
  rw [HeartBeatController.advance] at taken
  cases thread : before.th with
  | none => simp [thread] at taken
  | some beat =>
      rw [thread] at taken
      obtain ⟨-, taken⟩ := Option.ite_none_right_eq_some.mp taken
      obtain rfl := Option.some.inj taken
      rfl

theorem honours_step_iff (sound : before.Sound) (taken : before.step event = some after) :
    before.Honours event after ↔ before.InTurn event after := by
  have whole := taken
  obtain ⟨safe, taken⟩ := Option.ite_none_left_eq_some.mp taken
  replace safe : before.failure = none := by simpa using safe
  cases event with
  | start immediate repeats =>
      obtain ⟨-, taken⟩ := Option.ite_none_right_eq_some.mp taken
      obtain rfl := Option.some.inj taken
      exact starts_iff sound safe
  | joined =>
      obtain ⟨-, ⟨caller, rfl⟩ | ⟨caller, rfl⟩⟩ := step_joined whole
      · simp [Honours, InTurn, caller, HeartBeatController.joined, safe]
      · simpa [Honours, InTurn, caller] using restarts_iff sound safe
  | bind | stop | restart | release =>
      obtain ⟨-, taken⟩ := Option.ite_none_right_eq_some.mp taken
      obtain rfl := Option.some.inj taken
      exact iff_of_true safe trivial
  | begin | awake | fired | interrupted =>
      exact iff_of_true ((advance_failure taken).trans safe) trivial

/-- The contract is kept along a run exactly when its calls come in turn. -/
theorem honours_iff :
    Execution.Along step Honours events ({} : HeartBeatController F) ↔
      Execution.Along step InTurn events {} := by
  refine Execution.along_congr_of_invariant (fun before event after sound taken => ?_)
    (fun before event after sound taken _ => ?_) sound_init
  · exact honours_step_iff sound taken
  · exact sound.step taken

/-- A one-shot beat comes to its end. -/
def endedByItself : List (BeatEvent Unit) :=
  [.bind 100 (), .start false false, .begin, .awake, .fired]

/-- The next `start` returns false as long as the thread holds the mutex, and then its assertion
fails. -/
theorem honours_counterexample :
    (∃ before after, Execution.run step endedByItself {} = some before ∧ ¬ before.InProgress ∧
      before.step (.start false false) = some after ∧ after.returned = some false) ∧
    ∃ after, Execution.run step (endedByItself ++ [.release, .start false false]) {} = some after ∧
      after.failure = some .notJoinable := by
  refine ⟨⟨_, _, rfl, ?_, rfl, rfl⟩, _, rfl, rfl⟩
  rw [inProgress_iff_not_ended rfl]
  exact fun running => running ⟨_, rfl, rfl⟩

end Quintet.HeartBeatController
