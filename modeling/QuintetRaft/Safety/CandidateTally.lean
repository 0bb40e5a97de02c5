import QuintetRaft.Library.Execution
import QuintetRaft.Model.CandidateThreads
import QuintetRaft.Model.Cluster

/-!
# The tally of a candidate

However the answers arrive, a candidacy issues `notify(Leader, term)` only after positive answers to
its own requests which, with its own vote, are more than half of the servers.  No answer is counted
twice or in another candidacy.
-/

namespace Quintet

namespace CandidatePhase

/-- The servers that this candidacy has not asked yet. -/
def unasked (info : ServerInfo) : CandidatePhase → List ServerId
  | .away | .voting | .resetting | .comparing | .notifying => info.others
  | .asking rest => rest.filter (· ≠ info.localId)
  | .standing | .cancelling _ | .interrupting _ | .joining _ => []

/-- `votesReceived` belongs to this candidacy. -/
def Counting : CandidatePhase → Prop
  | .away | .voting | .resetting => False
  | _ => True

end CandidatePhase

/-- The answer has been counted, or the thread has returned. -/
def RequestPhase.Past : RequestPhase → Prop
  | .calling | .testing .. | .adding _ => False
  | _ => True

/-- The request that an event is about. -/
def CandidateEvent.about : CandidateEvent → Option VoteRequest
  | .ask request | .answer request _ | .count _ request => some request
  | .stand .. | .notify .. => none

namespace CandidateThreads

variable {info : ServerInfo} {before after candidate : CandidateThreads}
  {history earlier : List CandidateEvent} {event : CandidateEvent} {action : CandidateAction}
  {thread term : Nat}

/-- Distinct other servers have answered the requests of a candidacy positively, in its term, and
with its own vote they are more than half. -/
def Wins (info : ServerInfo) (earlier : List CandidateEvent) (candidacy term : Nat) : Prop :=
  ∃ voters : List ServerId,
    voters.Nodup ∧ voters ⊆ info.others ∧ info.exceedsHalf (1 + voters.length) ∧
      ∀ voter ∈ voters, ∃ request : VoteRequest,
        request.candidacy = candidacy ∧ request.target = voter ∧ request.msg.term = term ∧
          .ask request ∈ earlier ∧ .answer request (term, true) ∈ earlier

/-- What comes before an event. -/
def Justified (info : ServerInfo) (earlier : List CandidateEvent) : CandidateEvent → Prop
  | .notify candidacy term => .stand candidacy term ∈ earlier ∧ Wins info earlier candidacy term
  | .count candidacy request =>
      request.candidacy = candidacy ∧ .stand candidacy request.msg.term ∈ earlier ∧
        .ask request ∈ earlier ∧ .answer request (request.msg.term, true) ∈ earlier ∧
          ∀ other, .count other request ∉ earlier
  | .answer request _ => .ask request ∈ earlier ∧ ∀ other, .answer request other ∉ earlier
  | .ask request =>
      .stand request.candidacy request.msg.term ∈ earlier ∧ request.target ∈ info.others
  | .stand .. => True

/-- Every event of a history, which has the latest first, is justified. -/
def SoundTally (info : ServerInfo) (history : List CandidateEvent) : Prop :=
  ∀ event earlier, event :: earlier <:+ history → Justified info earlier event

theorem soundTally_cons :
    SoundTally info (event :: earlier) ↔
      Justified info earlier event ∧ SoundTally info earlier := by
  constructor
  · intro sound
    exact ⟨sound event earlier List.suffix_rfl,
      fun other before inside => sound other before (inside.trans (List.suffix_cons _ _))⟩
  · rintro ⟨justified, sound⟩ other before inside
    rcases List.suffix_cons_iff.mp inside with same | older
    · obtain ⟨rfl, rfl⟩ := List.cons.inj same
      exact justified
    · exact sound other before older

/-- More events do not take a victory back. -/
theorem Wins.mono {candidacy : Nat} (wins : Wins info earlier candidacy term)
    (grows : earlier ⊆ history) : Wins info history candidacy term := by
  obtain ⟨voters, distinct, others, many, answered⟩ := wins
  refine ⟨voters, distinct, others, many, fun voter member => ?_⟩
  obtain ⟨request, own, target, current, asked, positive⟩ := answered voter member
  exact ⟨request, own, target, current, grows asked, grows positive⟩

/-! ## What a step can do -/

/-- A step of `init` or `leave` that leaves the requests and the tally alone, or a handler. -/
structure Walks (info : ServerInfo) (before : CandidateThreads) (phase : CandidatePhase)
    (state : ServerState) : Prop where
  unasked : phase.unasked info = before.phase.unasked info
  away : before.phase = .away → phase = .away
  initialising : phase.Initialising →
    before.phase.Initialising ∧ state.currentTerm = before.state.currentTerm
  counting : phase.Counting → before.phase.Counting
  alone : phase = .notifying → before.phase = .comparing ∧ info.exceedsHalf before.votesReceived
  joined : ∀ rest, phase = .joining rest → before.phase = .joining rest ∨ rest = before.requests ∨
    ∃ thread, before.phase = .joining (thread :: rest) ∧ before.threads thread = .ended

/-- The steps by what they change. -/
inductive Moves (info : ServerInfo) (before : CandidateThreads) : CandidateThreads → Prop
  | init (phase : before.phase = .away) :
      Moves info before
        { before with
          state.currentTerm := incrementTerm before.state.currentTerm
          phase := .voting
          candidacy := before.candidacy + 1
          history :=
            .stand (before.candidacy + 1) (incrementTerm before.state.currentTerm) ::
              before.history }
  | walk (phase : CandidatePhase) (state : ServerState) (interrupted : Nat → Bool)
      (walks : Walks info before phase state) :
      Moves info before { before with state, interrupted, phase }
  | reset (phase : before.phase = .resetting) :
      Moves info before { before with votesReceived := 1, phase := .comparing }
  | notify (phase : before.phase = .notifying) :
      Moves info before
        { before with
          phase := .asking info.srvList
          history := .notify before.candidacy before.state.currentTerm :: before.history }
  | ask (srv : ServerId) (rest : List ServerId) (phase : before.phase = .asking (srv :: rest))
      (other : srv ≠ info.localId) :
      Moves info before { before.ask info srv with phase := .asking rest }
  | clear (phase : before.phase = .joining []) :
      Moves info before { before with requests := [], phase := .away }
  | answer (thread : Nat) (reply : Reply) (phase : before.threads thread = .calling) :
      Moves info before
        { before.setThread thread (.testing reply.1 reply.2) with
          history := .answer (before.request thread) reply :: before.history }
  | accept (thread : Nat)
      (phase : before.threads thread = .testing (before.request thread).msg.term true) :
      Moves info before (before.setThread thread (.adding true))
  | count (thread : Nat) (res : Bool) (phase : before.threads thread = .adding res) :
      Moves info before
        { before.setThread thread .comparing with
          votesReceived := before.votesReceived + res.toNat
          history := .count before.candidacy (before.request thread) :: before.history }
  | exceed (thread : Nat) (phase : before.threads thread = .comparing)
      (many : info.exceedsHalf before.votesReceived) :
      Moves info before (before.setThread thread .notifying)
  | inform (thread : Nat) (phase : before.threads thread = .notifying) :
      Moves info before
        { before.setThread thread .ended with
          history :=
            .notify (before.request thread).candidacy (before.request thread).msg.term ::
              before.history }
  | finish (thread : Nat) (active : before.threads thread ≠ .ended) :
      Moves info before (before.setThread thread .ended)

/-- A step of `init` or `leave` from a phase that is known. -/
theorem walk_moves {earlier phase : CandidatePhase} {state : ServerState}
    {interrupted : Nat → Bool} (is : before.phase = earlier)
    (unasked : phase.unasked info = earlier.unasked info)
    (initialising : phase.Initialising →
      earlier.Initialising ∧ state.currentTerm = before.state.currentTerm)
    (counting : phase.Counting → earlier.Counting) (here : earlier ≠ .away)
    (alone : phase ≠ .notifying)
    (joined : ∀ rest, phase = .joining rest → rest = before.requests ∨
      ∃ thread, earlier = .joining (thread :: rest) ∧ before.threads thread = .ended) :
    before.Moves info { before with state, interrupted, phase } := by
  subst is
  exact .walk phase state interrupted
    { unasked
      away := fun away => absurd away here
      initialising
      counting
      alone := fun notifying => absurd notifying alone
      joined := fun rest leaves => .inr (joined rest leaves) }

theorem stepProceed_moves (taken : before.stepProceed info = some after) :
    before.Moves info after := by
  unfold stepProceed at taken
  split at taken
  case h_1 phase =>
    obtain rfl := Option.some.inj taken
    exact walk_moves phase rfl (fun _ => ⟨trivial, rfl⟩) False.elim (by simp) (by simp) (by simp)
  case h_2 phase =>
    obtain rfl := Option.some.inj taken
    exact .reset phase
  case h_3 phase =>
    obtain rfl := Option.some.inj taken
    split_ifs with many
    · refine .walk .notifying _ _ ?_
      constructor <;>
        simp [phase, many, CandidatePhase.unasked, CandidatePhase.Initialising,
          CandidatePhase.Counting]
    · exact walk_moves phase rfl (fun _ => ⟨trivial, rfl⟩) id (by simp) (by simp) (by simp)
  case h_4 phase =>
    obtain rfl := Option.some.inj taken
    exact .notify phase
  case h_5 phase =>
    obtain rfl := Option.some.inj taken
    exact walk_moves phase rfl False.elim id (by simp) (by simp) (by simp)
  case h_6 srv rest phase =>
    split at taken
    · next own =>
        obtain rfl := Option.some.inj taken
        exact walk_moves phase (by simp [CandidatePhase.unasked, own])
          (fun _ => ⟨trivial, rfl⟩) id (by simp) (by simp) (by simp)
    · next other =>
        obtain rfl := Option.some.inj taken
        exact .ask srv rest phase other
  case h_7 phase =>
    obtain rfl := Option.some.inj taken
    exact walk_moves phase rfl False.elim id (by simp) (by simp) (by simp)
  case h_8 phase =>
    obtain rfl := Option.some.inj taken
    exact walk_moves phase rfl False.elim id (by simp) (by simp) (by simp)
  case h_9 phase =>
    obtain rfl := Option.some.inj taken
    exact walk_moves phase rfl False.elim id (by simp) (by simp) (by simp)
  case h_10 phase =>
    obtain rfl := Option.some.inj taken
    exact walk_moves phase rfl False.elim id (by simp) (by simp) (by simp)
  case h_11 phase =>
    obtain rfl := Option.some.inj taken
    exact .clear phase
  case h_12 thread rest phase =>
    obtain ⟨ended, rfl⟩ := Execution.guarded_eq_some.mp taken
    exact walk_moves phase rfl False.elim id (by simp) (by simp) (by simp [ended])
  all_goals cases taken

theorem stepRequest_moves (taken : before.stepRequest info thread = some after) :
    before.Moves info after := by
  unfold stepRequest at taken
  split at taken
  case h_1 termReceived res phase =>
    obtain rfl := Option.some.inj taken
    split_ifs with refused
    · exact .finish thread (by simp [phase])
    · obtain ⟨same, granted⟩ := not_or.mp refused
      obtain rfl : res = true := by simpa using granted
      exact .accept thread (by rw [phase, not_not.mp same])
  case h_2 res phase =>
    obtain rfl := Option.some.inj taken
    exact .count thread res phase
  case h_3 phase =>
    obtain rfl := Option.some.inj taken
    split_ifs with many
    · exact .exceed thread phase many
    · exact .finish thread (by simp [phase])
  case h_4 phase =>
    obtain rfl := Option.some.inj taken
    exact .inform thread phase
  all_goals cases taken

/-- Every step is one of them. -/
theorem step_moves (taken : before.step info action = some after) : before.Moves info after := by
  cases action with
  | init =>
      obtain ⟨phase, rfl⟩ := Execution.guarded_eq_some.mp taken
      exact .init phase
  | leave =>
      obtain ⟨phase, rfl⟩ := Execution.guarded_eq_some.mp taken
      exact walk_moves phase rfl False.elim id (by simp) (by simp) (by simp)
  | proceed => exact stepProceed_moves taken
  | answer thread reply =>
      obtain ⟨phase, rfl⟩ := Execution.guarded_eq_some.mp taken
      exact .answer thread reply phase
  | fail thread =>
      obtain ⟨phase, rfl⟩ := Execution.guarded_eq_some.mp taken
      exact .finish thread (by simp [phase])
  | interrupt thread =>
      obtain ⟨⟨phase, -⟩, rfl⟩ := Execution.guarded_eq_some.mp taken
      exact .finish thread (by simp [phase])
  | request thread => exact stepRequest_moves taken
  | handle state =>
      simp only [step] at taken
      split_ifs at taken with initialises
      obtain rfl := Option.some.inj taken
      exact .walk before.phase state before.interrupted
        { unasked := rfl
          away := id
          initialising := fun runs => absurd runs initialises
          counting := id
          alone := fun notifies => absurd (notifies ▸ trivial) initialises
          joined := fun rest leaves => .inl leaves }

/-! ## The threads of a candidacy -/

/-- Every thread at work belongs to a request in the vector, and no server is asked twice. -/
structure Managed (info : ServerInfo) (candidate : CandidateThreads) : Prop where
  named : ∀ thread, (candidate.request thread).thread = thread
  handled : ∀ thread, candidate.threads thread ≠ .ended → thread ∈ candidate.requests
  known : ∀ thread ∈ candidate.requests, thread < candidate.created
  targets : candidate.requests.map (fun thread => (candidate.request thread).target) ++
    candidate.phase.unasked info = info.others
  joined : ∀ rest, candidate.phase = .joining rest →
    ∀ thread ∈ candidate.requests, thread ∈ rest ∨ candidate.threads thread = .ended

theorem managed_start (state : ServerState) : Managed info { state } where
  named := by simp
  handled := by simp
  known := by simp
  targets := rfl
  joined := by simp

/-- Outside a candidacy there are no requests. -/
theorem Managed.requests_nil (managed : candidate.Managed info)
    (unasked : candidate.phase.unasked info = info.others) : candidate.requests = [] := by
  have targets := managed.targets
  rw [unasked] at targets
  simpa using targets

/-- No server is asked twice. -/
theorem Managed.targets_nodup (distinct : info.srvList.Nodup) (managed : candidate.Managed info) :
    (candidate.requests.map fun thread => (candidate.request thread).target).Nodup :=
  (managed.targets ▸ ServerInfo.others_nodup distinct).of_append_left

/-- A thread that goes on is one of those at work. -/
theorem Managed.setThread (managed : before.Managed info) (thread : Nat) (phase : RequestPhase)
    (active : before.threads thread ≠ .ended) :
    (before.setThread thread phase).Managed info where
  named := managed.named
  handled :=
    (Function.forall_update_iff before.threads
      fun other phase => phase ≠ .ended → other ∈ before.requests).mpr
      ⟨fun _ => managed.handled thread active, fun other _ => managed.handled other⟩
  known := managed.known
  targets := managed.targets
  joined rest leaves other member := by
    rcases managed.joined rest leaves other member with left | ended
    · exact .inl left
    · have differs : other ≠ thread := by
        rintro rfl
        exact active ended
      exact .inr (by simpa [CandidateThreads.setThread, Function.update_of_ne differs] using ended)

/-- What is kept of the threads that have been created before. -/
theorem request_ask (info : ServerInfo) (srv : ServerId) (older : thread < before.created) :
    (before.ask info srv).request thread = before.request thread :=
  Function.update_of_ne (Nat.ne_of_lt older) _ _

theorem Managed.ask (managed : before.Managed info) {srv : ServerId} {rest : List ServerId}
    (phase : before.phase = .asking (srv :: rest)) (other : srv ≠ info.localId) :
    Managed info { before.ask info srv with phase := .asking rest } where
  named :=
    (Function.forall_update_iff before.request fun thread request => request.thread = thread).mpr
      ⟨rfl, fun thread _ => managed.named thread⟩
  handled :=
    (Function.forall_update_iff before.threads
      fun thread phase => phase ≠ .ended → thread ∈ before.requests ++ [before.created]).mpr
      ⟨fun _ => by simp,
        fun thread _ works => List.mem_append_left _ (managed.handled thread works)⟩
  known thread member := by
    rcases List.mem_append.mp member with older | new
    · exact Nat.lt_succ_of_lt (managed.known thread older)
    · rw [List.mem_singleton.mp new]
      exact Nat.lt_succ_self _
  targets := by
    have targets := managed.targets
    rw [phase] at targets
    have kept : before.requests.map (fun thread => ((before.ask info srv).request thread).target) =
        before.requests.map (fun thread => (before.request thread).target) :=
      List.map_congr_left fun thread member => by
        rw [request_ask info srv (managed.known thread member)]
    have new : ((before.ask info srv).request before.created).target = srv := by
      simp [CandidateThreads.ask]
    calc
      (before.requests ++ [before.created]).map
            (fun thread => ((before.ask info srv).request thread).target) ++
          rest.filter (· ≠ info.localId)
        = before.requests.map (fun thread => (before.request thread).target) ++
            (srv :: rest).filter (· ≠ info.localId) := by
          rw [List.map_append, kept, List.map_singleton, new, List.append_assoc]
          simp [other]
      _ = info.others := targets
  joined := by simp

theorem Managed.moves (managed : before.Managed info) (moves : before.Moves info after) :
    after.Managed info := by
  cases moves with
  | init phase =>
      exact
        { managed with
          targets := by simpa [phase, CandidatePhase.unasked] using managed.targets
          joined := by simp }
  | walk phase state interrupted walks =>
      refine { managed with targets := ?_, joined := fun rest leaves other member => ?_ }
      · exact (congrArg _ walks.unasked).trans managed.targets
      · rcases walks.joined rest leaves with same | rfl | ⟨thread, earlier, ended⟩
        · exact managed.joined rest same other member
        · exact .inl member
        · rcases managed.joined _ earlier other member with left | done
          · rcases List.mem_cons.mp left with rfl | later
            · exact .inr ended
            · exact .inl later
          · exact .inr done
  | reset phase =>
      exact
        { managed with
          targets := by simpa [phase, CandidatePhase.unasked] using managed.targets
          joined := by simp }
  | notify phase =>
      exact
        { managed with
          targets := by
            simpa [phase, CandidatePhase.unasked, ServerInfo.others] using managed.targets
          joined := by simp }
  | ask srv rest phase other => exact managed.ask phase other
  | clear phase =>
      exact
        { managed with
          handled := fun thread works => by
            have ended := managed.joined [] phase thread (managed.handled thread works)
            exact absurd (by simpa using ended) works
          known := by simp
          targets := by simp [CandidatePhase.unasked]
          joined := by simp }
  | answer thread reply phase =>
      exact { managed.setThread thread (.testing reply.1 reply.2) (by simp [phase]) with }
  | accept thread phase => exact managed.setThread thread (.adding true) (by simp [phase])
  | count thread res phase =>
      exact { managed.setThread thread .comparing (by simp [phase]) with }
  | exceed thread phase many => exact managed.setThread thread .notifying (by simp [phase])
  | inform thread phase => exact { managed.setThread thread .ended (by simp [phase]) with }
  | finish thread active => exact managed.setThread thread .ended active

/-! ## The term of a candidacy -/

/-- The requests belong to the present candidacy and to its term. -/
structure Owned (candidate : CandidateThreads) (term : Nat) : Prop where
  stood : candidate.phase ≠ .away → .stand candidate.candidacy term ∈ candidate.history
  current : candidate.phase.Initialising → candidate.state.currentTerm = term
  asked : ∀ thread ∈ candidate.requests,
    (candidate.request thread).candidacy = candidate.candidacy ∧
      (candidate.request thread).msg.term = term ∧
      .ask (candidate.request thread) ∈ candidate.history

theorem owned_start (state : ServerState) : Owned { state } 0 where
  stood := by simp
  current := False.elim
  asked := by simp

/-- Request threads leave the candidacy alone. -/
theorem Owned.frame (owned : before.Owned term) (phase : after.phase = before.phase)
    (candidacy : after.candidacy = before.candidacy) (state : after.state = before.state)
    (requests : after.requests = before.requests) (request : after.request = before.request)
    (grows : before.history ⊆ after.history) : after.Owned term where
  stood := by
    rw [phase, candidacy]
    exact fun present => grows (owned.stood present)
  current := by
    rw [phase, state]
    exact owned.current
  asked := by
    rw [requests, request, candidacy]
    intro thread member
    obtain ⟨own, current, asked⟩ := owned.asked thread member
    exact ⟨own, current, grows asked⟩

theorem Owned.ask (managed : before.Managed info) (owned : before.Owned term) {srv : ServerId}
    {rest : List ServerId} (phase : before.phase = .asking (srv :: rest)) :
    Owned { before.ask info srv with phase := .asking rest } term where
  stood _ := List.mem_cons_of_mem _ (owned.stood (by simp [phase]))
  current _ := owned.current (phase ▸ trivial)
  asked thread member := by
    rcases List.mem_append.mp member with older | new
    · obtain ⟨own, current, asked⟩ := owned.asked thread older
      have same := request_ask info srv (managed.known thread older)
      refine ⟨?_, ?_, ?_⟩
      · exact (congrArg VoteRequest.candidacy same).trans own
      · exact (congrArg (fun request => request.msg.term) same).trans current
      · exact List.mem_cons_of_mem _ (same ▸ asked)
    · obtain rfl := List.mem_singleton.mp new
      have current := owned.current (phase ▸ trivial)
      simpa [CandidateThreads.ask, setThread, Server.createRequestVoteMessage] using current

theorem Owned.moves (managed : before.Managed info) (owned : before.Owned term)
    (moves : before.Moves info after) : ∃ term, after.Owned term := by
  cases moves with
  | init phase =>
      have none := managed.requests_nil (by simp [phase, CandidatePhase.unasked])
      exact ⟨_, fun _ => List.mem_cons_self, fun _ => rfl, by simp [none]⟩
  | walk phase state interrupted walks =>
      refine ⟨term, fun present => owned.stood (mt walks.away present), fun runs => ?_,
        owned.asked⟩
      obtain ⟨earlier, same⟩ := walks.initialising runs
      exact same.trans (owned.current earlier)
  | reset phase =>
      exact ⟨term, fun _ => owned.stood (by simp [phase]),
        fun _ => owned.current (phase ▸ trivial), owned.asked⟩
  | notify phase =>
      refine ⟨term, fun _ => List.mem_cons_of_mem _ (owned.stood (by simp [phase])),
        fun _ => owned.current (phase ▸ trivial), fun thread member => ?_⟩
      obtain ⟨own, current, asked⟩ := owned.asked thread member
      exact ⟨own, current, List.mem_cons_of_mem _ asked⟩
  | ask srv rest phase other => exact ⟨term, owned.ask managed phase⟩
  | clear phase => exact ⟨term, by simp, False.elim, by simp⟩
  | answer thread reply phase =>
      exact ⟨term, owned.frame rfl rfl rfl rfl rfl (List.subset_cons_self _ _)⟩
  | accept thread phase => exact ⟨term, owned.frame rfl rfl rfl rfl rfl (List.Subset.refl _)⟩
  | count thread res phase =>
      exact ⟨term, owned.frame rfl rfl rfl rfl rfl (List.subset_cons_self _ _)⟩
  | exceed thread phase many =>
      exact ⟨term, owned.frame rfl rfl rfl rfl rfl (List.Subset.refl _)⟩
  | inform thread phase =>
      exact ⟨term, owned.frame rfl rfl rfl rfl rfl (List.subset_cons_self _ _)⟩
  | finish thread active =>
      exact ⟨term, owned.frame rfl rfl rfl rfl rfl (List.Subset.refl _)⟩

/-! ## What the history says about a thread -/

/-- How far a thread is, by the history. -/
def Reached (info : ServerInfo) (history : List CandidateEvent) (request : VoteRequest) :
    RequestPhase → Prop
  | .calling =>
      (∀ reply, .answer request reply ∉ history) ∧ ∀ candidacy, .count candidacy request ∉ history
  | .testing termReceived res =>
      .answer request (termReceived, res) ∈ history ∧
        ∀ candidacy, .count candidacy request ∉ history
  | .adding res =>
      res = true ∧ .answer request (request.msg.term, true) ∈ history ∧
        ∀ candidacy, .count candidacy request ∉ history
  | .notifying => Wins info history request.candidacy request.msg.term
  | .comparing | .ended => True

/-- An event about another request changes nothing. -/
theorem Reached.cons {request : VoteRequest} {phase : RequestPhase}
    (reached : Reached info history request phase)
    (other : ∀ another ∈ event.about, another ≠ request) :
    Reached info (event :: history) request phase := by
  have answers : ∀ reply, event ≠ .answer request reply := by
    rintro reply rfl
    exact other request rfl rfl
  have counts : ∀ candidacy, event ≠ .count candidacy request := by
    rintro candidacy rfl
    exact other request rfl rfl
  cases phase with
  | calling => simpa [Reached, Ne.symm (answers _), Ne.symm (counts _)] using reached
  | testing termReceived res =>
      simpa [Reached, Ne.symm (answers _), Ne.symm (counts _)] using reached
  | adding res => simpa [Reached, Ne.symm (answers _), Ne.symm (counts _)] using reached
  | comparing => trivial
  | notifying => exact Wins.mono reached (List.subset_cons_self _ _)
  | ended => trivial

/-- The history agrees with the phases of the threads. -/
structure Recorded (info : ServerInfo) (candidate : CandidateThreads) : Prop where
  older : ∀ event ∈ candidate.history, ∀ request ∈ event.about, request.thread < candidate.created
  reached : ∀ thread,
    Reached info candidate.history (candidate.request thread) (candidate.threads thread)
  informs : candidate.phase = .notifying →
    Wins info candidate.history candidate.candidacy candidate.state.currentTerm

theorem recorded_start (state : ServerState) : Recorded info { state } where
  older := by simp
  reached := fun _ => trivial
  informs := by simp

/-- An event that is about no request. -/
theorem Recorded.cons (recorded : before.Recorded info) (event : CandidateEvent)
    (nothing : event.about = none) :
    (∀ other ∈ event :: before.history, ∀ request ∈ other.about, request.thread < before.created) ∧
      ∀ thread, Reached info (event :: before.history) (before.request thread)
        (before.threads thread) := by
  refine ⟨?_, fun thread => (recorded.reached thread).cons (by simp [nothing])⟩
  exact List.forall_mem_cons.mpr ⟨by simp [nothing], recorded.older⟩

/-- A thread goes on, and nothing is added to the history. -/
theorem Recorded.setThread (recorded : before.Recorded info) (thread : Nat) (phase : RequestPhase)
    (reached : Reached info before.history (before.request thread) phase) :
    (before.setThread thread phase).Recorded info where
  older := recorded.older
  reached :=
    (Function.forall_update_iff before.threads
      fun other phase => Reached info before.history (before.request other) phase).mpr
      ⟨reached, fun other _ => recorded.reached other⟩
  informs := recorded.informs

/-- A thread goes on with an event about its request, or about none. -/
theorem Recorded.setThread_cons (managed : before.Managed info) (recorded : before.Recorded info)
    (thread : Nat) (phase : RequestPhase) (votes : Nat) (event : CandidateEvent)
    (active : before.threads thread ≠ .ended)
    (own : ∀ request ∈ event.about, request = before.request thread)
    (reached : Reached info (event :: before.history) (before.request thread) phase) :
    Recorded info
      { before.setThread thread phase with
        votesReceived := votes
        history := event :: before.history } where
  older := by
    refine List.forall_mem_cons.mpr ⟨fun request about => ?_, recorded.older⟩
    rw [own request about, managed.named]
    exact managed.known thread (managed.handled thread active)
  reached := by
    refine (Function.forall_update_iff before.threads fun other phase =>
      Reached info (event :: before.history) (before.request other) phase).mpr ⟨reached, ?_⟩
    intro other differs
    refine (recorded.reached other).cons fun request about equal => differs ?_
    rw [← managed.named other, ← equal, own request about, managed.named]
  informs notifies := (recorded.informs notifies).mono (List.subset_cons_self _ _)

/-- A new request has neither been answered nor counted. -/
theorem Recorded.reached_new (recorded : before.Recorded info) {request : VoteRequest}
    (new : request.thread = before.created) :
    Reached info (.ask request :: before.history) request .calling := by
  have fresh : ∀ event ∈ before.history, request ∉ event.about := fun event member about =>
    Nat.lt_irrefl _ (new ▸ recorded.older event member request about)
  constructor
  · intro reply member
    exact fresh _ (by simpa using member) rfl
  · intro candidacy member
    exact fresh _ (by simpa using member) rfl

theorem Recorded.ask (managed : before.Managed info) (recorded : before.Recorded info)
    {srv : ServerId} {rest : List ServerId} :
    Recorded info { before.ask info srv with phase := .asking rest } where
  older := by
    refine List.forall_mem_cons.mpr ⟨?_, fun event member request about => ?_⟩
    · rintro request ⟨⟩
      exact Nat.lt_succ_self _
    · exact Nat.lt_succ_of_lt (recorded.older event member request about)
  reached thread := by
    by_cases new : thread = before.created
    · subst new
      simpa [CandidateThreads.ask, CandidateThreads.setThread] using recorded.reached_new rfl
    · have kept : Reached info
          (.ask ((before.ask info srv).request before.created) :: before.history)
          (before.request thread) (before.threads thread) := by
        refine (recorded.reached thread).cons ?_
        rintro request ⟨⟩ same
        have names := congrArg VoteRequest.thread same
        rw [managed.named] at names
        exact new (by simpa [CandidateThreads.ask] using names.symm)
      simpa [CandidateThreads.ask, CandidateThreads.setThread, Function.update_of_ne new]
        using kept
  informs := by simp

/-! ## The votes -/

/-- The threads whose answers have been counted in this candidacy. -/
structure Counts (candidate : CandidateThreads) (counted : List Nat) : Prop where
  distinct : counted.Nodup
  number : candidate.votesReceived = 1 + counted.length
  positive : ∀ thread ∈ counted,
    thread ∈ candidate.requests ∧ (candidate.threads thread).Past ∧
      .answer (candidate.request thread) ((candidate.request thread).msg.term, true) ∈
        candidate.history

/-- When more than half have been counted, the candidacy has won. -/
theorem Counts.wins {counted : List Nat} (distinct : info.srvList.Nodup)
    (managed : candidate.Managed info) (owned : candidate.Owned term)
    (counts : candidate.Counts counted) (many : info.exceedsHalf candidate.votesReceived) :
    Wins info candidate.history candidate.candidacy term := by
  have asked := managed.targets_nodup distinct
  have inside : counted ⊆ candidate.requests := fun thread member =>
    (counts.positive thread member).1
  refine ⟨counted.map fun thread => (candidate.request thread).target, ?_, ?_, ?_, ?_⟩
  · refine counts.distinct.map_on fun one first two second same => ?_
    exact List.inj_on_of_nodup_map asked (inside first) (inside second) same
  · intro voter member
    rw [← managed.targets]
    exact List.mem_append_left _ (List.map_subset _ inside member)
  · rwa [List.length_map, ← counts.number]
  · intro voter member
    obtain ⟨thread, chosen, rfl⟩ := List.mem_map.mp member
    obtain ⟨own, current, asks⟩ := owned.asked thread (inside chosen)
    have positive := (counts.positive thread chosen).2.2
    rw [current] at positive
    exact ⟨_, own, rfl, current, asks, positive⟩

/-- A thread goes on, and its answer stays counted if it was. -/
theorem Counts.setThread {counted : List Nat} (counts : before.Counts counted) (thread : Nat)
    (phase : RequestPhase) (later : List CandidateEvent)
    (past : (before.threads thread).Past → phase.Past) (grows : before.history ⊆ later) :
    Counts { before.setThread thread phase with history := later } counted where
  distinct := counts.distinct
  number := counts.number
  positive other member := by
    obtain ⟨handled, counted, positive⟩ := counts.positive other member
    refine ⟨handled, ?_, grows positive⟩
    by_cases same : other = thread
    · subst same
      simpa [CandidateThreads.setThread] using past counted
    · simpa [CandidateThreads.setThread, Function.update_of_ne same] using counted

/-- A thread adds its answer. -/
theorem Counts.count {counted : List Nat} (managed : before.Managed info)
    (recorded : before.Recorded info) (counts : before.Counts counted) {thread : Nat} {res : Bool}
    (phase : before.threads thread = .adding res) (later : List CandidateEvent)
    (grows : before.history ⊆ later) :
    Counts
      { before.setThread thread .comparing with
        votesReceived := before.votesReceived + res.toNat
        history := later }
      (thread :: counted) where
  distinct := by
    refine List.nodup_cons.mpr ⟨fun member => ?_, counts.distinct⟩
    have past := (counts.positive thread member).2.1
    simp [phase, RequestPhase.Past] at past
  number := by
    obtain ⟨rfl, -, -⟩ : Reached info _ _ (.adding res) := phase ▸ recorded.reached thread
    simp [counts.number, Nat.add_assoc]
  positive other member := by
    by_cases same : other = thread
    · subst same
      obtain ⟨-, positive, -⟩ : Reached info _ _ (.adding res) := phase ▸ recorded.reached other
      refine ⟨managed.handled other (by simp [phase]), ?_, grows positive⟩
      simp [CandidateThreads.setThread, RequestPhase.Past]
    · have earlier := (List.mem_cons.mp member).resolve_left same
      obtain ⟨handled, past, positive⟩ := counts.positive other earlier
      refine ⟨handled, ?_, grows positive⟩
      simpa [CandidateThreads.setThread, Function.update_of_ne same] using past

theorem Counts.ask {counted : List Nat} (managed : before.Managed info)
    (counts : before.Counts counted) {srv : ServerId} {rest : List ServerId} :
    Counts { before.ask info srv with phase := .asking rest } counted where
  distinct := counts.distinct
  number := counts.number
  positive thread member := by
    obtain ⟨handled, past, positive⟩ := counts.positive thread member
    have older := managed.known thread handled
    have same := request_ask info srv older
    refine ⟨List.mem_append_left _ handled, ?_, List.mem_cons_of_mem _ (same ▸ positive)⟩
    simpa [CandidateThreads.ask, CandidateThreads.setThread,
      Function.update_of_ne (Nat.ne_of_lt older)] using past

theorem Counts.moves (managed : before.Managed info) (recorded : before.Recorded info)
    (tallied : before.phase.Counting → ∃ counted, before.Counts counted)
    (moves : before.Moves info after) :
    after.phase.Counting → ∃ counted, after.Counts counted := by
  cases moves with
  | init phase => exact False.elim
  | walk phase state interrupted walks =>
      intro counting
      obtain ⟨counted, counts⟩ := tallied (walks.counting counting)
      exact ⟨counted, { counts with }⟩
  | reset phase => exact fun _ => ⟨[], by constructor <;> simp⟩
  | notify phase =>
      intro _
      obtain ⟨counted, counts⟩ := tallied (phase ▸ trivial)
      refine ⟨counted, counts.distinct, counts.number, fun thread member => ?_⟩
      obtain ⟨handled, past, positive⟩ := counts.positive thread member
      exact ⟨handled, past, List.mem_cons_of_mem _ positive⟩
  | ask srv rest phase other =>
      intro _
      obtain ⟨counted, counts⟩ := tallied (phase ▸ trivial)
      exact ⟨counted, counts.ask managed⟩
  | clear phase => exact False.elim
  | answer thread reply phase =>
      intro counting
      obtain ⟨counted, counts⟩ := tallied counting
      exact ⟨counted, counts.setThread thread _ _ (by simp [phase, RequestPhase.Past])
        (List.subset_cons_self _ _)⟩
  | accept thread phase =>
      intro counting
      obtain ⟨counted, counts⟩ := tallied counting
      exact ⟨counted, counts.setThread thread _ _ (by simp [phase, RequestPhase.Past])
        (List.Subset.refl _)⟩
  | count thread res phase =>
      intro counting
      obtain ⟨counted, counts⟩ := tallied counting
      exact ⟨thread :: counted, counts.count managed recorded phase _ (List.subset_cons_self _ _)⟩
  | exceed thread phase many =>
      intro counting
      obtain ⟨counted, counts⟩ := tallied counting
      exact ⟨counted, counts.setThread thread _ _ (fun _ => trivial) (List.Subset.refl _)⟩
  | inform thread phase =>
      intro counting
      obtain ⟨counted, counts⟩ := tallied counting
      exact ⟨counted, counts.setThread thread _ _ (fun _ => trivial) (List.subset_cons_self _ _)⟩
  | finish thread active =>
      intro counting
      obtain ⟨counted, counts⟩ := tallied counting
      exact ⟨counted, counts.setThread thread _ _ (fun _ => trivial) (List.Subset.refl _)⟩

/-! ## The result -/

/-- What every step keeps. -/
structure Invariant (info : ServerInfo) (candidate : CandidateThreads) : Prop where
  managed : candidate.Managed info
  owned : ∃ term, candidate.Owned term
  recorded : candidate.Recorded info
  tallied : candidate.phase.Counting → ∃ counted, candidate.Counts counted
  sound : SoundTally info candidate.history

theorem invariant_start (info : ServerInfo) (state : ServerState) : Invariant info { state } where
  managed := managed_start state
  owned := ⟨0, owned_start state⟩
  recorded := recorded_start state
  tallied := False.elim
  sound := by simp [SoundTally]

/-- A thread at work belongs to a candidacy that counts. -/
theorem Managed.counting (managed : candidate.Managed info)
    (active : candidate.threads thread ≠ .ended) : candidate.phase.Counting := by
  have member := managed.handled thread active
  cases phase : candidate.phase with
  | away => simp [managed.requests_nil (by rw [phase]; rfl)] at member
  | voting => simp [managed.requests_nil (by rw [phase]; rfl)] at member
  | resetting => simp [managed.requests_nil (by rw [phase]; rfl)] at member
  | _ => trivial

theorem Managed.present (managed : candidate.Managed info)
    (active : candidate.threads thread ≠ .ended) : candidate.phase ≠ .away := by
  intro away
  have counting := managed.counting active
  rwa [away] at counting

/-- A thread that finds more than half counted has a victory to tell. -/
theorem Invariant.wins (distinct : info.srvList.Nodup) (invariant : candidate.Invariant info)
    (active : candidate.threads thread ≠ .ended)
    (many : info.exceedsHalf candidate.votesReceived) :
    Wins info candidate.history (candidate.request thread).candidacy
      (candidate.request thread).msg.term := by
  obtain ⟨term, owned⟩ := invariant.owned
  obtain ⟨own, current, -⟩ := owned.asked thread (invariant.managed.handled thread active)
  obtain ⟨counted, counts⟩ := invariant.tallied (invariant.managed.counting active)
  rw [own, current]
  exact counts.wins distinct invariant.managed owned many

theorem Recorded.moves (distinct : info.srvList.Nodup) (invariant : before.Invariant info)
    (moves : before.Moves info after) : after.Recorded info := by
  have recorded := invariant.recorded
  have managed := invariant.managed
  cases moves with
  | init phase =>
      obtain ⟨older, reached⟩ := recorded.cons
        (.stand (before.candidacy + 1) (incrementTerm before.state.currentTerm)) rfl
      exact ⟨older, reached, by simp⟩
  | walk phase state interrupted walks =>
      refine { recorded with informs := fun notifies => ?_ }
      obtain rfl : phase = .notifying := notifies
      obtain ⟨compares, many⟩ := walks.alone rfl
      obtain ⟨earlier, same⟩ := walks.initialising trivial
      obtain ⟨term, owned⟩ := invariant.owned
      obtain ⟨counted, counts⟩ := invariant.tallied (compares ▸ trivial)
      have wins := counts.wins distinct managed owned many
      rwa [← owned.current earlier, ← same] at wins
  | reset phase => exact { recorded with informs := by simp }
  | notify phase =>
      obtain ⟨older, reached⟩ := recorded.cons
        (.notify before.candidacy before.state.currentTerm) rfl
      exact ⟨older, reached, by simp⟩
  | ask srv rest phase other => exact recorded.ask managed
  | clear phase => exact { recorded with informs := by simp }
  | answer thread reply phase =>
      have reached : Reached info _ _ .calling := phase ▸ recorded.reached thread
      refine recorded.setThread_cons managed thread _ _ _ (by simp [phase]) ?_ ?_
      · rintro request ⟨⟩
        rfl
      · exact ⟨List.mem_cons_self, by simpa using reached.2⟩
  | accept thread phase =>
      have reached : Reached info _ _ (.testing _ true) := phase ▸ recorded.reached thread
      exact recorded.setThread thread _ ⟨rfl, reached⟩
  | count thread res phase =>
      refine recorded.setThread_cons managed thread _ _ _ (by simp [phase]) ?_ trivial
      rintro request ⟨⟩
      rfl
  | exceed thread phase many =>
      exact recorded.setThread thread _ (invariant.wins distinct (by simp [phase]) many)
  | inform thread phase =>
      refine recorded.setThread_cons managed thread _ _ _ (by simp [phase]) ?_ trivial
      simp [CandidateEvent.about]
  | finish thread active => exact recorded.setThread thread _ trivial

/-- The events of a step are justified. -/
theorem SoundTally.moves (invariant : before.Invariant info) (moves : before.Moves info after) :
    SoundTally info after.history := by
  have managed := invariant.managed
  have recorded := invariant.recorded
  have sound := invariant.sound
  obtain ⟨term, owned⟩ := invariant.owned
  cases moves with
  | init phase => exact soundTally_cons.mpr ⟨trivial, sound⟩
  | walk phase state interrupted walks => exact sound
  | reset phase => exact sound
  | notify phase =>
      refine soundTally_cons.mpr ⟨⟨?_, recorded.informs phase⟩, sound⟩
      rw [owned.current (phase ▸ trivial)]
      exact owned.stood (by simp [phase])
  | ask srv rest phase other =>
      refine soundTally_cons.mpr ⟨⟨?_, ?_⟩, sound⟩
      · rw [← owned.current (phase ▸ trivial)] at owned
        exact owned.stood (by simp [phase])
      · rw [← managed.targets, phase]
        simp [CandidatePhase.unasked, other]
  | clear phase => exact sound
  | answer thread reply phase =>
      have reached : Reached info _ _ .calling := phase ▸ recorded.reached thread
      have asked := owned.asked thread (managed.handled thread (by simp [phase]))
      exact soundTally_cons.mpr ⟨⟨asked.2.2, reached.1⟩, sound⟩
  | accept thread phase => exact sound
  | count thread res phase =>
      have active : before.threads thread ≠ .ended := by simp [phase]
      obtain ⟨own, current, asked⟩ := owned.asked thread (managed.handled thread active)
      obtain ⟨-, positive, uncounted⟩ : Reached info _ _ (.adding res) :=
        phase ▸ recorded.reached thread
      refine soundTally_cons.mpr ⟨⟨own, ?_, asked, positive, uncounted⟩, sound⟩
      rw [current]
      exact owned.stood (managed.present active)
  | exceed thread phase many => exact sound
  | inform thread phase =>
      have active : before.threads thread ≠ .ended := by simp [phase]
      obtain ⟨own, current, -⟩ := owned.asked thread (managed.handled thread active)
      have wins : Reached info _ _ .notifying := phase ▸ recorded.reached thread
      refine soundTally_cons.mpr ⟨⟨?_, wins⟩, sound⟩
      rw [own, current]
      exact owned.stood (managed.present active)
  | finish thread active => exact sound

theorem Invariant.step (distinct : info.srvList.Nodup) (invariant : before.Invariant info)
    (taken : before.step info action = some after) : after.Invariant info := by
  have moves := step_moves taken
  obtain ⟨term, owned⟩ := invariant.owned
  exact
    { managed := invariant.managed.moves moves
      owned := owned.moves invariant.managed moves
      recorded := .moves distinct invariant moves
      tallied := Counts.moves invariant.managed invariant.recorded invariant.tallied moves
      sound := .moves invariant moves }

/-- In every run of candidacies, however the request threads are interleaved, what is counted and
issued is justified by what came before. -/
theorem soundTally (info : ServerInfo) (distinct : info.srvList.Nodup) (state : ServerState)
    (actions : List CandidateAction) :
    Execution.Along (step info) (fun _ _ after => SoundTally info after.history) actions
      { state } := by
  refine Execution.along_of_invariant (fun before action after invariant taken _ => ?_)
    (invariant_start info state) (Execution.along_of_forall (fun _ _ _ _ => trivial) actions _)
  have kept := Invariant.step distinct invariant taken
  exact ⟨kept, kept.sound⟩

/-- Server 1 of three asks the others, the first request fails, and the answer to the second one is
enough. -/
def firstCandidacy : List CandidateAction :=
  .init :: List.replicate 7 .proceed ++
    [.fail 0, .answer 1 (1, true), .request 1, .request 1, .request 1, .request 1]

theorem soundTally_first_candidacy :
    (Execution.run (step (trio.info (localServer 1))) firstCandidacy {}).map
        (fun final => final.history.take 2) =
      some
        [.notify 1 1,
          .count 1
            { thread := 1
              candidacy := 1
              target := localServer 3
              msg := { term := 1, candidateId := localServer 1 } }] ∧
      Execution.Along (step (trio.info (localServer 1)))
        (fun _ _ after => SoundTally (trio.info (localServer 1)) after.history) firstCandidacy {} :=
  ⟨by decide +kernel, soundTally (trio.info (localServer 1)) (by decide +kernel) {} firstCandidacy⟩

end CandidateThreads

end Quintet
