import QuintetRaft.Model.Roles
import QuintetRaft.Safety.CandidateTally

/-!
# A candidate whose steps are not interleaved

Left alone, the threads of a candidate do what the model of one server does in one step: `init` in
`candidateInit`, and a request thread with its answer in `receiveVote`.
-/

namespace Quintet.CandidateThreads

variable {info : ServerInfo} {candidate : CandidateThreads} {srv : Server}

/-- The server a thread asks, and the message. -/
def asks (candidate : CandidateThreads) (thread : Nat) : ServerId × RequestVoteMessage :=
  ((candidate.request thread).target, (candidate.request thread).msg)

/-- The requests whose thread has not returned. -/
def asked (candidate : CandidateThreads) : List (ServerId × RequestVoteMessage) :=
  (candidate.requests.filter (candidate.threads · ≠ .ended)).map candidate.asks

/-- The terms of the calls of `notify`, the latest first. -/
def notices (candidate : CandidateThreads) : List Nat :=
  candidate.history.filterMap fun
    | .notify _ term => some term
    | _ => none

/-- The threads of a candidate in the model of one server. -/
structure Matches (candidate : CandidateThreads) (srv : Server) : Prop where
  state : candidate.state = srv.state
  votes : candidate.votesReceived = srv.candidate.votesReceived
  requests : candidate.asked = srv.candidate.requests

/-! ## `init` -/

/-- A new request thread is the last one at work. -/
theorem asked_ask (managed : candidate.Managed info) (target : ServerId) (phase : CandidatePhase) :
    { candidate.ask info target with phase }.asked =
      candidate.asked ++
        [(target, Server.createRequestVoteMessage info { state := candidate.state })] := by
  have older : ∀ thread ∈ candidate.requests, thread ≠ candidate.created := fun thread member =>
    Nat.ne_of_lt (managed.known thread member)
  have working : candidate.requests.filter ((candidate.ask info target).threads · ≠ .ended) =
      candidate.requests.filter (candidate.threads · ≠ .ended) :=
    List.filter_congr fun thread member => by
      simp [ask, setThread, Function.update_of_ne (older thread member)]
  have same : (candidate.requests.filter (candidate.threads · ≠ .ended)).map
        (candidate.ask info target).asks =
      (candidate.requests.filter (candidate.threads · ≠ .ended)).map candidate.asks :=
    List.map_congr_left fun thread member => by
      have known := managed.known thread (List.mem_of_mem_filter member)
      simp only [asks, request_ask info target known]
  calc
    { candidate.ask info target with phase }.asked
      = ((candidate.requests ++ [candidate.created]).filter
          ((candidate.ask info target).threads · ≠ .ended)).map
            (candidate.ask info target).asks := rfl
    _ = candidate.asked ++
        [(target, Server.createRequestVoteMessage info { state := candidate.state })] := by
      rw [List.filter_append, working, List.map_append, same]
      simp [asked, asks, ask, setThread]

/-- The loop of `requestVotes`. -/
theorem run_asking (rest : List ServerId) (managed : candidate.Managed info)
    (phase : candidate.phase = .asking rest) :
    ∃ final,
      Execution.run (step info) (List.replicate (rest.length + 1) .proceed) candidate = some final ∧
        final.phase = .standing ∧ final.state = candidate.state ∧
        final.votesReceived = candidate.votesReceived ∧ final.notices = candidate.notices ∧
        final.asked = candidate.asked ++ (rest.filter (· ≠ info.localId)).map
          (·, Server.createRequestVoteMessage info { state := candidate.state }) := by
  induction rest generalizing candidate with
  | nil =>
      have taken : candidate.step info .proceed = some { candidate with phase := .standing } := by
        simp only [step, stepProceed, phase]
      refine ⟨{ candidate with phase := .standing }, ?_, rfl, rfl, rfl, rfl, by simp [asked, asks]⟩
      exact Execution.run_cons taken
  | cons target rest ih =>
      by_cases own : target = info.localId
      · have taken : candidate.step info .proceed =
            some { candidate with phase := .asking rest } := by
          simp only [step, stepProceed, phase, if_pos own]
        obtain ⟨final, run, stands, state, votes, notices, asked⟩ :=
          ih (managed.moves (step_moves taken)) rfl
        refine ⟨final, (Execution.run_cons taken).trans run, stands, state, votes, notices,
          asked.trans ?_⟩
        rw [List.filter_cons_of_neg (by simp [own])]
        rfl
      · have taken : candidate.step info .proceed =
            some { candidate.ask info target with phase := .asking rest } := by
          simp only [step, stepProceed, phase, if_neg own]
        obtain ⟨final, run, stands, state, votes, notices, asked⟩ :=
          ih (managed.moves (step_moves taken)) rfl
        refine ⟨final, (Execution.run_cons taken).trans run, stands, state, votes, notices, ?_⟩
        rw [asked, asked_ask managed, List.append_assoc]
        simp [own, ask, setThread]

/-- The candidate before `requestVotes`. -/
def campaigned (info : ServerInfo) (candidate : CandidateThreads) : CandidateThreads :=
  let term := incrementTerm candidate.state.currentTerm
  let stood := .stand (candidate.candidacy + 1) term :: candidate.history
  { candidate with
    state := { candidate.state with currentTerm := term, votedFor := info.localId }
    votesReceived := 1
    phase := .asking info.srvList
    candidacy := candidate.candidacy + 1
    history :=
      if info.exceedsHalf 1 then .notify (candidate.candidacy + 1) term :: stood else stood }

theorem run_campaigned (info : ServerInfo) (away : candidate.phase = .away) :
    ∃ count, Execution.run (step info) (.init :: List.replicate count .proceed) candidate =
      some (candidate.campaigned info) := by
  by_cases many : info.exceedsHalf 1
  · refine ⟨4, ?_⟩
    simp [Execution.run, step, stepProceed, campaigned, away, many]
  · refine ⟨3, ?_⟩
    simp [Execution.run, step, stepProceed, campaigned, away, many]

/-- `init`, left alone, does what `candidateInit` does. -/
theorem run_init (managed : candidate.Managed info) (matched : candidate.Matches srv)
    (away : candidate.phase = .away) :
    ∃ count final,
      Execution.run (step info) (.init :: List.replicate count .proceed) candidate = some final ∧
        final.phase = .standing ∧ final.Matches (srv.candidateInit info).1 ∧
        final.notices =
          if info.exceedsHalf 1 then incrementTerm srv.state.currentTerm :: candidate.notices
          else candidate.notices := by
  obtain ⟨first, campaigns⟩ := run_campaigned info away
  have kept : (candidate.campaigned info).Managed info :=
    Execution.invariant_of_run
      (fun before action after managed taken => Managed.moves managed (step_moves taken)) managed
      campaigns
  obtain ⟨final, run, stands, state, votes, notices, asked⟩ := run_asking info.srvList kept rfl
  have nothing : candidate.requests = [] := managed.requests_nil (by rw [away]; rfl)
  have idle : srv.candidate.requests = [] := by
    rw [← matched.requests, CandidateThreads.asked, nothing]
    rfl
  have same : (candidate.campaigned info).state = (srv.campaign info).state := by
    simp only [campaigned, Server.campaign, matched.state]
    split_ifs <;> simp
  refine ⟨first + (info.srvList.length + 1), final, ?_, stands, ⟨?_, ?_, ?_⟩, ?_⟩
  · rw [List.replicate_add, ← List.cons_append, Execution.run_append, campaigns]
    exact run
  · exact state.trans same
  · rw [votes]
    simp only [campaigned, Server.candidateInit, Server.campaign]
    split_ifs <;> simp
  · have kept : (srv.campaign info).candidate.requests = [] := by
      simp only [Server.campaign]
      split_ifs <;> simp [idle]
    have none : (candidate.campaigned info).asked = [] := by
      simp [CandidateThreads.asked, campaigned, nothing]
    rw [asked, none, same]
    change [] ++ _ = (srv.campaign info).candidate.requests ++ _
    rw [kept]
    rfl
  · rw [notices]
    simp only [campaigned, CandidateThreads.notices, matched.state]
    split_ifs <;> simp

/-! ## One answer -/

/-- A thread that returns is no longer at work. -/
theorem asked_finish (distinct : info.srvList.Nodup) (managed : candidate.Managed info)
    {thread : Nat} (active : candidate.threads thread ≠ .ended) :
    (candidate.setThread thread .ended).asked =
      candidate.asked.erase (candidate.asks thread) := by
  have targets := managed.targets_nodup distinct
  have apart : ∀ other ∈ candidate.requests, candidate.asks other = candidate.asks thread →
      other = thread := fun other member same =>
    List.inj_on_of_nodup_map targets member (managed.handled thread active)
      (congrArg Prod.fst same)
  have different : candidate.asked.Nodup := by
    refine List.Nodup.of_map Prod.fst ?_
    rw [asked, List.map_map]
    exact targets.sublist (List.filter_sublist.map _)
  rw [different.erase_eq_filter, asked, asked, List.filter_map, List.filter_filter]
  refine congrArg (List.map candidate.asks) (List.filter_congr fun other member => ?_)
  by_cases same : other = thread
  · simp [setThread, same]
  · have unlike : candidate.asks other ≠ candidate.asks thread := fun equal =>
      same (apart other member equal)
    simp [setThread, Function.update_of_ne same, unlike]

/-- A thread has returned, and something has been counted and recorded. -/
def returned (candidate : CandidateThreads) (thread votes : Nat) (news : List CandidateEvent) :
    CandidateThreads :=
  { candidate.setThread thread .ended with
    votesReceived := votes
    history := news ++ candidate.history }

/-- A returned thread agrees with `receiveVote` when its answer has been counted as it should. -/
theorem Matches.returned (distinct : info.srvList.Nodup) (managed : candidate.Managed info)
    (matched : candidate.Matches srv) {thread votes : Nat}
    (active : candidate.threads thread ≠ .ended) (reply : Reply) (news : List CandidateEvent)
    (counted : votes =
      if reply = ((candidate.request thread).msg.term, true) then candidate.votesReceived + 1
      else candidate.votesReceived) :
    (candidate.returned thread votes news).Matches
      (srv.receiveVote info (candidate.asks thread).1 (candidate.asks thread).2 reply) where
  state := by
    refine matched.state.trans ?_
    simp only [Server.receiveVote]
    split_ifs <;> simp
  votes := by
    rw [Server.receiveVote_candidate, ← matched.votes]
    exact counted
  requests := by
    rw [Server.receiveVote_candidate, ← matched.requests]
    exact asked_finish distinct managed active

/-- A request thread and its answer, left alone, do what `receiveVote` does. -/
theorem run_receiveVote (distinct : info.srvList.Nodup) (managed : candidate.Managed info)
    (matched : candidate.Matches srv) {thread : Nat} (calls : candidate.threads thread = .calling)
    (reply : Reply) :
    ∃ count final,
      Execution.run (step info) (.answer thread reply :: List.replicate count (.request thread))
          candidate = some final ∧
        final.Matches
          (srv.receiveVote info (candidate.asks thread).1 (candidate.asks thread).2 reply) ∧
        final.notices =
          if reply = ((candidate.request thread).msg.term, true) ∧
              info.exceedsHalf (candidate.votesReceived + 1) then
            (candidate.request thread).msg.term :: candidate.notices
          else candidate.notices := by
  have active : candidate.threads thread ≠ .ended := by simp [calls]
  let request := candidate.request thread
  by_cases granted : reply = (request.msg.term, true)
  · let counts : List CandidateEvent := [.count candidate.candidacy request, .answer request reply]
    by_cases many : info.exceedsHalf (candidate.votesReceived + 1)
    · refine ⟨4, candidate.returned thread (candidate.votesReceived + 1)
        (.notify request.candidacy request.msg.term :: counts), ?_,
        matched.returned distinct managed active reply _ (if_pos granted).symm, ?_⟩
      · simp [Execution.run, step, stepRequest, setThread, returned, calls, many, granted, counts,
          request]
      · simp [notices, returned, counts, many, granted, request]
    · refine ⟨3, candidate.returned thread (candidate.votesReceived + 1) counts, ?_,
        matched.returned distinct managed active reply _ (if_pos granted).symm, ?_⟩
      · simp [Execution.run, step, stepRequest, setThread, returned, calls, many, granted, counts,
          request]
      · simp [notices, returned, counts, many]
  · refine ⟨1, candidate.returned thread candidate.votesReceived [.answer request reply], ?_,
      matched.returned distinct managed active reply _ (if_neg granted).symm, ?_⟩
    · have refused : reply.1 ≠ request.msg.term ∨ reply.2 = false := by
        rw [← Bool.not_eq_true, ← not_and_or]
        exact fun both => granted (Prod.ext both.1 both.2)
      simp [Execution.run, step, stepRequest, setThread, returned, calls, refused, request]
    · simp [notices, returned, granted, request]

end Quintet.CandidateThreads
