import QuintetRaft.Model.Notices
import QuintetRaft.Safety.Sections
import QuintetRaft.Safety.Stranding

/-!
# Replicated entries between the sections

Every entry that a majority has is committed after every section of a handler, callback or
transformation too, if each of them begins in time and nothing disturbs it.  Step 5 of an append
request that is disturbed by a counting loop can take back what the loop has committed.
-/

namespace Quintet

open Sections (Act Process)

/-- A server that is a majority by itself has committed its log. -/
def ServerInfo.CommitsAlone (info : ServerInfo) (state : ServerState) : Prop :=
  info.exceedsHalf 1 → state.entries.length ≤ state.commitIdx + 1

/-- The log that an append request leaves is long enough for the commit index, and a server that is
a majority by itself gets no entry that it has not committed. -/
def ServerInfo.Bears (info : ServerInfo) (state : ServerState) (msg : AppendEntriesMessage) :
    Prop :=
  (state.commitIdx < msg.commitIdx → state.commitIdx < (state.replicate msg).entries.length) ∧
    (info.exceedsHalf 1 → (state.replicate msg).entries.length ≤ state.commitIdx + 1)

namespace Section

variable {info : ServerInfo} {srv after : Server} {section' : Section} {outputs : List Output}
  {next : Option Section} {event : Event}

/-- What a section in the middle of the work of a thread relies on. -/
def Tallied (info : ServerInfo) (srv : Server) : Section → Prop
  | followerTerm _ | candidateTerm _ | candidateNotify _ _ => srv.identity ≠ .leader
  | dispatchAppendEntries msg | checkAppendTerm msg _ | readTerm msg | matchLog msg _ =>
      srv.identity = .leader → srv.Tally info ∧
        (termAt srv.state.entries msg.prevLogIdx = some msg.prevLogTerm → info.Bears srv.state msg)
  | replicate msg _ => srv.identity = .leader → srv.Tally info ∧ info.Bears srv.state msg
  | readCommit msg _ => srv.identity = .leader → srv.Tally info ∧
      (srv.state.commitIdx < msg.commitIdx → srv.state.commitIdx < srv.state.entries.length)
  | writeCommit msg _ => srv.identity = .leader → srv.Tally info ∧
      srv.state.commitIdx < msg.commitIdx ∧ srv.state.commitIdx < srv.state.entries.length
  | assignIdentity target => (∀ other, srv.leader.followerNodes other = none) ∧
      (srv.identity = .leader ∨ target = .leader → info.CommitsAlone srv.state)
  | reinitStates => (∀ other, srv.leader.followerNodes other = none) ∧ info.CommitsAlone srv.state
  | compareCommit _ | raiseCommit _ => ∃ target ∈ info.others, ∃ node,
      srv.leader.followerNodes target = some node ∧ node.appendingThread.isCounting = true
  | _ => srv.identity = .leader → srv.Tally info

/-- A section that leaves the books alone leaves the tally alone. -/
theorem tally_of_sameBooks (same : srv.SameBooks after)
    (tallied : srv.identity = .leader → srv.Tally info) :
    after.identity = .leader → after.Tally info := by
  intro leads
  have tally := tallied (same.identity.symm.trans leads)
  refine tally.still (congrArg _ same.leader) (congrArg _ same.leader) same.commitIdx.ge ?_
  rw [same.entries, same.commitIdx]
  exact tally.alone

/-- Without follower nodes, only a server that is a majority by itself has an entry on a
majority. -/
theorem noneStranded_of_noNodes (nodes : ∀ other, srv.leader.followerNodes other = none)
    (alone : srv.identity = .leader → info.CommitsAlone srv.state) : srv.NoneStranded info := by
  intro leads _ _ idx inside many
  have nobody : srv.replicas info idx = 1 := by simp [Server.replicas, nodes]
  rw [nobody] at many
  have all := alone leads many
  omega

theorem noneStranded_of_tally (tallied : srv.identity = .leader → srv.Tally info) :
    srv.NoneStranded info := fun leads => (tallied leads).noneStranded leads

/-- In the middle of its work a thread leaves nothing stranded. -/
theorem Tallied.noneStranded (tallied : section'.Tallied info srv) : srv.NoneStranded info := by
  cases section' with
  | dispatchAppendEntries | checkAppendTerm | readTerm | matchLog | replicate | readCommit
  | writeCommit => exact noneStranded_of_tally fun leads => (tallied leads).1
  | followerTerm | candidateTerm | candidateNotify => exact fun leads => absurd leads tallied
  | assignIdentity target =>
      exact noneStranded_of_noNodes tallied.1 fun leads => tallied.2 (.inl leads)
  | reinitStates => exact noneStranded_of_noNodes tallied.1 fun _ => tallied.2
  | compareCommit | raiseCommit =>
      -- the thread that commits is counting
      obtain ⟨target, member, node, known, counting⟩ := tallied
      intro _ _ idle
      rw [idle target member node known] at counting
      cases counting
  | _ => exact noneStranded_of_tally tallied

/-- A section that leaves the books alone leaves alone what an append request relies on. -/
theorem bears_of_sameBooks {msg : AppendEntriesMessage} (same : srv.SameBooks after)
    (bears : info.Bears srv.state msg) : info.Bears after.state msg := by
  unfold ServerInfo.Bears at bears ⊢
  simpa only [ServerState.replicate_entries, same.entries, same.commitIdx] using bears

theorem accepts_of_sameBooks {msg : AppendEntriesMessage} (same : srv.SameBooks after)
    (tallied : srv.identity = .leader → srv.Tally info ∧
      (termAt srv.state.entries msg.prevLogIdx = some msg.prevLogTerm →
        info.Bears srv.state msg)) :
    after.identity = .leader → after.Tally info ∧
      (termAt after.state.entries msg.prevLogIdx = some msg.prevLogTerm →
        info.Bears after.state msg) := by
  intro leads
  obtain ⟨tally, bears⟩ := tallied (same.identity.symm.trans leads)
  refine ⟨tally_of_sameBooks same (fun _ => tally) leads, fun matched => ?_⟩
  rw [same.entries] at matched
  exact bears_of_sameBooks same (bears matched)

/-- Most sections rely on the tally alone. -/
theorem tallied_of_calm (calm : section'.Delicate = false) :
    Tallied info srv section' ↔ (srv.identity = .leader → srv.Tally info) := by
  cases section' with
  | dispatchAppendEntries | followerTerm | candidateTerm | candidateNotify | checkAppendTerm
  | readTerm | matchLog | replicate | readCommit | writeCommit | assignIdentity | reinitStates
  | compareCommit | raiseCommit => cases calm
  | _ => exact Iff.rfl

/-- A section hands on what the next one relies on. -/
theorem HandsOn.tallied {later : Section} (hands : HandsOn srv after section' later)
    (tallied : section'.Tallied info srv) : later.Tallied info after := by
  cases hands with
  | plain same first second =>
      exact (tallied_of_calm second).mpr
        (tally_of_sameBooks same ((tallied_of_calm first).mp tallied))
  | applied =>
      exact fun leads =>
        (tallied leads).still rfl rfl (Nat.le_refl _) (tallied leads).alone
  | follows role | stands role => simp [Tallied, role]
  | leads | stepsDown | recent | exceeds => exact tallied
  | passes | stays => exact fun leads => absurd leads tallied
  | notified same => exact fun leads => absurd (same.identity.symm.trans leads) tallied
  | checked same => exact accepts_of_sameBooks same tallied
  | stale | differs | upToDate => exact fun leads => (tallied leads).1
  | matched matched => exact fun leads => ⟨(tallied leads).1, (tallied leads).2 matched⟩
  | replicated =>
      intro leads
      obtain ⟨tally, long, alone⟩ := tallied leads
      refine ⟨tally.still rfl rfl (by simp) ?_, by simpa using long⟩
      simpa using alone
  | behind behind => exact fun leads => ⟨(tallied leads).1, behind, (tallied leads).2 behind⟩
  | @committed msg =>
      intro leads
      obtain ⟨tally, behind, long⟩ := tallied leads
      have raised : srv.state.commitIdx ≤ min msg.commitIdx (srv.state.entries.length - 1) := by
        omega
      exact tally.still rfl rfl raised fun majority =>
        (tally.alone majority).trans (Nat.succ_le_succ raised)
  | candidacy => rintro ⟨⟩
  | office => exact ⟨tallied.1, tallied.2 (.inr rfl)⟩

/-- An append request that is not cut short leaves a log that bears the commit index. -/
theorem bears_of_careful {msg : AppendEntriesMessage}
    (careful : srv.CountsInTime info (.rpcAppendEntries msg)) (leads : srv.identity = .leader)
    (matched : termAt srv.state.entries msg.prevLogIdx = some msg.prevLogTerm) :
    info.Bears srv.state msg := by
  obtain ⟨-, notLowered, notAlone⟩ := careful
  have accepts : srv.Accepts msg := ⟨.inr (.inr leads), by simp [leads], matched⟩
  have entries : srv.entriesAfter (.rpcAppendEntries msg) = (srv.state.replicate msg).entries :=
    if_pos accepts
  refine ⟨fun behind => ?_, fun majority => ?_⟩
  · by_contra short
    exact notLowered ⟨leads, msg, rfl, accepts, behind, by rw [entries]; omega⟩
  · by_contra long
    exact notAlone ⟨majority, .inr ⟨by simp, leads⟩, by rw [entries]; omega⟩

/-- What begins in time hands on what its thread relies on. -/
theorem Begins.tallied (begins : Begins info srv event after next) (tidy : srv.Tidy)
    (tallied : srv.identity = .leader → srv.Tally info) (careful : srv.CountsInTime info event) :
    ∀ later ∈ next, later.Tallied info after := by
  cases begins with
  | plain same calm =>
      rintro _ ⟨⟩
      exact (tallied_of_calm calm).mpr (tally_of_sameBooks same tallied)
  | ends | whole => rintro _ ⟨⟩
  | append =>
      rintro _ ⟨⟩
      exact fun leads => ⟨tallied leads, bears_of_careful careful leads⟩
  | @transform target term rest queue =>
      rintro _ ⟨⟩
      have tidyRest : Server.Tidy { srv with events := rest } := ⟨tidy.requests, tidy.nodes⟩
      refine ⟨tidyRest.leave_nodes, fun leads majority => ?_⟩
      rw [Server.leave_state]
      rcases leads with leads | target
      · rw [Server.leave_identity] at leads
        exact (tallied leads).alone majority
      · by_contra long
        exact careful.2.2 ⟨majority, .inl ⟨rfl, by simp [Server.nextTarget, queue, target]⟩,
          Nat.lt_of_not_le long⟩
  | @counted target node _ _ _ known _ _ _ _ later =>
      rintro _ ⟨⟩
      have tally := tallied (tidy.role_of_known known)
      exact ⟨target, tally.others target node known, _, later, rfl⟩
  | finished known thread counter =>
      rintro _ ⟨⟩
      have tally := tallied (tidy.role_of_known known)
      exact fun _ => tally.moves known (.finish thread counter) rfl (Nat.le_refl _) tally.alone
        careful.1

end Section

namespace ServerProcess

variable {info : ServerInfo} {before after : ServerProcess} {act : Act Event}

/-- Nothing begins while a thread is in the middle of its work, and what begins counts in time. -/
def CountsInTime (info : ServerInfo) (before : ServerProcess) (act : Act Event)
    (_ : ServerProcess) : Prop :=
  before.Undisturbed act ∧ before.Starts (fun srv _ event => srv.CountsInTime info event) act

instance (info : ServerInfo) (before : ServerProcess) (act : Act Event) (after : ServerProcess) :
    Decidable (CountsInTime info before act after) :=
  inferInstanceAs (Decidable (_ ∧ _))

/-- The server will have counted what it should, and at most one thread is in the middle of its
work and finds what it relies on. -/
structure Accounted (info : ServerInfo) (process : ServerProcess) : Prop where
  /-- The server after that. -/
  shown : ∃ srv sent, Sections.Shows (Server.sections info) process srv sent ∧ srv.Tidy ∧
    (srv.identity = .leader → srv.Tally info)
  /-- The thread in the middle of its work. -/
  tallied : process.running = [] ∨ ∃ thread, process.running = [thread] ∧
    thread.next.Tallied info process.state

theorem Accounted.noneStranded (accounted : Accounted info before) :
    before.state.NoneStranded info := by
  rcases accounted.tallied with idle | ⟨thread, -, tallied⟩
  · obtain ⟨srv, sent, shows, -, tally⟩ := accounted.shown
    obtain ⟨rfl, -⟩ := shows.eq_of_idle idle
    exact Section.noneStranded_of_tally tally
  · exact tallied.noneStranded

/-- One section that begins in time. -/
theorem Accounted.step (accounted : Accounted info before)
    (taken : before.step (Server.sections info) act = some after)
    (careful : CountsInTime info before act after) : Accounted info after := by
  have ofNext : ∀ (next : Option Section) (thread : Section → ServerThread),
      (∀ section', (thread section').next = section') →
      after.running = (next.map thread).toList →
      (∀ section' ∈ next, section'.Tallied info after.state) →
      after.running = [] ∨ ∃ thread, after.running = [thread] ∧
        thread.next.Tallied info after.state := by
    intro next thread same running tallied
    cases next with
    | none => exact .inl running
    | some section' =>
        refine .inr ⟨thread section', running, ?_⟩
        rw [same]
        exact tallied section' rfl
  have preserved : ∀ (srv : Server) (sent : List Output) event (final : Server) outputs,
      (srv.Tidy ∧ (srv.identity = .leader → srv.Tally info)) → srv.CountsInTime info event →
      srv.step info event = some (final, outputs) →
        final.Tidy ∧ (final.identity = .leader → final.Tally info) := by
    rintro srv - event final outputs ⟨tidy, tally⟩ inTime taken
    refine ⟨tidy.step taken, fun leads => ?_⟩
    by_cases moves : event = .transform
    · subst moves
      exact Server.Tally.transform tidy taken leads inTime.2.2
    · have role : srv.identity = .leader := (Server.step_identity taken moves).symm.trans leads
      exact (tally role).step taken moves role inTime
  refine ⟨?_, ?_⟩
  · exact Sections.Shows.step (Server.sections_refines info) preserved taken careful.1 careful.2
      accounted.shown
  · cases act with
    | start event =>
        obtain ⟨srv, sent, shows, tidy, tally⟩ := accounted.shown
        obtain ⟨rfl, -⟩ := shows.eq_of_idle careful.1
        obtain ⟨first, next, starts, -, running⟩ := Server.process_start taken careful.1
        exact ofNext next _ (fun _ => rfl) running
          ((Section.start_begins starts).tallied tidy tally careful.2)
    | go position =>
        rcases accounted.tallied with idle | ⟨thread, alone, tallied⟩
        · obtain ⟨thread, present, -⟩ := Process.step_go.mp taken
          simp [idle] at present
        · obtain ⟨outputs, next, went, -, running⟩ := Server.process_go taken alone
          exact ofNext next _ (fun _ => rfl) running fun later member =>
            (Section.go_handsOn went later member).tallied tallied

/-- If no thread of a server disturbs another one, no counting loop ends early, no commit index of a
leader is lowered, and no leader is a majority by itself, every entry that a majority has is
committed, after every section. -/
theorem noneStranded_of_countsInTime {srv : Server} (tidy : srv.Tidy)
    (outside : srv.identity ≠ .leader) {acts : List (Act Event)}
    (careful : Execution.Along (Process.step (Server.sections info)) (CountsInTime info) acts
      { state := srv }) :
    Execution.Along (Process.step (Server.sections info))
      (fun _ _ after => after.state.NoneStranded info) acts { state := srv } := by
  have accounted : Accounted info { state := srv } :=
    ⟨⟨srv, [], Sections.shows_refl _ rfl, tidy, fun leads => absurd leads outside⟩, .inl rfl⟩
  refine Execution.along_of_invariant (fun before act after accounted taken inTime => ?_) accounted
    careful
  have later := accounted.step taken inTime
  exact ⟨later, later.noneStranded⟩

/-- A command of a client. -/
def someCommand : AddLogMessage := { opName := "op", srvId := localServer 1 }

/-- Another one. -/
def otherCommand : AddLogMessage := { someCommand with prmIdx := 1 }

/-- The vote request of server 1 in term 1, with an empty log. -/
def firstRequest : RequestVoteMessage := { term := 1, candidateId := localServer 1 }

/-- Server 1 is elected by server 2. -/
def electedFirst : List (Act Event) :=
  serially [.timeout, .transform, .receiveVote (localServer 2) firstRequest (1, true), .transform]
    [1, 10, 2, 2]

/-- Its request for these commands. -/
def commandsRequest (commands : List AddLogMessage) : AppendEntriesMessage :=
  { term := 1, leaderId := localServer 1, logEntries := commands.map (Server.logEntry · 1) }

/-- It stores a command, sends it to server 2 and counts the replica. -/
def committedFirst : List (Act Event) :=
  electedFirst ++ serially
    [.rpcAddLog someCommand, .addLogState, .startAppending (localServer 2),
      .sendAppendEntries (localServer 2),
      .receiveAppendReply (localServer 2) (commandsRequest [someCommand]) (1, true),
      .countReplica (localServer 2), .countReplica (localServer 2)]
    [3, 0, 0, 2, 0, 2, 4]

/-- The command is sent and acknowledged before it has a counter. -/
def countedEarly : List (Act Event) :=
  electedFirst ++ serially
    [.rpcAddLog someCommand, .startAppending (localServer 2), .sendAppendEntries (localServer 2),
      .receiveAppendReply (localServer 2) (commandsRequest [someCommand]) (1, true),
      .countReplica (localServer 2), .addLogState]
    [3, 0, 2, 0, 1, 0]

/-- A server that is a cluster by itself is elected and stores a command. -/
def storedAlone : List (Act Event) :=
  serially [.timeout, .transform, .transform, .rpcAddLog someCommand, .addLogState]
    [1, 7, 2, 3, 0]

/-- Both commands are acknowledged by server 2.  Server 3, which has them too and leads in term 2,
has committed the first one.  Step 5 of its request has found the greater commit index when the
counting loop commits both, and then writes it. -/
def committedBetween : List (Act Event) :=
  electedFirst ++ serially
    [.rpcAddLog someCommand, .addLogState, .rpcAddLog otherCommand, .addLogState,
      .startAppending (localServer 2), .sendAppendEntries (localServer 2),
      .receiveAppendReply (localServer 2) (commandsRequest [someCommand, otherCommand]) (1, true)]
    [3, 0, 3, 0, 0, 2, 0] ++
  [.start (.rpcAppendEntries { commandsRequest [someCommand, otherCommand] with
      term := 2, leaderId := localServer 3, commitIdx := 1 }),
    .go 0, .go 0, .go 0, .go 0, .go 0, .go 0,
    .start (.countReplica (localServer 2)), .go 1, .go 1,
    .start (.countReplica (localServer 2)), .go 1, .go 1,
    .start (.countReplica (localServer 2)), .go 1, .go 1, .go 1, .go 1, .go 0, .go 0]

theorem noneStranded_of_countsInTime_first_command :
    Execution.Along (Process.step (Server.sections (trio.info (localServer 1))))
      (fun _ _ after => after.state.NoneStranded (trio.info (localServer 1))) committedFirst
      { state := {} } :=
  noneStranded_of_countsInTime Server.tidy_init (by decide) (by decide +kernel)

/-- A command that is acknowledged by server 2 before it has a counter is never counted, and in a
cluster of one server nothing is ever counted.  When step 5 is overtaken by the counting loop, the
second command is not committed any more, though everything that begins counts in time. -/
theorem noneStranded_counterexample :
    (∃ final ∈ Execution.run (Process.step (Server.sections (trio.info (localServer 1))))
        countedEarly { state := {} },
      final.state.replicas (trio.info (localServer 1)) 1 = 2 ∧ final.state.state.commitIdx = 0 ∧
        ¬ final.state.NoneStranded (trio.info (localServer 1))) ∧
    (∃ final ∈ Execution.run (Process.step (Server.sections alone)) storedAlone { state := {} },
      final.state.replicas alone 1 = 1 ∧ final.state.state.entries.length = 2 ∧
        final.state.state.commitIdx = 0 ∧ ¬ final.state.NoneStranded alone) ∧
    Execution.Along (Process.step (Server.sections (trio.info (localServer 1))))
        (fun before act _ => before.Starts
          (fun srv _ event => srv.CountsInTime (trio.info (localServer 1)) event) act)
        committedBetween { state := {} } ∧
      ∃ final ∈ Execution.run (Process.step (Server.sections (trio.info (localServer 1))))
          committedBetween { state := {} },
        final.state.replicas (trio.info (localServer 1)) 2 = 2 ∧
          final.state.state.commitIdx = 1 ∧
          ¬ final.state.NoneStranded (trio.info (localServer 1)) := by
  refine ⟨?_, ?_, ?_, ?_⟩
  all_goals decide +kernel

end ServerProcess

end Quintet
