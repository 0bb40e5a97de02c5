import QuintetRaft.Library.PropertyTree
import QuintetRaft.Model.TypedCalls
import QuintetRaft.Safety.ClientThreads

/-!
# Typed calls are linearizable

The arguments of a call come out of the archive as they were put in, as far as the function takes
them, so that the clients see an application whose functions are applied to the arguments
themselves.
-/

namespace Quintet

namespace TextArchives

variable {Ty : Type} {archives : TextArchives Ty}

/-- Values are read as they have been put in, in the same order. -/
structure Restores (archives : TextArchives Ty)
    (ahead : List archives.Arg → archives.IArchive → Prop) : Prop where
  /-- An input archive begins where the output archive did. -/
  opened : ∀ args, ∃ ia,
    archives.textIArchive (archives.str (archives.serializeImpl args archives.textOArchive)) =
      some ia ∧ ahead args ia
  /-- It goes on to the next value. -/
  got : ∀ type x args ia, ahead (⟨type, x⟩ :: args) ia →
    ∃ ia', archives.get type ia = some (x, ia') ∧ ahead args ia'

/-- The archives can be relied on. -/
def Lawful (archives : TextArchives Ty) : Prop := ∃ ahead, Restores archives ahead

variable [DecidableEq Ty] {types : List Ty} {args : List archives.Arg}
  {tup : archives.Tuple types}

theorem Restores.readElements {ahead : List archives.Arg → archives.IArchive → Prop}
    (restores : Restores archives ahead) {ia : archives.IArchive} (stands : ahead args ia)
    (first : archives.firstArgs types args = some tup) :
    archives.readElements types ia = some tup := by
  induction types generalizing args ia with
  | nil =>
      rw [TextArchives.firstArgs] at first
      rw [TextArchives.readElements, first]
  | cons type types ih =>
      cases args with
      | nil => cases first
      | cons arg args =>
          obtain ⟨type', x⟩ := arg
          unfold firstArgs at first
          split_ifs at first with same
          subst same
          obtain ⟨rest, more, rfl⟩ := Option.map_eq_some_iff.mp first
          obtain ⟨ia', next, behind⟩ := restores.got type' x args ia stands
          simp only [TextArchives.readElements, next, ih behind more, Option.bind_eq_bind,
            Option.bind_some]

/-- What is deserialized is what was serialized; further arguments are not read. -/
theorem Lawful.deserialize (lawful : archives.Lawful)
    (first : archives.firstArgs types args = some tup) :
    archives.deserialize types (archives.serialize args) = some tup := by
  obtain ⟨ahead, restores⟩ := lawful
  obtain ⟨ia, opened, stands⟩ := restores.opened args
  rw [TextArchives.deserialize, serialize, opened, Option.bind_eq_bind, Option.bind_some,
    restores.readElements stands first]

end TextArchives

namespace Bindings

variable {Ty App Any : Type} {archives : TextArchives Ty} {fs binds : Bindings archives App Any}
  {binding : ByteString × BoundFunction archives App Any} {opName : ByteString}

theorem lookup_bind :
    (fs.bind binding).lookup opName = (fs.lookup opName).or ([binding].lookup opName) := by
  unfold bind
  split_ifs with bound
  · -- a lookup that finds the new binding would have found the old one
    obtain ⟨name, f⟩ := binding
    obtain ⟨g, found⟩ := Option.isSome_iff_exists.mp bound
    by_cases same : opName = name
    · rw [same, found, Option.some_or]
    · have other : (opName == name) = false := beq_eq_false_iff_ne.mpr same
      simp only [List.lookup_cons, List.lookup_nil, other, Option.or_none]
  · exact List.lookup_append

/-- A name means what it was bound to first. -/
theorem lookup_binds :
    (binds.foldl bind fs).lookup opName = (fs.lookup opName).or (binds.lookup opName) := by
  induction binds generalizing fs with
  | nil => exact (Option.or_none).symm
  | cons binding binds ih =>
      rw [List.foldl_cons, ih, lookup_bind, Option.or_assoc, ← List.lookup_append,
        List.singleton_append]

theorem operations_eq : binds.operations opName =
    (binds.lookup opName).map BoundFunction.impl := by
  rw [operations, lookup_binds, List.lookup_nil, Option.none_or]

variable [DecidableEq Ty]

/-- A function under the name, if there is one, takes the first of the arguments. -/
def Takes (binds : Bindings archives App Any) (opName : ByteString) (args : List archives.Arg) :
    Prop :=
  ∀ f ∈ binds.lookup opName, (archives.firstArgs f.types args).isSome = true

instance (binds : Bindings archives App Any) (opName : ByteString) (args : List archives.Arg) :
    Decidable (binds.Takes opName args) :=
  inferInstanceAs (Decidable (∀ f ∈ _, _))

end Bindings

namespace TypedSystem

open Linearizability (Linearizes Codes mem_invocations)

variable {Ty App Any : Type} [DecidableEq Ty] {archives : TextArchives Ty}
  {config : ClusterConfig} {binds : Bindings archives App Any} {start : App}
  {before after final : TypedSystem archives App Any} {action : TypedAction archives}
  {actions : List (TypedAction archives)} {replicas : Replicas App (Option Any)}

/-- The application does with the serialized arguments what the function does with the arguments
themselves. -/
theorem perform_toBasic (lawful : archives.Lawful) (start : App) {call : TypedCall archives}
    (takes : binds.Takes call.opName call.args) (app : App) :
    (Replicas.object binds.operations start).perform call.toBasic app =
      (((object binds start).perform call app).1,
        ((object binds start).perform call app).2.map some) := by
  simp only [Replicas.object, object, TypedCall.toBasic, Bindings.operations_eq]
  cases found : binds.lookup call.opName with
  | none => rfl
  | some f =>
      obtain ⟨tup, first⟩ := Option.isSome_iff_exists.mp (takes f found)
      simp only [Option.map_some, BoundFunction.impl, lawful.deserialize first, first]

/-- What the clients see of typed calls is what they see of the serialized ones. -/
structure Record (config : ClusterConfig) (binds : Bindings archives App Any) (start : App)
    (typed : TypedSystem archives App Any) : Prop where
  /-- The threads lag behind replicas that have performed what they were handed. -/
  behind : ∃ replicas, Lags config typed.system replicas ∧
    Replicas.Record config binds.operations start replicas
  /-- Calls and values are those of the system. -/
  seen : typed.seen.map (.map TypedCall.toBasic some) = typed.system.seen
  /-- The functions take the arguments of the calls. -/
  takes : ∀ call, .invoke call ∈ typed.seen → binds.Takes call.opName call.args

theorem Record.codes (record : Record config binds start after) (lawful : archives.Lawful) :
    Codes (object binds start) (Replicas.object binds.operations start) TypedCall.toBasic some
      after.seen where
  key _ := rfl
  start := rfl
  perform call invoked := perform_toBasic lawful start (record.takes call invoked)
  injective := Option.some_injective Any

/-- What was invoked was invoked by a typed call. -/
theorem Record.exists_call (record : Record config binds start before) {entry : BasicLogEntry}
    (invoked : .invoke entry ∈ before.system.seen) :
    ∃ call, .invoke call ∈ before.seen ∧ call.toBasic = entry := by
  rw [← record.seen] at invoked
  obtain ⟨event, member, coded⟩ := List.mem_map.mp invoked
  cases event with
  | respond key value => cases coded
  | invoke call => exact ⟨call, member, Linearizability.Event.invoke.inj coded⟩

/-- The functions give values. -/
theorem Record.valued (lawful : archives.Lawful) (record : Record config binds start before)
    (lags : Lags config before.system replicas)
    (performs : Replicas.Record config binds.operations start replicas) {key : ServerId × PrmIdx}
    {value : Option Any} (given : .respond key value ∈ replicas.seen) :
    ∃ res, value = some res := by
  obtain ⟨earlier, rest, split⟩ := List.append_of_mem given
  obtain ⟨id, place, entry, found, -, answer, past⟩ :=
    performs.answered earlier rest key value split
  have invoked : .invoke entry ∈ replicas.seen := by
    rw [split]
    refine List.mem_append_left _ (past entry (List.mem_of_getElem? (i := place) ?_))
    rw [List.getElem?_take_of_lt (Nat.lt_succ_self place), found]
  rw [← mem_invocations, ← lags.seen.invocations, mem_invocations] at invoked
  obtain ⟨call, member, rfl⟩ := record.exists_call invoked
  rw [Linearizability.Object.answer, found, Option.bind_some,
    perform_toBasic lawful start (record.takes call member)] at answer
  obtain ⟨res, -, rfl⟩ := Option.map_eq_some_iff.mp answer
  exact ⟨res, rfl⟩

/-- The function that a call names takes its arguments. -/
def Calls (binds : Bindings archives App Any) : TypedAction archives → Prop
  | .asyncCall _ opName args => binds.Takes opName args
  | .other _ => True

instance (binds : Bindings archives App Any) :
    (action : TypedAction archives) → Decidable (Calls binds action)
  | .asyncCall _ opName args => inferInstanceAs (Decidable (binds.Takes opName args))
  | .other _ => .isTrue trivial

/-- What happens when the arguments are serialized. -/
def serialized : TypedAction archives → ThreadedAction
  | .asyncCall id opName args => .interface id (.asyncCall opName (archives.serialize args))
  | .other action => action

/-- The servers take steady sections, no operations of `prms` race, and the clients make calls that
fit. -/
def Steady (config : ClusterConfig) (binds : Bindings archives App Any)
    (before : TypedSystem archives App Any) (action : TypedAction archives)
    (after : TypedSystem archives App Any) : Prop :=
  ThreadedSystem.Steady config before.system (serialized action) after.system ∧ Calls binds action

instance (binds : Bindings archives App Any) (before : TypedSystem archives App Any)
    (action : TypedAction archives) (after : TypedSystem archives App Any) :
    Decidable (Steady config binds before action after) :=
  inferInstanceAs (Decidable (_ ∧ _))

/-- The threads go on behind the replicas. -/
theorem Record.behind_step (record : Record config binds start before)
    {action : ThreadedAction} {system : ThreadedSystem App (Option Any)}
    (taken : before.system.step config action = some system)
    (steady : ThreadedSystem.Steady config before.system action system) :
    ∃ replicas, Lags config system replicas ∧
      Replicas.Record config binds.operations start replicas := by
  obtain ⟨replicas, lags, performs⟩ := record.behind
  rcases ThreadedSystem.lags_step lags performs.once taken steady with
    same | ⟨action', later, moved, safe, lagging⟩
  · exact ⟨replicas, same, performs⟩
  · exact ⟨later, lagging, performs.step moved safe⟩

theorem Record.step (lawful : archives.Lawful) (record : Record config binds start before)
    (taken : TypedSystem.step config before action = some after)
    (steady : Steady config binds before action after) : Record config binds start after := by
  cases action with
  | asyncCall id opName args =>
      obtain ⟨system, moved, rfl⟩ := Option.map_eq_some_iff.mp taken
      refine ⟨record.behind_step moved steady.1, ?_, fun call invoked => ?_⟩
      · obtain ⟨-, result, acts, rfl⟩ := ThreadedSystem.step_interface.mp moved
        obtain rfl := Option.some.inj acts
        rw [List.map_append, record.seen]
        rfl
      · rcases List.mem_append.mp invoked with old | new
        · exact record.takes call old
        · obtain rfl := Linearizability.Event.invoke.inj (List.mem_singleton.mp new)
          exact steady.2
  | other action =>
      obtain ⟨other, begins⟩ := Option.ite_none_left_eq_some.mp taken
      obtain ⟨system, moved, rfl⟩ := Option.map_eq_some_iff.mp begins
      have behind := record.behind_step moved steady.1
      obtain ⟨replicas, lags, performs⟩ := record.behind
      rcases ThreadedSystem.seen_step lags performs.once moved steady.1.1
        (Bool.eq_false_iff.mpr other) with same | ⟨key, value, respond, given⟩
      · refine ⟨behind, ?_, fun call invoked => record.takes call ?_⟩
        · simp [same, record.seen]
        · simpa [same] using invoked
      · obtain ⟨res, rfl⟩ := record.valued lawful lags performs given
        refine ⟨behind, ?_, fun call invoked => record.takes call ?_⟩
        · simp [respond, responded, record.seen, Linearizability.Event.map]
        · simpa [respond, responded] using invoked

/-- In a run of steady sections without races and with typed calls the clients see one application
that applies its functions to their arguments, one call at a time, and the servers perform
beginnings of this. -/
theorem typed_linearizable_of_steady (lawful : archives.Lawful) (config : ClusterConfig)
    (binds : Bindings archives App Any) (start : App)
    (steady : Execution.Along (TypedSystem.step config) (Steady config binds) actions
      (init binds start))
    (execution : Execution.run (TypedSystem.step config) actions (init binds start) = some final)
    (enough : ∀ id, final.system.made id ≤ UInt64.size) :
    ∃ order, Linearizes (object binds start) order final.seen ∧
      ∀ id, final.system.performed id <+: order.map TypedCall.toBasic ∧
        (final.system.interfaces id).app =
          (object binds start).after (order.take (final.system.performed id).length) := by
  have preserved := fun (before : TypedSystem archives App Any) action after
    (record : Record config binds start before)
    (taken : TypedSystem.step config before action = some after)
    (steady : Steady config binds before action after) => record.step lawful taken steady
  have initial : Record config binds start (init binds start) :=
    ⟨⟨_, .init config _ _, .init config _ start⟩, rfl, fun call invoked => by
      simp [init] at invoked⟩
  have record := Execution.invariant_of_along preserved initial steady execution
  obtain ⟨replicas, lags, performs⟩ := record.behind
  obtain ⟨order', linearizes, begins⟩ := ThreadedSystem.linearizes_of_lags lags performs enough
  rw [← record.seen] at linearizes
  obtain ⟨order, rfl, invoked, linearizes⟩ := (record.codes lawful).linearizes linearizes
  refine ⟨order, linearizes, fun id => ⟨(begins id).1, ?_⟩⟩
  have performed : final.system.performed id =
      (order.take (final.system.performed id).length).map TypedCall.toBasic := by
    rw [List.map_take]
    exact List.prefix_iff_eq_take.mp (begins id).1
  calc (final.system.interfaces id).app
      = (Replicas.object binds.operations start).after (final.system.performed id) :=
        (begins id).2
    _ = (Replicas.object binds.operations start).after
          ((order.take (final.system.performed id).length).map TypedCall.toBasic) :=
        congrArg _ performed
    _ = (object binds start).after (order.take (final.system.performed id).length) :=
        (record.codes lawful).after fun call member => invoked call (List.mem_of_mem_take member)

/-- Text archives that hold numbers. -/
abbrev numbers : TextArchives Unit where
  Value _ := UInt32
  OArchive := List Char
  IArchive := List Char
  textOArchive := "22 serialization::archive 17".toList
  put _ x text := text ++ ' ' :: Nat.toDigits 10 x.toNat
  str text := .ofChars (text ++ ['\n'])
  textIArchive str :=
    let header := "22 serialization::archive 17".toList
    if header <+: str.chars then some (str.chars.drop header.length) else none
  get _ text :=
    (TextStream.readWord text).map fun (word, rest) => (.ofNat (Nat.ofDigitChars 10 word 0), rest)

/-- The text of some numbers. -/
def digits (args : List numbers.Arg) : List Char :=
  args.flatMap fun arg => ' ' :: Nat.toDigits 10 (UInt32.toNat arg.2)

theorem serializeImpl_numbers (args : List numbers.Arg) (text : List Char) :
    numbers.serializeImpl args text = text ++ digits args := by
  induction args generalizing text with
  | nil => exact (List.append_nil text).symm
  | cons arg args ih =>
      obtain ⟨type, x⟩ := arg
      refine (ih _).trans ?_
      rw [digits, digits, List.flatMap_cons, ← List.append_assoc]

theorem head_digits (args : List numbers.Arg) (char : Char)
    (head : (digits args ++ ['\n']).head? = some char) : TextStream.isSpace char = true := by
  cases args with
  | nil =>
      obtain rfl := Option.some.inj head
      decide
  | cons arg args =>
      obtain rfl := Option.some.inj head
      decide

/-- All characters of an archive have one byte. -/
theorem small_archive (args : List numbers.Arg) (char : Char)
    (member : char ∈ "22 serialization::archive 17".toList ++ digits args ++ ['\n']) :
    char.toNat < 256 := by
  have small : "22 serialization::archive 17".toList.all (·.toNat < 256) = true := by
    decide +kernel
  simp only [digits, List.mem_append, List.mem_flatMap, List.mem_cons, List.not_mem_nil,
    or_false] at member
  rcases member with (header | ⟨arg, -, rfl | digit⟩) | rfl
  · exact of_decide_eq_true (List.all_eq_true.mp small char header)
  · decide
  · have isDigit := Nat.isDigit_of_mem_toDigits (by decide) (by decide) digit
    simp only [Char.isDigit, Bool.and_eq_true, decide_eq_true_eq, UInt32.le_iff_toNat_le]
      at isDigit
    exact Nat.lt_of_le_of_lt isDigit.2 (by decide)
  · decide

/-- What follows the header is read. -/
theorem readHeader {header text : List Char} (small : ∀ char ∈ header ++ text, char.toNat < 256) :
    (if header <+: (ByteString.ofChars (header ++ text)).chars then
      some ((ByteString.ofChars (header ++ text)).chars.drop header.length) else none) =
      some text := by
  rw [ByteString.chars_ofChars small, if_pos (List.prefix_append _ _), List.drop_left]

theorem lawful_numbers : numbers.Lawful := by
  refine ⟨fun args text => text = digits args ++ ['\n'], fun args => ⟨_, ?_, rfl⟩, ?_⟩
  · rw [serializeImpl_numbers]
    have small := small_archive args
    rw [List.append_assoc] at small
    have whole := congrArg (fun text => numbers.textIArchive (.ofChars text))
      (List.append_assoc numbers.textOArchive (digits args) ['\n'])
    exact whole.trans (readHeader small)
  · rintro type x args text rfl
    refine ⟨digits args ++ ['\n'], ?_, rfl⟩
    have word : TextStream.readWord (digits (⟨type, x⟩ :: args) ++ ['\n']) =
        some (Nat.toDigits 10 (UInt32.toNat x), digits args ++ ['\n']) := by
      rw [digits, List.flatMap_cons, List.append_assoc]
      refine TextStream.readWord_append Nat.toDigits_ne_nil (fun char member => ?_)
        (head_digits args)
      exact TextStream.isSpace_of_isDigit
        (Nat.isDigit_of_mem_toDigits (by decide) (by decide) member)
    simp only [numbers, word, Option.map_some, Nat.ofDigitChars_ten_toDigits]
    rw [UInt32.ofNat_toNat]

/-- The vector of `example.cpp`; the size before is returned. -/
def appending : BoundFunction numbers (List UInt32) ℕ where
  types := [()]
  rawF
    | .cons a .nil => fun vec => (vec.concat a, vec.length)

/-- A client of server 1 calls the function with one argument more than it takes. -/
def surplus : TypedCall numbers where
  opName := "append"
  args := [⟨(), (7 : UInt32)⟩, ⟨(), (8 : UInt32)⟩]
  prmIdx := 0
  srvId := localServer 1

/-- The command of this call. -/
def surplusCommand : AddLogMessage :=
  { opName := "append", args := numbers.serialize surplus.args, prmIdx := 0,
    srvId := localServer 1 }

/-- Server 1 is elected, stores the command, replicates it to server 2 and hands it over. -/
def surplusCommit : List (ServerId × Sections.Act Event) :=
  let msg : AppendEntriesMessage :=
    { term := 1, leaderId := localServer 1, logEntries := [Server.logEntry surplusCommand 1] }
  seriallyAt (Cluster.firstElection ++
    [(localServer 1, .rpcAddLog surplusCommand), (localServer 1, .addLogState),
      (localServer 1, .startAppending (localServer 2)),
      (localServer 1, .sendAppendEntries (localServer 2)), (localServer 2, .rpcAppendEntries msg),
      (localServer 1, .receiveAppendReply (localServer 2) msg (1, true)),
      (localServer 1, .countReplica (localServer 2)),
      (localServer 1, .countReplica (localServer 2))])
    [1, 10, 5, 2, 2, 3, 0, 0, 2, 8, 0, 2, 4]

/-- What happens after the client's call, until it is performed by server 1. -/
def surplusActions : List ThreadedAction :=
  [.interface (localServer 1) (.emplace 0), .interface (localServer 1) (.addLog 0 true)] ++
    surplusCommit.map .raft ++ ThreadedSystem.handle (localServer 1) true ++
    ThreadedSystem.answer (localServer 1)

/-- The client's call is performed by server 1. -/
def surplusRun : List (TypedAction numbers) :=
  .asyncCall (localServer 1) "append" surplus.args :: surplusActions.map .other

/-- The client is answered, and the argument that the function does not take is not seen. -/
theorem typed_linearizable_surplus :
    ∃ final ∈ Execution.run (TypedSystem.step trio) surplusRun (init [("append", appending)] []),
      final.system.seen.getLast? = some (.respond (localServer 1, 0) (some 0)) ∧
        (final.system.interfaces (localServer 1)).app = [7] ∧
        ∃ order, Linearizes (object [("append", appending)] []) order final.seen ∧
          ∀ id, final.system.performed id <+: order.map TypedCall.toBasic ∧
            (final.system.interfaces id).app = (object [("append", appending)] []).after
              (order.take (final.system.performed id).length) := by
  have enabled : ∃ final ∈
      Execution.run (TypedSystem.step trio) surplusRun (init [("append", appending)] []),
        final.system.seen.getLast? = some (.respond (localServer 1, 0) (some 0)) ∧
          (final.system.interfaces (localServer 1)).app = [7] ∧
          (Linearizability.invocations final.system.seen).length = 1 := by
    decide +kernel
  obtain ⟨final, execution, answered, first, one⟩ := enabled
  have enough : ∀ id, final.system.made id ≤ UInt64.size := fun id =>
    (List.countP_le_length.trans one.le).trans (by decide)
  exact ⟨final, execution, answered, first,
    typed_linearizable_of_steady lawful_numbers trio _ [] (by decide +kernel) execution enough⟩

end TypedSystem

end Quintet
