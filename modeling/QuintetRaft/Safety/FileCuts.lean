import QuintetRaft.Model.FileOperations
import QuintetRaft.Safety.FileFollowUp

/-!
# Calls that are cut off

What a file holds when a call of `append` or `pop` has made only the first of its operations.
-/

namespace Quintet

open FourBytes

namespace File

variable {T : Type} {codec : Codec T} {file : File} {name : String} {disk : Disk}
  {stream : FileStream} {operation : Operation} {operations : List Operation}
  {bytes content data : List UInt8} {datas : List (List UInt8)} {length : Nat} {val : T}
  {xs : List T} {call : Call T}

/-! ## A call and its operations -/

@[simp] theorem store_store (disk : Disk) (name : String) (first second : FileStream) :
    store (store disk name first) name second = store disk name second := by
  funext other
  simp only [store]
  split <;> rfl

theorem store_present (present : disk (fileName name) = some stream.content) :
    store disk name stream = disk := by
  funext other
  simp only [store]
  split
  · rename_i same
    rw [same, present]
  · rfl

/-- What an operation does to the stream of a file that is open. -/
def Operation.move (stream : FileStream) : Operation → FileStream
  | .openInOut => { content := stream.content }
  | .openOut => { content := [] }
  | .readInt => (stream.read 4).2
  | .seek target => stream.seek target
  | .seekBy offset => stream.seekBy offset
  | .write bytes => stream.write bytes

theorem run_store (operation : Operation) :
    operation.run name (store disk name stream, stream) =
      (store disk name (operation.move stream), operation.move stream) := by
  have same : ∀ other : FileStream, other.content = stream.content →
      store disk name stream = store disk name other := by
    intro other eq
    funext entry
    simp only [store, eq]
  cases operation with
  | openInOut => simp [Operation.run, Operation.move, same { content := stream.content }]
  | openOut => simp [Operation.run, Operation.move]
  | readInt =>
      rw [Operation.run, Operation.move, same _ (FileStream.read_content stream 4)]
  | seek target =>
      rw [Operation.run, Operation.move, same _ (FileStream.seek_content stream target)]
  | seekBy offset =>
      rw [Operation.run, Operation.move, same _ (FileStream.seekBy_content stream offset)]
  | write bytes =>
      by_cases failed : stream.failed = true
      · simp [Operation.run, Operation.move, failed, FileStream.write_of_failed failed]
      · simp [Operation.run, Operation.move, failed]

theorem runOperations_store (operations : List Operation) :
    runOperations name operations (store disk name stream, stream) =
      (store disk name (operations.foldl Operation.move stream),
        operations.foldl Operation.move stream) := by
  induction operations generalizing stream with
  | nil => rfl
  | cons operation operations ih => rw [runOperations, run_store, ih, List.foldl_cons]

/-- Bytes that are written one after the other. -/
theorem foldl_write (nonempty : bytes ≠ []) :
    (bytes.map fun byte => Operation.write [byte]).foldl Operation.move stream =
      stream.write bytes := by
  induction bytes generalizing stream with
  | nil => exact absurd rfl nonempty
  | cons byte bytes ih =>
      cases bytes with
      | nil => rfl
      | cons next rest =>
          rw [List.map_cons, List.foldl_cons, ih (List.cons_ne_nil next rest), Operation.move,
            FileStream.write_cons stream byte (next :: rest)]

/-- Behind the operations that open the file, `append` and its operations go on from the same
stream. -/
theorem runOperations_append (codec : Codec T) (name : String) (disk : Disk) (val : T) :
    runOperations name (appendOperations codec name val disk) (disk, closed) =
      runOperations name (writeOperations codec (openAppend name disk).1 val)
        (store disk name (openAppend name disk).2, (openAppend name disk).2) := by
  unfold appendOperations
  cases present : disk (fileName name) with
  | none => simp [runOperations, Operation.run, openAppend, present]
  | some content =>
      simp only [runOperations, Operation.run, openAppend, present, readInt, FileStream.readInto,
        encode_length]
      rw [store_present]
      rw [present, FileStream.read_content]

theorem append_eq_operations (codec : Codec T) (val : T) (disk : Disk)
    (registered : file.vars name = some FILE_VECTOR) :
    file.append codec name val disk =
      .ok (diskAfter name (appendOperations codec name val disk) disk) := by
  rw [diskAfter, runOperations_append, runOperations_store]
  have nonempty : int2String (wrap (codec.serialize val).length) ++ codec.serialize val ++
      int2String (wrap (codec.serialize val).length) ≠ [] := by
    simp [int2String]
  simp only [append, checkVar_of_registered registered, writeOperations, List.cons_append,
    List.foldl_cons, List.foldl_append, List.foldl_nil, foldl_write nonempty, Operation.move]
  rfl

theorem runOperations_present (present : disk (fileName name) = some content)
    (operations : List Operation) :
    runOperations name (.openInOut :: operations) (disk, closed) =
      (store disk name (operations.foldl Operation.move { content }),
        operations.foldl Operation.move { content }) := by
  have same : store disk name { content } = disk := store_present present
  have opened : Operation.run name (disk, closed) .openInOut = (disk, { content }) := by
    simp [Operation.run, present]
  rw [runOperations, opened]
  nth_rewrite 1 [← same]
  exact runOperations_store operations

theorem readInt_stream (old : List UInt8) (size : old.length = 4) :
    (readInt stream old).2 = (stream.read 4).2 := by
  rw [← size]
  rfl

theorem pop_eq_operations (memory : Memory) (registered : file.vars name = some FILE_VECTOR)
    (present : disk (fileName name) = some content) :
    file.pop name memory disk = .ok (diskAfter name (popOperations name memory disk) disk) := by
  have unset := fun variable' => Memory.bytes_length memory variable' 4
  simp only [pop, checkVar_of_registered registered, present, popOperations, diskAfter]
  rw [runOperations_present present]
  simp only [List.foldl_cons, List.foldl_nil, Operation.move, readInt_stream _ (unset _)]
  rfl

/-! ## Cuts -/

/-- An operation that leaves the content of the file alone. -/
def Operation.Quiet (operation : Operation) : Prop :=
  ∀ stream, (operation.move stream).content = stream.content

theorem quiet_seek (target : Int) : (Operation.seek target).Quiet := fun stream =>
  FileStream.seek_content stream target

theorem foldl_quiet (quiet : ∀ operation ∈ operations, operation.Quiet) :
    (operations.foldl Operation.move stream).content = stream.content := by
  induction operations generalizing stream with
  | nil => rfl
  | cons operation operations ih =>
      rw [List.foldl_cons, ih fun later member => quiet later (List.mem_cons_of_mem _ member)]
      exact quiet operation List.mem_cons_self stream

/-- Until the length is written, `append` changes nothing up to the recorded length. -/
theorem content_of_writes {front stale : List UInt8} (good : stream.failed = false)
    (layout : stream.content = front ++ stale)
    (start : operations <+: writeOperations codec front.length val)
    (cut : operations ≠ writeOperations codec front.length val) :
    ∃ stale', (operations.foldl Operation.move stream).content = front ++ stale' := by
  simp only [writeOperations] at start cut
  generalize int2String (wrap (codec.serialize val).length) ++ codec.serialize val ++
    int2String (wrap (codec.serialize val).length) = element at start cut
  generalize Operation.write (encode (wrap (front.length + element.length))) = last at start cut
  rw [show [Operation.seek 0, last] = [Operation.seek 0] ++ [last] from rfl, ← List.append_assoc]
    at start cut
  rcases List.prefix_concat_iff.mp start with all | start
  · exact absurd all cut
  have written : ∀ operations, operations <+: Operation.seek front.length ::
      element.map (fun byte => .write [byte]) → ∃ stale',
        (operations.foldl Operation.move stream).content = front ++ stale' := by
    intro operations start
    rcases List.prefix_cons_iff.mp start with rfl | ⟨writes, rfl, among⟩
    · exact ⟨stale, layout⟩
    obtain ⟨part, _, rfl⟩ := List.prefix_map_iff.mp among
    rw [List.foldl_cons, Operation.move, FileStream.seek_natCast good]
    cases part with
    | nil => exact ⟨stale, layout⟩
    | cons byte rest =>
        rw [foldl_write (List.cons_ne_nil byte rest),
          @FileStream.write_append { stream with pos := front.length } _ front stale rfl layout
            good]
        exact ⟨_, rfl⟩
  rcases List.prefix_concat_iff.mp start with rfl | start
  · obtain ⟨stale', eq⟩ := written _ (List.prefix_refl _)
    refine ⟨stale', ?_⟩
    rw [List.foldl_append, List.foldl_cons, List.foldl_nil, quiet_seek, eq]
  · exact written operations start

/-- There is no file, or one that holds the elements. -/
def Begins (disk : Disk) (name : String) (datas : List (List UInt8)) : Prop :=
  disk (fileName name) = none ∧ datas = [] ∨ Stores disk name datas

theorem diskAfter_present {made : List Operation} (present : disk (fileName name) = some content) :
    diskAfter name (.openInOut :: made) disk (fileName name) =
      some (made.foldl Operation.move { content }).content := by
  rw [diskAfter, runOperations_present present]
  exact store_fileName _ _ _

theorem diskAfter_absent {made : List Operation} (absent : disk (fileName name) = none) :
    diskAfter name (.openInOut :: .openOut :: made) disk (fileName name) =
      some (made.foldl Operation.move { content := [] }).content := by
  have opened : runOperations name (.openInOut :: .openOut :: made) (disk, closed) =
      runOperations name made (store disk name { content := [] }, { content := [] }) := by
    simp [runOperations, Operation.run, absent]
  rw [diskAfter, opened, runOperations_store]
  exact store_fileName _ _ _

/-- What has been written up to the recorded length is what a later call goes by. -/
theorem rests_of_layout (front : List UInt8) {stale : List UInt8} (holds : Holds content datas)
    (same : front = encode (recordedLength datas) ++ body datas)
    (present : disk (fileName name) = some (front ++ stale)) :
    Rests name disk (recordedLength datas) datas := by
  have holds' : Holds (front ++ stale) datas :=
    ⟨holds.small, stale, by rw [same, List.append_assoc]⟩
  exact rests_of_present present (listed_of_holds holds')

theorem rests_of_append_cut_absent {made : List Operation} (absent : disk (fileName name) = none)
    (start : made <+: appendOperations codec name val disk)
    (cut : made ≠ appendOperations codec name val disk)
    (created : made ≠ [.openInOut, .openOut]) :
    Rests name (diskAfter name made disk) (recordedLength []) [] := by
  have length : (openAppend name disk).1 = ((encode 4).length : Int) := by
    rw [openAppend_of_absent absent]
    rfl
  simp only [appendOperations, absent, length] at start cut
  rcases List.prefix_cons_iff.mp start with rfl | ⟨second, rfl, first⟩
  · exact rests_of_absent absent
  rcases List.prefix_cons_iff.mp first with rfl | ⟨third, rfl, next⟩
  · apply rests_of_absent
    simp [diskAfter, runOperations, Operation.run, absent]
  rcases List.prefix_cons_iff.mp next with rfl | ⟨rest, rfl, writes⟩
  · exact absurd rfl created
  obtain ⟨stale, eq⟩ := @content_of_writes _ codec
    ((Operation.write (encode 4)).move { content := [] }) rest val (encode 4) [] rfl rfl writes
    fun all => cut (by rw [all])
  apply rests_of_layout (encode 4) holds_nil rfl
  rw [diskAfter_absent absent, List.foldl_cons, eq]

theorem rests_of_append_cut_present {made : List Operation}
    (present : disk (fileName name) = some content) (holds : Holds content datas)
    (start : made <+: appendOperations codec name val disk)
    (cut : made ≠ appendOperations codec name val disk) :
    Rests name (diskAfter name made disk) (recordedLength datas) datas ∧
      diskAfter name made disk (fileName name) ≠ none := by
  obtain ⟨stale, layout⟩ := holds.layout
  have kept : ∀ made stale', diskAfter name made disk (fileName name) =
      some (encode (recordedLength datas : Int) ++ body datas ++ stale') →
        Rests name (diskAfter name made disk) (recordedLength datas) datas ∧
          diskAfter name made disk (fileName name) ≠ none := by
    intro made stale' found
    refine ⟨rests_of_layout _ holds rfl found, fun none => ?_⟩
    rw [none] at found
    cases found
  have front : (encode (recordedLength datas : Int) ++ body datas).length =
      recordedLength datas := by
    rw [List.length_append, encode_length, recordedLength]
  have length : (openAppend name disk).1 =
      ((encode (recordedLength datas : Int) ++ body datas).length : Int) := by
    rw [openAppend_of_stores present holds, front]
  simp only [appendOperations, present, length] at start cut
  rw [layout, ← List.append_assoc] at present
  rcases List.prefix_cons_iff.mp start with rfl | ⟨second, rfl, first⟩
  · exact kept [] stale present
  rcases List.prefix_cons_iff.mp first with rfl | ⟨rest, rfl, writes⟩
  · exact kept [.openInOut] stale (diskAfter_present present)
  have opened : (Operation.readInt.move { content }) = { content, pos := 4 } := by
    have read := holds.readLength (@encode_length 4)
    rw [Operation.move, ← readInt_stream (encode 4) encode_length, read]
  obtain ⟨stale', eq⟩ := @content_of_writes _ codec { content, pos := 4 } rest val
    (encode (recordedLength datas : Int) ++ body datas) stale rfl
    (by rw [layout, List.append_assoc]) writes fun all => cut (by rw [all])
  refine kept (.openInOut :: .readInt :: rest) stale' ?_
  rw [diskAfter_present present, List.foldl_cons, List.append_assoc, ← layout, opened, eq]

/-- An `append` that is cut off leaves the vector as it was, unless the file has just been made. -/
theorem rests_of_append_cut {made : List Operation} (begins : Begins disk name datas)
    (start : made <+: appendOperations codec name val disk)
    (cut : made ≠ appendOperations codec name val disk)
    (created : made ≠ [.openInOut, .openOut]) :
    Rests name (diskAfter name made disk) (recordedLength datas) datas ∧
      (diskAfter name made disk (fileName name) = none → disk (fileName name) = none) := by
  rcases begins with ⟨absent, rfl⟩ | ⟨content, present, holds⟩
  · exact ⟨rests_of_append_cut_absent absent start cut created, fun _ => absent⟩
  · obtain ⟨rests, there⟩ := rests_of_append_cut_present present holds start cut
    exact ⟨rests, fun none => absurd none there⟩

theorem rests_of_begins (begins : Begins disk name datas) :
    Rests name disk (recordedLength datas) datas := by
  rcases begins with ⟨absent, rfl⟩ | ⟨content, present, holds⟩
  · exact rests_of_absent absent
  · exact rests_of_present present (listed_of_holds holds)

/-- A `pop` that is cut off leaves the file as it was. -/
theorem begins_of_pop_cut {made : List Operation} {memory : Memory}
    (begins : Begins disk name datas) (start : made <+: popOperations name memory disk)
    (cut : made ≠ popOperations name memory disk) :
    Begins (diskAfter name made disk) name datas ∧
      (diskAfter name made disk (fileName name) = none → disk (fileName name) = none) := by
  have same : diskAfter name made disk (fileName name) = disk (fileName name) := by
    cases present : disk (fileName name) with
    | none =>
        simp only [popOperations, present] at start cut
        rcases List.prefix_cons_iff.mp start with rfl | ⟨rest, rfl, none⟩
        · exact present
        · exact absurd (by rw [List.prefix_nil.mp none]) cut
    | some content =>
        simp only [popOperations, present] at start cut
        rcases List.prefix_cons_iff.mp start with rfl | ⟨rest, rfl, others⟩
        · exact present
        rw [diskAfter_present present, foldl_quiet]
        -- Only the last operation writes.
        rcases List.prefix_concat_iff.mp (show rest <+: [_, _, _, _, _, _] ++ [_] from others) with
          rfl | others
        · exact absurd rfl cut
        intro operation member
        have among := others.subset member
        simp only [List.mem_cons, List.not_mem_nil, or_false] at among
        rcases among with rfl | rfl | rfl | rfl | rfl | rfl <;> intro stream <;>
          simp [Operation.move]
  refine ⟨?_, fun absent => by rw [← same, absent]⟩
  simpa only [Begins, Stores, same] using begins

/-- A `pop` that has made all its operations has removed the last element. -/
theorem begins_of_pop {memory : Memory} (registered : file.vars name = some FILE_VECTOR)
    (begins : Begins disk name datas) :
    Begins (diskAfter name (popOperations name memory disk) disk) name datas.dropLast ∧
      (diskAfter name (popOperations name memory disk) disk (fileName name) = none →
        disk (fileName name) = none) := by
  rcases begins with ⟨absent, rfl⟩ | ⟨content, present, holds⟩
  · have same : diskAfter name (popOperations name memory disk) disk = disk := by
      simp [popOperations, absent, diskAfter, runOperations, Operation.run]
    rw [same]
    exact ⟨.inl ⟨absent, rfl⟩, id⟩
  · obtain ⟨after, made, content', found, holds'⟩ :=
      pop_stores registered ⟨content, present, holds⟩ memory
    rw [pop_eq_operations memory registered present] at made
    rw [Except.ok.inj made]
    refine ⟨.inr ⟨content', found, holds'⟩, fun none => ?_⟩
    rw [none] at found
    cases found

theorem rests_of_cut {made : List Operation} (begins : Begins disk name datas)
    (start : made <+: call.operations codec name disk)
    (cut : made ≠ call.operations codec name disk) (created : made ≠ [.openInOut, .openOut]) :
    Rests name (diskAfter name made disk) (recordedLength datas) datas ∧
      (diskAfter name made disk (fileName name) = none → disk (fileName name) = none) := by
  cases call with
  | append added => exact rests_of_append_cut begins start cut created
  | pop memory =>
      obtain ⟨same, absent⟩ := begins_of_pop_cut begins start cut
      exact ⟨rests_of_begins same, absent⟩

end File

end Quintet
