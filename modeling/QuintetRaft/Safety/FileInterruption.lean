import QuintetRaft.Safety.FileCuts

/-!
# Interrupted calls

What later calls make of a vector when a call of `append` or `pop` is cut off after any of its
operations.  The one moment that matters is the one between the making of a file and the first
length in it.
-/

namespace Quintet

open FourBytes

namespace File

variable {T : Type} {codec : Codec T} {file : File} {name : String} {disk : Disk}
  {content : List UInt8} {datas : List (List UInt8)} {length : Nat} {val : T} {xs : List T}
  {call : Call T}

/-! ## What a call leaves behind -/

/-- Later calls of `append` all go through, and from then on `getVector` returns their values. -/
def Continues (codec : Codec T) (file : File) (name : String) : Disk → List T → List T → Prop
  | _, _, [] => True
  | disk, xs, val :: vals => ∃ after, file.append codec name val disk = .ok after ∧
      Gives codec file name after (xs ++ [val]) ∧ Continues codec file name after (xs ++ [val]) vals

/-- A later `getVector` returns the vector from before a call that has been cut off, or the one
that the call produces, or reports an error where there was no file; and later calls of `append`
go on from the same vector. -/
def Survives (codec : Codec T) (file : File) (name : String) (disk : Disk) (xs : List T)
    (call : Call T) (made : List Operation) (later : List T) : Prop :=
  ∃ list, (list = xs ∧ made ≠ call.operations codec name disk ∨ list = call.apply xs) ∧
    (∀ memory, ∃ turns outcome,
      file.getVector codec name memory turns (diskAfter name made disk) = some outcome ∧
        (outcome = .ok list ∨
          disk (fileName name) = none ∧ list = xs ∧ ∃ error, outcome = .error error)) ∧
    Continues codec file name (diskAfter name made disk) list later

/-- Every one of some elements is read back, behind those before it. -/
def AllReadBack (codec : Codec T) : Int → List T → Prop
  | _, [] => True
  | length, val :: vals => ReadsBack codec length val ∧
      AllReadBack codec (wrap (length + ((codec.serialize val).length + 8))) vals

/-- The length that a call records. -/
def Call.lengthAfter (codec : Codec T) (datas : List (List UInt8)) : Call T → Int
  | .append added => wrap (recordedLength datas + ((codec.serialize added).length + 8))
  | .pop _ => recordedLength datas.dropLast

/-- The payloads that a call leaves in a file. -/
def Call.kept (datas : List (List UInt8)) : Call T → List (List UInt8)
  | .append _ => datas
  | .pop _ => datas.dropLast

/-- The values that a call leaves in a vector. -/
def Call.keptValues (xs : List T) : Call T → List T
  | .append _ => xs
  | .pop _ => xs.dropLast

/-- A call is not cut off between the making of a file and the first length in it, the payloads that
stay in the file are read as their values, and the elements that are added are read back. -/
structure Unharmed (codec : Codec T) (name : String) (disk : Disk) (datas : List (List UInt8))
    (xs : List T) (call : Call T) (made : List Operation) (later : List T) : Prop where
  /-- The length has been written if the file has been made. -/
  created : made ≠ [.openInOut, .openOut]
  /-- If the call is cut off, the payloads of the file are read as the values of its vector. -/
  uncut : made ≠ call.operations codec name disk → List.Forall₂ codec.Reads datas xs
  /-- If the call is complete, those that it leaves are. -/
  kept : made = call.operations codec name disk →
    List.Forall₂ codec.Reads (call.kept datas) (call.keptValues xs)
  /-- If the call is complete, the element that it adds is read back. -/
  added : made = call.operations codec name disk → ∀ added, call = .append added →
    ReadsBack codec (recordedLength datas) added
  /-- If the call is cut off, later elements are read back behind the vector from before. -/
  before : made ≠ call.operations codec name disk →
    AllReadBack codec (recordedLength datas) later
  /-- If the call is complete, they are read back behind the vector that the call produces. -/
  after : made = call.operations codec name disk →
    AllReadBack codec (call.lengthAfter codec datas) later

/-- The next `append` finds the records that the file holds. -/
theorem Rests.listed (present : disk (fileName name) = some content)
    (rests : Rests name disk length datas) : Listed content length datas := by
  obtain ⟨opened, same, listed⟩ := rests
  have content' := congrArg (fun pair => pair.2.content) same
  simp only [openAppend, present, readInt, FileStream.readInto, FileStream.read_content] at content'
  rwa [← content'] at listed

theorem continues_of_rests {later : List T} (registered : file.vars name = some FILE_VECTOR)
    (rests : Rests name disk length datas) (accepted : List.Forall₂ codec.Reads datas xs) :
    Continues codec file name disk xs later ↔ AllReadBack codec length later := by
  induction later generalizing disk length datas xs with
  | nil => exact Iff.rfl
  | cons val vals ih =>
      obtain ⟨after, appended, reads, listed⟩ :=
        append_of_rests codec val registered rests accepted.length_eq
      have both : ∀ {data}, codec.Reads data val →
          List.Forall₂ codec.Reads (datas ++ [data]) (xs ++ [val]) := fun last =>
        List.rel_append accepted (.cons last .nil)
      constructor
      · rintro ⟨after', appended', gives, continues⟩
        rw [appended] at appended'
        cases appended'
        obtain ⟨content, present, longer, data, length, last, listed⟩ := listed (reads gives).2
        refine ⟨(reads gives).2, ?_⟩
        rw [← length]
        exact (ih (rests_of_present present listed) (both last)).mp continues
      · rintro ⟨readsBack, others⟩
        obtain ⟨content, present, longer, data, length, last, listed⟩ := listed readsBack
        rw [← length] at others
        exact ⟨after, appended, (listed.gives_iff registered present).mpr (both last),
          (ih (rests_of_present present listed) (both last)).mpr others⟩

theorem getVector_of_absent (registered : file.vars name = some FILE_VECTOR)
    (absent : disk (fileName name) = none) (memory : Nat → Memory) :
    file.getVector codec name memory 0 disk =
      some (.error (.runtimeError "cannot open file")) := by
  simp [getVector, checkVar_of_registered registered, absent]

/-- A call that changes the vector changes its length. -/
theorem Call.apply_eq_of_length (same : (call.apply xs).length = xs.length) :
    call.apply xs = xs := by
  cases call with
  | append added => simp [Call.apply] at same
  | pop memory =>
      cases xs with
      | nil => rfl
      | cons val vals => simp [Call.apply] at same

theorem survives_of_rests {made : List Operation} {ys later : List T}
    (registered : file.vars name = some FILE_VECTOR)
    (rests : Rests name (diskAfter name made disk) length datas)
    (lengths : datas.length = ys.length)
    (which : ys = xs ∧ made ≠ call.operations codec name disk ∨ ys = call.apply xs)
    (fresh : disk (fileName name) = none → List.Forall₂ codec.Reads datas ys)
    (absent : diskAfter name made disk (fileName name) = none →
      disk (fileName name) = none ∧ ys = xs) :
    Survives codec file name disk xs call made later ↔
      List.Forall₂ codec.Reads datas ys ∧ AllReadBack codec length later := by
  constructor
  · rintro ⟨list, which', found, continues⟩
    have both : List.Forall₂ codec.Reads datas ys ∧ list = ys := by
      cases present : diskAfter name made disk (fileName name) with
      | none =>
          obtain ⟨before, same⟩ := absent present
          refine ⟨fresh before, ?_⟩
          obtain ⟨turns, outcome, result, reported⟩ := found fun _ => .filled 0
          have thrown := getVector_unique result (getVector_of_absent registered present _)
          rcases reported with rfl | ⟨-, same', -⟩
          · cases thrown
          · rw [same', same]
      | some content =>
          have listed := rests.listed present
          by_cases before : disk (fileName name) = none
          · refine ⟨fresh before, ?_⟩
            obtain ⟨turns, outcome, result, reported⟩ := found fun _ => .filled 0
            obtain ⟨turns', result'⟩ :=
              (listed.gives_iff registered present).mpr (fresh before) fun _ => .filled 0
            have returned := getVector_unique result result'
            rcases reported with rfl | ⟨-, -, error, rfl⟩
            · exact Except.ok.inj returned
            · cases returned
          have gives : Gives codec file name (diskAfter name made disk) list := by
            intro memory
            obtain ⟨turns, outcome, result, reported⟩ := found memory
            rcases reported with rfl | ⟨nothing, -⟩
            · exact ⟨turns, result⟩
            · exact absurd nothing before
          have accepted := (listed.gives_iff registered present).mp gives
          have long : list.length = ys.length := accepted.length_eq.symm.trans lengths
          have same : list = ys := by
            rcases which with ⟨rfl, -⟩ | rfl <;> rcases which' with ⟨rfl, -⟩ | rfl
            · rfl
            · exact Call.apply_eq_of_length long
            · exact (Call.apply_eq_of_length long.symm).symm
            · rfl
          exact ⟨same ▸ accepted, same⟩
    rw [both.2] at continues
    exact ⟨both.1, (continues_of_rests registered rests both.1).mp continues⟩
  · rintro ⟨accepted, readsBack⟩
    refine ⟨ys, which, fun memory => ?_,
      (continues_of_rests registered rests accepted).mpr readsBack⟩
    cases present : diskAfter name made disk (fileName name) with
    | none =>
        obtain ⟨before, same⟩ := absent present
        exact ⟨0, _, getVector_of_absent registered present memory, .inr ⟨before, same, _, rfl⟩⟩
    | some content =>
        obtain ⟨turns, result⟩ :=
          ((rests.listed present).gives_iff registered present).mpr accepted memory
        exact ⟨turns, _, result, .inl rfl⟩

/-- Where a file has been made without a length, the next `append` is lost. -/
theorem not_survives_of_created {vals : List T} (registered : file.vars name = some FILE_VECTOR) :
    ¬ Survives codec file name disk xs call [.openInOut, .openOut] (val :: vals) := by
  rintro ⟨list, -, -, after, appended, gives, -⟩
  have present : diskAfter name [.openInOut, .openOut] disk (fileName name) = some [] := by
    rw [diskAfter, runOperations, runOperations, runOperations]
    exact store_fileName _ _ _
  have kept := append_of_truncated registered present (by decide) appended
  obtain ⟨turns, result⟩ := gives fun _ => .filled 255
  have empty := getVector_unique result (getVector_of_truncated registered kept (by decide))
  simp at empty

theorem empty_of_begins (begins : Begins disk name datas)
    (absent : disk (fileName name) = none) : datas = [] := by
  rcases begins with ⟨-, empty⟩ | ⟨content, present, -⟩
  · exact empty
  · rw [absent] at present
    cases present

/-- Where there is no file, all its payloads are read back. -/
theorem accepted_of_absent (begins : Begins disk name datas) (lengths : datas.length = xs.length)
    (absent : disk (fileName name) = none) : List.Forall₂ codec.Reads datas xs := by
  obtain rfl := empty_of_begins begins absent
  rw [List.eq_nil_of_length_eq_zero lengths.symm]
  exact .nil

theorem survives_append_iff {later : List T} (added : T)
    (registered : file.vars name = some FILE_VECTOR) (begins : Begins disk name datas)
    (lengths : datas.length = xs.length) :
    Survives codec file name disk xs (.append added) (appendOperations codec name added disk)
        later ↔
      List.Forall₂ codec.Reads datas xs ∧ ReadsBack codec (recordedLength datas) added ∧
        AllReadBack codec (Call.lengthAfter codec datas (.append added)) later := by
  obtain ⟨after, appended, reads, listed⟩ :=
    append_of_rests codec added registered (rests_of_begins begins) lengths
  rw [append_eq_operations codec added disk registered] at appended
  cases appended
  by_cases readsBack : ReadsBack codec (recordedLength datas) added
  · obtain ⟨content, present, longer, data, length, last, listed⟩ := listed readsBack
    have both : List.Forall₂ codec.Reads (datas ++ [data]) ((Call.append added).apply xs) ↔
        List.Forall₂ codec.Reads datas xs := by
      refine ⟨fun all => ?_, fun accepted => List.rel_append accepted (.cons last .nil)⟩
      have front := List.forall₂_take datas.length all
      rwa [List.take_left, lengths, Call.apply, List.take_left] at front
    have survives := @survives_of_rests _ _ _ _ _ _ _ xs (.append added) _ _ later registered
      (rests_of_present present listed) (by simp [lengths, Call.apply]) (.inr rfl)
      (fun absent => both.mpr (accepted_of_absent begins lengths absent))
      fun none => by rw [present] at none; cases none
    rw [survives, length, both]
    exact ⟨fun next => ⟨next.1, readsBack, next.2⟩, fun all => ⟨all.1, all.2.2⟩⟩
  · refine iff_of_false ?_ fun all => readsBack all.2.1
    rintro ⟨list, which, found, -⟩
    rcases which with ⟨-, cut⟩ | rfl
    · exact cut rfl
    refine readsBack (reads fun memory => ?_).2
    obtain ⟨turns, outcome, result, reported⟩ := found memory
    rcases reported with rfl | ⟨-, same, -⟩
    · exact ⟨turns, result⟩
    · simp [Call.apply] at same

theorem survives_pop_iff {later : List T} (memory : Memory)
    (registered : file.vars name = some FILE_VECTOR) (begins : Begins disk name datas)
    (lengths : datas.length = xs.length) :
    Survives codec file name disk xs (.pop memory) (popOperations name memory disk) later ↔
      List.Forall₂ codec.Reads datas.dropLast xs.dropLast ∧
        AllReadBack codec (Call.lengthAfter codec datas (.pop memory : Call T)) later := by
  obtain ⟨same, absent⟩ := @begins_of_pop _ _ _ _ memory registered begins
  have shorter : datas.dropLast.length = xs.dropLast.length := by
    rw [List.length_dropLast, List.length_dropLast, lengths]
  refine survives_of_rests registered (rests_of_begins same) shorter (.inr rfl) (fun none => ?_)
    fun none => ?_
  · obtain rfl := empty_of_begins begins none
    rw [List.eq_nil_of_length_eq_zero lengths.symm]
    exact .nil
  · refine ⟨absent none, ?_⟩
    obtain rfl := empty_of_begins begins (absent none)
    rw [List.eq_nil_of_length_eq_zero lengths.symm]
    rfl

/-- A call that is cut off leaves one of the two vectors behind, and later calls of `append` are
kept, just when it is not cut off between the making of a file and the first length in it, and the
payloads that stay and the elements that are added are read back. -/
theorem survives_iff {made : List Operation} {vals : List T}
    (registered : file.vars name = some FILE_VECTOR) (begins : Begins disk name datas)
    (archived : List.Forall₂ (fun data val => codec.deserialize data = some val) datas xs)
    (start : made <+: call.operations codec name disk) :
    Survives codec file name disk xs call made (val :: vals) ↔
      Unharmed codec name disk datas xs call made (val :: vals) := by
  have lengths := archived.length_eq
  by_cases created : made = [.openInOut, .openOut]
  · rw [created]
    exact iff_of_false (not_survives_of_created registered) fun unharmed => unharmed.created rfl
  by_cases complete : made = call.operations codec name disk
  · have survives : Survives codec file name disk xs call made (val :: vals) ↔
        List.Forall₂ codec.Reads (call.kept datas) (call.keptValues xs) ∧
          (∀ added, call = .append added → ReadsBack codec (recordedLength datas) added) ∧
          AllReadBack codec (call.lengthAfter codec datas) (val :: vals) := by
      rw [complete]
      cases call with
      | append added =>
          simpa [Call.operations, Call.kept, Call.keptValues] using
            survives_append_iff added registered begins lengths
      | pop memory =>
          simpa [Call.operations, Call.kept, Call.keptValues] using
            survives_pop_iff memory registered begins lengths
    rw [survives]
    exact ⟨fun all => ⟨created, fun cut => absurd complete cut, fun _ => all.1, fun _ => all.2.1,
      fun cut => absurd complete cut, fun _ => all.2.2⟩,
      fun unharmed => ⟨unharmed.kept complete, unharmed.added complete, unharmed.after complete⟩⟩
  · obtain ⟨rests, absent⟩ := rests_of_cut begins start complete created
    rw [survives_of_rests registered rests lengths (.inl ⟨rfl, complete⟩)
      (fun none => accepted_of_absent begins lengths none) fun none => ⟨absent none, rfl⟩]
    exact ⟨fun all => ⟨created, fun _ => all.1, fun same => absurd same complete,
      fun same => absurd same complete, fun _ => all.2, fun same => absurd same complete⟩,
      fun unharmed => ⟨unharmed.uncut complete, unharmed.before complete⟩⟩

/-! ## Small vectors -/

theorem allReadBack_of_small {later : List T}
    (reads : ∀ val ∈ later, codec.Reads (codec.serialize val) val)
    (small : length + (body (later.map codec.serialize)).length < 2 ^ 31) :
    AllReadBack codec length later := by
  induction later generalizing length with
  | nil => trivial
  | cons val vals ih =>
      rw [List.map_cons, body_cons, List.length_append, record_length] at small
      have next : wrap ((length : Int) + ((codec.serialize val).length + 8)) =
          (length + ((codec.serialize val).length + 8) : Nat) :=
        wrap_natCast _ rfl (by omega)
      refine ⟨readsBack_of_small (reads val List.mem_cons_self) (by omega), ?_⟩
      rw [next]
      exact ih (fun other member => reads other (List.mem_cons_of_mem val member)) (by omega)

/-- The value that a call adds. -/
def Call.addition : Call T → List T
  | .append added => [added]
  | .pop _ => []

theorem recordedLength_dropLast : recordedLength datas.dropLast ≤ recordedLength datas := by
  rcases List.eq_nil_or_concat' datas with rfl | ⟨front, data, rfl⟩
  · exact Nat.le_refl _
  · rw [List.dropLast_concat, recordedLength_concat]
    exact Nat.le_add_right _ _

/-- While a vector stays small and its bytes are read as its values, the one moment that matters is
the making of the file. -/
theorem unharmed_of_small {made : List Operation} {later : List T}
    (accepted : List.Forall₂ codec.Reads datas xs)
    (reads : ∀ val ∈ call.addition ++ later, codec.Reads (codec.serialize val) val)
    (small : recordedLength datas +
      (body ((call.addition ++ later).map codec.serialize)).length < 2 ^ 31)
    (created : made ≠ [.openInOut, .openOut]) :
    Unharmed codec name disk datas xs call made later := by
  rw [List.map_append, body, List.flatMap_append, List.length_append, ← body, ← body] at small
  have readsLater : ∀ val ∈ later, codec.Reads (codec.serialize val) val := fun val member =>
    reads val (List.mem_append_right _ member)
  refine ⟨created, fun _ => accepted, fun _ => ?_, fun _ added same => ?_,
    fun _ => allReadBack_of_small readsLater (by omega), fun _ => ?_⟩
  · cases call with
    | append added => exact accepted
    | pop memory =>
        rw [Call.kept, Call.keptValues, List.dropLast_eq_take, List.dropLast_eq_take,
          accepted.length_eq]
        exact List.forall₂_take _ accepted
  · rw [same, Call.addition, List.map_cons, body_cons, List.length_append, record_length] at small
    exact readsBack_of_small (reads added (by simp [same, Call.addition])) (by omega)
  · cases call with
    | append added =>
        rw [Call.addition, List.map_cons, List.map_nil, body_cons, List.length_append,
          record_length] at small
        have next : wrap ((recordedLength datas : Int) + ((codec.serialize added).length + 8)) =
            (recordedLength datas + ((codec.serialize added).length + 8) : Nat) :=
          wrap_natCast _ rfl (by omega)
        rw [Call.lengthAfter, next]
        exact allReadBack_of_small readsLater (by omega)
    | pop memory =>
        have shorter := @recordedLength_dropLast datas
        exact allReadBack_of_small readsLater (by omega)

/-- Strings of two bytes are read back, whatever stands behind the buffer. -/
theorem reads_twoBytes {first second : UInt8} (nonzero : first ≠ 0 ∧ second ≠ 0) :
    stringCodec.Reads (stringCodec.serialize [first, second]) [first, second] := by
  have digits : Nat.toDigits 10 2 = ['2'] := by decide
  have bytes : stringCodec.serialize [first, second] =
      archiveHeader ++ 50 :: 32 :: [first, second] := by
    simp [stringCodec, digits]
  have header : (0 : UInt8) ∉ archiveHeader := by decide
  refine reads_of_delimited ?_ fun rest => ?_
  · rw [bytes]
    simp [header, nonzero.1.symm, nonzero.2.symm]
  · rw [bytes]
    have read : readNumber (archiveHeader ++ 50 :: 32 :: first :: second :: rest) =
        some (2, 32 :: first :: second :: rest) := rfl
    simp [stringCodec, read]
theorem survives_iff_vectorTest :
    Survives stringCodec oneVector "vectorTest" noFiles [] (.append [104, 105])
      [.openInOut, .openOut, .write (encode 4)] [[104, 111]] := by
  refine (survives_iff (by simp [oneVector]) (.inl ⟨rfl, rfl⟩) .nil ⟨_, rfl⟩).mpr
    (unharmed_of_small .nil (fun val member => ?_) (by decide) (by decide))
  simp only [Call.addition, List.cons_append, List.nil_append, List.mem_cons, List.not_mem_nil,
    or_false] at member
  rcases member with rfl | rfl
  · exact reads_twoBytes (by decide)
  · exact reads_twoBytes (by decide)

/-- The file has been made, but no length has been written. -/
theorem not_survives_vectorTest :
    [.openInOut, .openOut] <+:
        (Call.append [104, 105]).operations stringCodec "vectorTest" noFiles ∧
      ¬ Survives stringCodec oneVector "vectorTest" noFiles [] (.append [104, 105])
        [.openInOut, .openOut] [[104, 111]] :=
  ⟨⟨_, rfl⟩, not_survives_of_created (by simp [oneVector])⟩

end File

end Quintet
