import Mathlib.Data.List.Forall2
import Mathlib.Data.List.Infix
import QuintetRaft.Model.FileIO

/-!
# The loop of `getVector`

The loop takes bytes for a record when the size before it leaves room for a second one behind it;
it never looks at what the second size is.  Where no record stands, whatever has not been read is
what uninitialised variables hold.
-/

namespace Quintet

open FourBytes

namespace File

variable {T : Type} {codec : Codec T} {memory : Nat → Memory} {length : Int} {turns : Nat}
  {content front rest data second bytes old behind : List UInt8} {datas : List (List UInt8)}
  {val : T} {xs ans : List T}

/-! ## Records -/

/-- Bytes that the loop takes for records with the given payloads. -/
inductive Records : List UInt8 → List (List UInt8) → Prop
  | nil : Records [] []
  | cons {data second bytes : List UInt8} {datas : List (List UInt8)}
      (small : data.length < 2 ^ 31) (size : second.length = 4) (later : Records bytes datas) :
      Records (encode data.length ++ (data ++ (second ++ bytes))) (data :: datas)

theorem Records.append {more : List UInt8} {others : List (List UInt8)}
    (records : Records bytes datas) (later : Records more others) :
    Records (bytes ++ more) (datas ++ others) := by
  induction records with
  | nil => exact later
  | cons small size _ ih =>
      simp only [List.append_assoc, List.cons_append]
      exact .cons small size ih

/-- The values of payloads that are read in a turn and the turns behind it. -/
def values (codec : Codec T) (memory : Nat → Memory) : Nat → List (List UInt8) → Option (List T)
  | _, [] => some []
  | turn, data :: datas => do
      let val ← codec.fromBuffer (memory turn) data
      let vals ← values codec memory (turn + 1) datas
      return val :: vals

theorem values_cons_of_none {turn : Nat} (refused : codec.fromBuffer (memory turn) data = none) :
    values codec memory turn (data :: datas) = none := by
  simp [values, refused]

theorem values_cons_of_some {turn : Nat}
    (accepted : codec.fromBuffer (memory turn) data = some val) :
    values codec memory turn (data :: datas) =
      (values codec memory (turn + 1) datas).map (val :: ·) := by
  simp only [values, accepted, Option.bind_eq_bind, Option.bind_some, Option.pure_def]
  cases values codec memory (turn + 1) datas <;> rfl

theorem values_length {turn : Nat} (read : values codec memory turn datas = some xs) :
    xs.length = datas.length := by
  induction datas generalizing turn xs with
  | nil =>
      cases read
      rfl
  | cons data datas ih =>
      cases accepted : codec.fromBuffer (memory turn) data with
      | none =>
          rw [values_cons_of_none accepted] at read
          cases read
      | some val =>
          rw [values_cons_of_some accepted, Option.map_eq_some_iff] at read
          obtain ⟨vals, read, rfl⟩ := read
          rw [List.length_cons, List.length_cons, ih read]

theorem values_of_reads {turn : Nat} (accepted : List.Forall₂ codec.Reads datas xs) :
    values codec memory turn datas = some xs := by
  induction accepted generalizing turn with
  | nil => rfl
  | @cons data val datas xs first _ ih =>
      rw [values_cons_of_some (first (memory turn)), ih]
      rfl

/-- Payloads with the same values in every memory are read as these. -/
theorem reads_of_values {turn : Nat}
    (read : ∀ memory, values codec memory turn datas = some xs) :
    List.Forall₂ codec.Reads datas xs := by
  induction datas generalizing turn xs with
  | nil =>
      have empty := values_length (read fun _ => .filled 0)
      rw [List.eq_nil_of_length_eq_zero empty]
      exact .nil
  | cons data datas ih =>
      obtain ⟨val, vals, rfl⟩ : ∃ val vals, xs = val :: vals := by
        have length := values_length (read fun _ => .filled 0)
        cases xs with
        | nil => cases length
        | cons val vals => exact ⟨val, vals, rfl⟩
      have both : ∀ memory, codec.fromBuffer (memory turn) data = some val ∧
          values codec memory (turn + 1) datas = some vals := by
        intro memory
        have all := read memory
        cases accepted : codec.fromBuffer (memory turn) data with
        | none =>
            rw [values_cons_of_none accepted] at all
            cases all
        | some first =>
            rw [values_cons_of_some accepted, Option.map_eq_some_iff] at all
            obtain ⟨rest, later, same⟩ := all
            obtain ⟨rfl, rfl⟩ := List.cons.inj same
            exact ⟨rfl, later⟩
      exact .cons (fun memory => (both fun _ => memory).1) (ih fun memory => (both memory).2)

/-- Read a number that stands at the position. -/
theorem readInt_append (front : List UInt8) {rest : List UInt8} {stream : FileStream} {value : Int}
    (position : stream.pos = front.length)
    (content : stream.content = front ++ (encode value ++ rest)) (good : stream.failed = false)
    (fits : Fits value) (size : old.length = 4) :
    readInt stream old = (value, { stream with pos := front.length + 4 }) := by
  simp only [readInt]
  rw [FileStream.readInto_append front position content good (by rw [size, encode_length])]
  simp only [decode_encode fits, encode_length]

/-- One turn of the loop reads one record. -/
theorem scan_record
    (layout : content = front ++ (encode data.length ++ (data ++ (second ++ rest))))
    (more : front.length < length) (small : data.length < 2 ^ 31) (size : second.length = 4) :
    scan codec memory length (turns + 1) { content, pos := front.length } ans =
      (codec.fromBuffer (memory ans.length) data).elim (some (.error .archiveException)) fun val =>
        scan codec memory length turns { content, pos := front.length + (data.length + 8) }
          (ans ++ [val]) := by
  have first : readInt { content, pos := front.length } ((memory ans.length).bytes .size 4) =
      ((data.length : Int), { content, pos := front.length + 4 }) :=
    readInt_append front rfl layout rfl (fits_natCast small) (Memory.bytes_length _ _ _)
  have buffer : FileStream.readInto { content, pos := front.length + 4 }
      ((memory ans.length).bytes .buffer data.length) =
        (data, { content, pos := front.length + 4 + data.length }) := by
    rw [FileStream.readInto_append (front ++ encode data.length) (by simp)
      (by rw [layout]; simp only [List.append_assoc]; rfl) rfl (Memory.bytes_length _ _ _)]
    simp
  have last : readInt { content, pos := front.length + 4 + data.length }
      ((memory ans.length).bytes .size1 4) =
        (decode second, { content, pos := front.length + (data.length + 8) }) := by
    rw [readInt, FileStream.readInto_append (front ++ encode data.length ++ data)
      (by simp [Nat.add_assoc]) (by rw [layout]; simp only [List.append_assoc]; rfl) rfl
      (by rw [Memory.bytes_length, size])]
    simp only [List.length_append, encode_length, size]
    congr 2
    omega
  have nonneg : ¬ (data.length : Int) < 0 := by omega
  simp only [scan, FileStream.tell, Bool.false_eq_true, if_false, more, if_true, first, nonneg,
    Int.toNat_natCast, buffer, last]
  cases codec.fromBuffer (memory ans.length) data <;> rfl

theorem scan_done {stream : FileStream} (done : ¬ stream.tell < length) :
    scan codec memory length (turns + 1) stream ans = some (.ok ans) := by
  simp only [scan, done, if_false]

/-- What stands behind a record. -/
theorem front_of_record
    (layout : content = front ++ (encode data.length ++ (data ++ (second ++ rest))))
    (size : second.length = 4) :
    ∃ next : List UInt8, next.length = front.length + (data.length + 8) ∧
      content = next ++ rest := by
  refine ⟨front ++ (encode data.length ++ (data ++ second)), ?_, ?_⟩
  · simp only [List.length_append, encode_length, size]
    omega
  · simp only [layout, List.append_assoc]

/-- The loop reads records that end before the recorded length. -/
theorem scan_records (records : Records bytes datas) (layout : content = front ++ (bytes ++ rest))
    (upTo : ((front.length + bytes.length : Nat) : Int) ≤ length) :
    scan codec memory length (datas.length + turns) { content, pos := front.length } ans =
      (values codec memory ans.length datas).elim (some (.error .archiveException)) fun vals =>
        scan codec memory length turns { content, pos := front.length + bytes.length }
          (ans ++ vals) := by
  induction records generalizing front ans with
  | nil => simp [values]
  | @cons data second bytes datas small size _ ih =>
      simp only [List.append_assoc] at layout
      simp only [List.length_append, encode_length, size] at upTo ⊢
      obtain ⟨next, position, later⟩ := front_of_record layout size
      rw [List.length_cons, Nat.add_right_comm, scan_record layout (by omega) small size]
      cases accepted : codec.fromBuffer (memory ans.length) data with
      | none =>
          rw [values_cons_of_none accepted]
          rfl
      | some val =>
          have turn : (ans ++ [val]).length = ans.length + 1 := by simp
          have ends : next.length + bytes.length =
              front.length + (4 + (data.length + (4 + bytes.length))) := by omega
          rw [Option.elim_some, ← position, values_cons_of_some accepted, ih later (by omega), turn,
            ends]
          cases values codec memory (ans.length + 1) datas with
          | none => rfl
          | some vals =>
              rw [Option.map_some, Option.elim_some, Option.elim_some, List.append_assoc,
                List.singleton_append]

/-- When the recorded length ends among records, the loop returns no more values than there are
records. -/
theorem scan_records_short (records : Records bytes datas)
    (layout : content = front ++ (bytes ++ rest))
    (short : length ≤ ((front.length + bytes.length : Nat) : Int)) :
    ∃ turns outcome, scan codec memory length turns { content, pos := front.length } ans =
        some outcome ∧
      ∀ ys, outcome = .ok ys → ys.length ≤ ans.length + datas.length := by
  induction records generalizing front ans with
  | nil =>
      have done : ¬ (front.length : Int) < length := Int.not_lt.mpr short
      refine ⟨1, .ok ans, scan_done done, fun ys same => ?_⟩
      rw [Except.ok.inj same]
      exact Nat.le_add_right _ _
  | @cons data second bytes datas small size _ ih =>
      by_cases more : (front.length : Int) < length
      · simp only [List.append_assoc] at layout
        simp only [List.length_append, encode_length, size] at short
        obtain ⟨next, position, later⟩ := front_of_record layout size
        cases accepted : codec.fromBuffer (memory ans.length) data with
        | none =>
            refine ⟨1, .error .archiveException, ?_, fun ys same => (by cases same)⟩
            rw [scan_record layout more small size, accepted]
            rfl
        | some val =>
            obtain ⟨turns, outcome, result, bounded⟩ := @ih next (ans ++ [val]) later (by omega)
            refine ⟨turns + 1, outcome, ?_, fun ys same => ?_⟩
            · rw [scan_record layout more small size, accepted, Option.elim_some, ← position,
                result]
            · have bound := bounded ys same
              simp only [List.length_append, List.length_cons, List.length_nil] at bound ⊢
              omega
      · refine ⟨1, .ok ans, scan_done more, fun ys same => ?_⟩
        rw [Except.ok.inj same]
        exact Nat.le_add_right _ _

/-! ## Termination -/

/-- More turns do not change the result. -/
theorem scan_add {stream : FileStream} {outcome : Except FileError (List T)} (extra : Nat)
    (result : scan codec memory length turns stream ans = some outcome) :
    scan codec memory length (turns + extra) stream ans = some outcome := by
  induction turns generalizing stream ans with
  | zero => cases result
  | succ turns ih =>
      rw [Nat.succ_add]
      simp only [scan] at result ⊢
      split at result <;> rename_i more
      · rw [if_pos more]
        split at result <;> rename_i negative
        · rw [if_pos negative]
          exact result
        · rw [if_neg negative]
          split at result <;> rename_i found
          · exact result
          · exact ih result
      · rw [if_neg more]
        exact result

theorem scan_unique {stream : FileStream} {left right : Nat}
    {outcome other : Except FileError (List T)}
    (result : scan codec memory length left stream ans = some outcome)
    (second : scan codec memory length right stream ans = some other) : outcome = other := by
  have same := scan_add right result
  rw [Nat.add_comm, scan_add left second] at same
  exact (Option.some.inj same).symm

/-- Values that have been read stay. -/
theorem prefix_of_scan {stream : FileStream} {ys : List T}
    (result : scan codec memory length turns stream ans = some (.ok ys)) : ans <+: ys := by
  induction turns generalizing stream ans with
  | zero => cases result
  | succ turns ih =>
      simp only [scan] at result
      split at result
      · split at result
        · cases result
        split at result
        · cases result
        · exact (List.prefix_append _ _).trans (ih result)
      · cases result
        exact List.prefix_refl _

/-- What memory holds in earlier turns does not matter. -/
theorem scan_congr {other : Nat → Memory} {stream : FileStream}
    (same : ∀ turn, ans.length ≤ turn → memory turn = other turn) :
    scan codec memory length turns stream ans = scan codec other length turns stream ans := by
  induction turns generalizing stream ans with
  | zero => rfl
  | succ turns ih =>
      have later : ∀ (stream : FileStream) val,
          scan codec memory length turns stream (ans ++ [val]) =
            scan codec other length turns stream (ans ++ [val]) := fun _ _ =>
        ih fun turn reached => same turn (by simp at reached; omega)
      simp only [scan, same ans.length (Nat.le_refl _), later]

/-! ## Where no record stands -/

/-- A payload that agrees with the bytes that are left, as far as these go. -/
structure Agrees (rest data : List UInt8) : Prop where
  /-- The size fits. -/
  small : data.length < 2 ^ 31
  /-- The bytes begin with the size. -/
  size : rest.take 4 <+: encode data.length
  /-- The payload follows. -/
  payload : (rest.drop 4).take data.length <+: data

theorem accepted_of_not_refused
    (accepts : ¬ ∀ data, Agrees rest data → codec.Refuses data) :
    ∃ data memory val, Agrees rest data ∧ codec.fromBuffer memory data = some val := by
  simp only [Codec.Refuses, not_forall] at accepts
  obtain ⟨data, agrees, memory, some'⟩ := accepts
  obtain ⟨val, accepted⟩ := Option.ne_none_iff_exists'.mp some'
  exact ⟨data, memory, val, agrees, accepted⟩

/-- Where the first size has been read, or the file has ended. -/
theorem readInto_first (layout : content = front ++ rest) (size : old.length = 4) :
    (FileStream.readInto { content, pos := front.length } old).2 =
      { content, pos := front.length + min 4 rest.length, failed := rest.length < 4 } := by
  rw [FileStream.readInto_stream rfl, size, layout]
  simp

theorem drop_first (layout : content = front ++ rest) :
    content.drop (front.length + min 4 rest.length) = rest.drop 4 := by
  rw [layout, List.drop_append, List.drop_eq_nil_of_le (by omega), Nat.add_sub_cancel_left,
    List.nil_append]
  by_cases short : 4 ≤ rest.length
  · rw [Nat.min_eq_left short]
  · rw [List.drop_eq_nil_of_le (by omega), List.drop_eq_nil_of_le (by omega)]

/-- The loop throws when `deserialize` accepts no payload that agrees. -/
theorem scan_refused (layout : content = front ++ rest) (more : front.length < length)
    (refused : ∀ data, Agrees rest data → codec.Refuses data) :
    ∃ error, scan codec memory length (turns + 1) { content, pos := front.length } ans =
      some (.error error) := by
  have before : FileStream.tell { content, pos := front.length } < length := more
  have unset : ((memory ans.length).bytes .size 4).length = 4 := Memory.bytes_length _ _ _
  have start := @FileStream.prefix_readInto { content, pos := front.length }
    ((memory ans.length).bytes .size 4) rfl
  have bytes := @FileStream.readInto_length { content, pos := front.length }
    ((memory ans.length).bytes .size 4)
  have after := readInto_first layout unset
  rcases first : FileStream.readInto { content, pos := front.length }
    ((memory ans.length).bytes .size 4) with ⟨size, stream⟩
  rw [first] at start bytes after
  subst after
  rw [unset, show content.drop front.length = rest by rw [layout, List.drop_left]] at start
  rw [unset] at bytes
  simp only [scan, before, if_true, readInt, first]
  by_cases negative : decode size < 0
  · exact ⟨_, if_pos negative⟩
  rw [if_neg negative]
  have found := refused
    (FileStream.readInto
      { content, pos := front.length + min 4 rest.length, failed := rest.length < 4 }
      ((memory ans.length).bytes .buffer (decode size).toNat)).1 {
    small := by
      have below := (fits_decode size).2
      rw [FileStream.readInto_length, Memory.bytes_length]
      omega
    size := by
      rwa [FileStream.readInto_length, Memory.bytes_length, Int.toNat_of_nonneg (by omega),
        encode_decode bytes]
    payload := by
      rw [FileStream.readInto_length]
      by_cases short : rest.length < 4
      · simp [List.drop_eq_nil_of_le (Nat.le_of_lt short)]
      · rw [decide_eq_false short, ← drop_first layout]
        exact @FileStream.prefix_readInto { content, pos := front.length + min 4 rest.length } _
          rfl } (memory ans.length)
  exact ⟨_, by rw [found]⟩

/-- Variables that hold a payload and its size, with some bytes behind the buffer. -/
def holding (data behind : List UInt8) : Memory where
  unset
    | .size, place => (encode data.length).getD place 0
    | .buffer, place => data.getD place 0
    | _, _ => 0
  behind

theorem map_getD_range (bytes : List UInt8) :
    (List.range bytes.length).map (fun place => bytes.getD place 0) = bytes := by
  apply List.ext_getElem
  · simp
  · intro place _ within
    simp [within]

theorem holding_size : (holding data behind).bytes .size 4 = encode data.length :=
  map_getD_range (encode data.length)

theorem holding_buffer : (holding data behind).bytes .buffer data.length = data :=
  map_getD_range data

/-- A turn that reads a payload. -/
theorem scan_holding {stream : FileStream} (more : stream.tell < length)
    (small : data.length < 2 ^ 31)
    (accepted : codec.fromBuffer (holding data behind) data = some val)
    (size : (stream.readInto (encode data.length)).1 = encode data.length)
    (buffer : ((stream.readInto (encode data.length)).2.readInto data).1 = data) :
    scan codec (fun _ => holding data behind) length (turns + 1) stream ans =
      scan codec (fun _ => holding data behind) length turns
        (((stream.readInto (encode data.length)).2.readInto data).2.readInto
          ((holding data behind).bytes .size1 4)).2 (ans ++ [val]) := by
  have nonneg : ¬ (data.length : Int) < 0 := by omega
  simp only [scan, more, if_true, readInt, holding_size, size, decode_encode (fits_natCast small),
    nonneg, if_false, Int.toNat_natCast, holding_buffer, buffer, accepted]

/-- A stream that has failed never gets to the recorded length. -/
theorem scan_failed {stream : FileStream} (failed : stream.failed = true) (more : -1 < length)
    (small : data.length < 2 ^ 31)
    (accepted : codec.fromBuffer (holding data behind) data = some val) :
    scan codec (fun _ => holding data behind) length turns stream ans = none := by
  have before : stream.tell < length := by simpa [FileStream.tell, failed] using more
  induction turns generalizing ans with
  | zero => rfl
  | succ turns ih =>
      rw [scan_holding before small accepted] <;>
        simp only [FileStream.readInto_of_failed failed]
      exact ih

/-- The loop may go on forever when the file ends in a record that `deserialize` accepts. -/
theorem scan_forever (layout : content = front ++ rest) (more : front.length < length)
    (agrees : Agrees rest data) (accepted : codec.fromBuffer (holding data behind) data = some val)
    (truncated : rest.length < data.length + 8) :
    scan codec (fun _ => holding data behind) length turns { content, pos := front.length } ans =
      none := by
  have before : FileStream.tell { content, pos := front.length } < length := more
  have after := @readInto_first _ _ _ (encode data.length) layout encode_length
  have size := @FileStream.readInto_of_agrees { content, pos := front.length }
    (encode data.length) (by simpa [layout] using agrees.size)
  have buffer := @FileStream.readInto_of_agrees
    { content, pos := front.length + min 4 rest.length, failed := rest.length < 4 } data
    (by simpa only [drop_first layout] using agrees.payload)
  cases turns with
  | zero => rfl
  | succ turns =>
      rw [scan_holding before agrees.small accepted size (by rw [after]; exact buffer), after]
      refine scan_failed ?_ (by omega) agrees.small accepted
      by_cases noSize : rest.length < 4
      · rw [decide_eq_true noSize, FileStream.readInto_of_failed rfl,
          FileStream.readInto_of_failed rfl]
      have left : content.length - (front.length + min 4 rest.length) = rest.length - 4 := by
        rw [layout, List.length_append]
        omega
      have payload := @FileStream.readInto_stream
        { content, pos := front.length + min 4 rest.length } data rfl
      simp only [left] at payload
      rw [decide_eq_false noSize, payload]
      by_cases noPayload : rest.length - 4 < data.length
      · rw [decide_eq_true noPayload, FileStream.readInto_of_failed rfl]
      · rw [decide_eq_false noPayload, FileStream.readInto_stream rfl]
        simp only [Memory.bytes_length, decide_eq_true_eq]
        omega

/-! ## The header -/

theorem checkVar_of_registered {file : File} {name : String} {type : Int}
    (registered : file.vars name = some type) : file.checkVar name type = .ok () := by
  simp [checkVar, registered]

/-- `getVector` is the loop for the length that the file begins with. -/
theorem getVector_of_header {file : File} {name : String} {disk : Disk} {header : List UInt8}
    (registered : file.vars name = some FILE_VECTOR)
    (present : disk (fileName name) = some (header ++ rest)) (size : header.length = 4) :
    file.getVector codec name memory turns disk =
      scan codec memory (decode header) turns { content := header ++ rest, pos := header.length }
        [] := by
  have read := @FileStream.readInto_append { content := header ++ rest } header
    ((memory 0).bytes .length 4) rest [] rfl rfl rfl (by rw [Memory.bytes_length, size])
  simp only [getVector, checkVar_of_registered registered, present, readInt, read]
  simp

/-- `getVector` returns what the payloads up to the recorded length are read as. -/
theorem getVector_of_records {file : File} {name : String} {disk : Disk} {header : List UInt8}
    (registered : file.vars name = some FILE_VECTOR) (records : Records bytes datas)
    (present : disk (fileName name) = some (header ++ (bytes ++ rest))) (size : header.length = 4)
    (recorded : decode header = (4 + bytes.length : Nat)) (enough : datas.length < turns) :
    file.getVector codec name memory turns disk =
      some ((values codec memory 0 datas).elim (.error .archiveException) .ok) := by
  obtain ⟨extra, rfl⟩ := Nat.exists_eq_add_of_le enough
  rw [getVector_of_header registered present size, Nat.succ_add_eq_add_succ,
    scan_records records rfl (Int.le_of_eq (by rw [recorded, size])), recorded, size,
    List.length_nil]
  cases values codec memory 0 datas with
  | none => rfl
  | some vals => exact scan_done (Int.lt_irrefl _)

/-- When the header is not all there, the length may be negative. -/
theorem getVector_of_truncated {file : File} {name : String} {disk : Disk}
    (registered : file.vars name = some FILE_VECTOR)
    (present : disk (fileName name) = some content) (truncated : content.length < 4) :
    file.getVector codec name (fun _ => .filled 255) 1 disk = some (.ok []) := by
  have unset : (Memory.filled 255).bytes .length 4 = [255, 255, 255, 255] := rfl
  have negative := decode_negative truncated
  have got : content.take 4 = content := List.take_of_length_le (by omega)
  simp only [getVector, checkVar_of_registered registered, present, unset, readInt,
    FileStream.readInto, FileStream.read, Bool.false_eq_true, if_false, List.drop_zero,
    List.length_cons, List.length_nil, Nat.zero_add, Nat.reduceAdd, got, truncated, decide_true]
  apply scan_done
  simp only [FileStream.tell, if_true]
  omega

end File

end Quintet
