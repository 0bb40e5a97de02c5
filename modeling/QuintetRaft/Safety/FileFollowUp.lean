import QuintetRaft.Safety.FileVectors

/-!
# Calls on what a file has come to hold

What `getVector` and `append` make of any file that begins with records, whatever has written
them.  The size of an element is written with 32 bits: an element that is too large passes for one
with fewer bytes.
-/

namespace Quintet

open FourBytes

namespace File

variable {T : Type} {codec : Codec T} {file : File} {name : String} {disk : Disk}
  {bytes content data : List UInt8} {datas : List (List UInt8)} {length : Nat} {val : T}
  {xs : List T}

/-! ## `getVector` -/

/-- `getVector` returns the list, whatever uninitialised variables hold. -/
def Gives (codec : Codec T) (file : File) (name : String) (disk : Disk) (xs : List T) : Prop :=
  ∀ memory, ∃ turns, file.getVector codec name memory turns disk = some (.ok xs)

theorem getVector_unique {memory : Nat → Memory} {left right : Nat}
    {outcome other : Except FileError (List T)}
    (result : file.getVector codec name memory left disk = some outcome)
    (second : file.getVector codec name memory right disk = some other) : outcome = other := by
  unfold getVector at result second
  split at result <;> rename_i checked
  · rw [checked] at second
    exact (Option.some.inj result).symm.trans (Option.some.inj second)
  · rw [checked] at second
    split at result <;> rename_i found
    · rw [found] at second
      exact (Option.some.inj result).symm.trans (Option.some.inj second)
    · rw [found] at second
      exact scan_unique result second

theorem gives_unique {ys : List T} (gives : Gives codec file name disk xs)
    (second : Gives codec file name disk ys) : xs = ys := by
  obtain ⟨turns, result⟩ := gives fun _ => .filled 0
  obtain ⟨turns', other⟩ := second fun _ => .filled 0
  exact Except.ok.inj (getVector_unique result other)

/-- A content with records of some payloads, up to the recorded length. -/
structure Listed (content : List UInt8) (length : Nat) (datas : List (List UInt8)) : Prop where
  /-- The length fits. -/
  small : length < 2 ^ 31
  /-- The records stand behind the length. -/
  layout : ∃ bytes stale, Records bytes datas ∧ length = 4 + bytes.length ∧
    content = encode length ++ (bytes ++ stale)

theorem listed_of_holds (holds : Holds content datas) :
    Listed content (recordedLength datas) datas where
  small := holds.small
  layout := by
    obtain ⟨stale, layout⟩ := holds.layout
    exact ⟨body datas, stale, records_body holds.body_small, rfl, layout⟩

theorem Listed.getVector (registered : file.vars name = some FILE_VECTOR)
    (present : disk (fileName name) = some content) (listed : Listed content length datas)
    (memory : Nat → Memory) :
    file.getVector codec name memory (datas.length + 1) disk =
      some ((values codec memory 0 datas).elim (.error .archiveException) .ok) := by
  obtain ⟨bytes, stale, records, upTo, layout⟩ := listed.layout
  rw [layout] at present
  refine getVector_of_records registered records present encode_length ?_ (Nat.lt_succ_self _)
  rw [decode_encode (fits_natCast listed.small), upTo]

/-- `getVector` returns the values that the payloads are read as in every memory. -/
theorem Listed.gives_iff (registered : file.vars name = some FILE_VECTOR)
    (present : disk (fileName name) = some content) (listed : Listed content length datas) :
    Gives codec file name disk xs ↔ List.Forall₂ codec.Reads datas xs := by
  constructor
  · intro gives
    refine @reads_of_values _ _ _ _ 0 fun memory => ?_
    obtain ⟨turns, result⟩ := gives memory
    have same := getVector_unique (listed.getVector registered present memory) result
    cases read : values codec memory 0 datas with
    | none =>
        rw [read] at same
        cases same
    | some vals =>
        rw [read] at same
        rw [Except.ok.inj same]
  · intro accepted memory
    refine ⟨_, (listed.getVector registered present memory).trans ?_⟩
    rw [values_of_reads accepted]
    rfl

/-- Counted in 32 bits, the length with the element of a value ends behind bytes of this element
that are read as the value. -/
def ReadsBack (codec : Codec T) (length : Int) (val : T) : Prop :=
  ∃ data, data <+: codec.serialize val ∧ codec.Reads data val ∧
    wrap (length + ((codec.serialize val).length + 8)) = length + (data.length + 8)

/-- A value whose bytes are read as the value is read back as long as the length stays small. -/
theorem readsBack_of_small (reads : codec.Reads (codec.serialize val) val)
    (small : length + ((codec.serialize val).length + 8) < 2 ^ 31) :
    ReadsBack codec length val := by
  refine ⟨codec.serialize val, List.prefix_refl _, reads, wrap_of_fits ?_⟩
  unfold Fits
  omega

/-- An element whose size has more than 32 bits passes for one with a part of the bytes. -/
theorem record_of_wrap {shorter : List UInt8} (part : shorter <+: data)
    (wrapped : wrap (data.length : Int) = shorter.length) (stale : List UInt8) :
    ∃ second rest, second.length = 4 ∧
      record data ++ stale = encode shorter.length ++ (shorter ++ (second ++ rest)) := by
  obtain ⟨tail, rfl⟩ := part
  have sizes : encode ((shorter ++ tail).length : Int) = encode (shorter.length : Int) := by
    rw [← encode_wrap, wrapped]
  refine ⟨(tail ++ (encode (shorter.length : Int) ++ stale)).take 4,
    (tail ++ (encode (shorter.length : Int) ++ stale)).drop 4, ?_, ?_⟩
  · simp only [List.length_take, List.length_append, encode_length]
    omega
  · rw [List.take_append_drop, record, sizes]
    simp only [List.append_assoc]

/-- Only parts of an element agree with it. -/
theorem agrees_element {element stale : List UInt8}
    (agrees : Agrees (record element ++ stale) data) :
    data <+: element ∧ wrap (element.length : Int) = data.length := by
  obtain ⟨small, start, payload⟩ := agrees
  have left : record element ++ stale =
      encode (element.length : Int) ++ (element ++ (encode (element.length : Int) ++ stale)) := by
    simp only [record, List.append_assoc]
  rw [left, List.take_left' encode_length] at start
  rw [left, List.drop_left' encode_length] at payload
  have wrapped : wrap (element.length : Int) = data.length := by
    rw [← decode_encode_wrap, start.eq_of_length (by rw [encode_length, encode_length]),
      decode_encode (fits_natCast small)]
  have shorter : data.length ≤ element.length := by
    unfold wrap at wrapped
    omega
  rw [List.take_append_of_le_length shorter] at payload
  refine ⟨?_, wrapped⟩
  rw [← payload.eq_of_length (by rw [List.length_take]; omega)]
  exact List.take_prefix _ _

/-- The loop behind a list, when it returns one more value. -/
theorem Gives.behind {header rest : List UInt8} (registered : file.vars name = some FILE_VECTOR)
    (records : Records bytes datas) (lengths : datas.length = xs.length) (size : header.length = 4)
    (present : disk (fileName name) = some (header ++ (bytes ++ rest)))
    (gives : Gives codec file name disk (xs ++ [val])) :
    ((header ++ bytes).length : Int) < decode header ∧ List.Forall₂ codec.Reads datas xs ∧
      ∀ memory turns outcome, scan codec memory (decode header) turns
        { content := header ++ (bytes ++ rest), pos := (header ++ bytes).length } xs =
          some outcome → outcome = .ok (xs ++ [val]) := by
  have loop : ∀ memory, ∃ turns, scan codec memory (decode header) turns
      { content := header ++ (bytes ++ rest), pos := header.length } [] =
        some (.ok (xs ++ [val])) := by
    intro memory
    obtain ⟨turns, result⟩ := gives memory
    rw [getVector_of_header registered present size] at result
    exact ⟨turns, result⟩
  have more : ((header.length + bytes.length : Nat) : Int) < decode header := by
    by_contra short
    obtain ⟨turns, outcome, other, bounded⟩ := @scan_records_short _ codec (fun _ => .filled 0)
      (decode header) _ header rest bytes datas [] records rfl (by omega)
    obtain ⟨turns', result⟩ := loop fun _ => .filled 0
    have bound := bounded _ (scan_unique other result)
    simp only [List.length_append, List.length_cons, List.length_nil] at bound
    omega
  have all : ∀ memory turns, values codec memory 0 datas = some xs ∧
      ∀ outcome, scan codec memory (decode header) turns
        { content := header ++ (bytes ++ rest), pos := header.length + bytes.length } xs =
          some outcome → outcome = .ok (xs ++ [val]) := by
    intro memory turns
    obtain ⟨turns', result⟩ := loop memory
    have part := fun turns => @scan_records _ codec memory (decode header) turns _ header rest bytes
      datas [] records rfl (by omega)
    rw [List.length_nil] at part
    cases read : values codec memory 0 datas with
    | none =>
        have thrown := part 0
        rw [read, Option.elim_none] at thrown
        cases scan_unique thrown result
    | some vals =>
        simp only [read, Option.elim_some, List.nil_append] at part
        have same : vals = xs := by
          have longer := scan_add datas.length result
          rw [Nat.add_comm, part turns'] at longer
          have start := List.prefix_of_prefix_length_le (prefix_of_scan longer)
            (List.prefix_append xs [val]) (by rw [values_length read, lengths])
          exact start.eq_of_length (by rw [values_length read, lengths])
        subst same
        exact ⟨rfl, fun outcome next => scan_unique (by rw [part turns, next]) result⟩
  rw [List.length_append]
  exact ⟨more, reads_of_values fun memory => (all memory 0).1,
    fun memory turns => (all memory turns).2⟩

/-- The list that is read behind an `append` ends with the value only when its element is read
back. -/
theorem readsBack_of_gives {header stale : List UInt8}
    (registered : file.vars name = some FILE_VECTOR) (records : Records bytes datas)
    (lengths : datas.length = xs.length) (size : header.length = 4)
    (upTo : length = 4 + bytes.length) (small : length < 2 ^ 31)
    (recorded : decode header = wrap ((length + ((codec.serialize val).length + 8) : Nat) : Int))
    (present : disk (fileName name) =
      some (header ++ (bytes ++ (record (codec.serialize val) ++ stale))))
    (gives : Gives codec file name disk (xs ++ [val])) :
    List.Forall₂ codec.Reads datas xs ∧ ReadsBack codec length val := by
  obtain ⟨more, accepted, behind⟩ := gives.behind registered records lengths size present
  refine ⟨accepted, ?_⟩
  have position : (header ++ bytes).length = length := by
    rw [List.length_append, size, upTo]
  have layout : header ++ (bytes ++ (record (codec.serialize val) ++ stale)) =
      (header ++ bytes) ++ (record (codec.serialize val) ++ stale) :=
    (List.append_assoc _ _ _).symm
  obtain ⟨data, -, -, agrees, -⟩ := accepted_of_not_refused fun refused => by
    obtain ⟨error, thrown⟩ :=
      @scan_refused _ codec (fun _ => .filled 0) _ 0 _ _ _ xs layout more refused
    cases behind (fun _ => .filled 0) 1 _ thrown
  obtain ⟨part, wrapped⟩ := agrees_element agrees
  have same : wrap ((length + ((codec.serialize val).length + 8) : Nat) : Int) =
      (length + (data.length + 8) : Nat) := by
    rw [recorded, position] at more
    unfold wrap at more wrapped ⊢
    omega
  obtain ⟨second, rest, fourBytes, layout'⟩ := record_of_wrap part wrapped stale
  refine ⟨data, part, fun memory => ?_, same⟩
  have turn := @scan_record _ codec (fun _ => memory) (decode header) 1 _ (header ++ bytes) rest
    data second xs (layout.trans (congrArg _ layout')) more agrees.small fourBytes
  have done : ¬ FileStream.tell
      { content := header ++ (bytes ++ (record (codec.serialize val) ++ stale)),
        pos := (header ++ bytes).length + (data.length + 8) } < decode header := by
    rw [position, recorded, same]
    exact Int.lt_irrefl _
  cases read : codec.fromBuffer memory data with
  | none =>
      rw [read, Option.elim_none] at turn
      cases behind (fun _ => memory) 2 _ turn
  | some found =>
      rw [read, Option.elim_some, scan_done done] at turn
      have last := behind (fun _ => memory) 2 _ turn
      simp only [Except.ok.injEq, List.append_cancel_left_eq, List.cons.injEq, and_true] at last
      rw [last]

theorem listed_of_readsBack {length : Nat} (records : Records bytes datas)
    (upTo : length = 4 + bytes.length) (readsBack : ReadsBack codec length val)
    (stale : List UInt8) :
    ∃ (longer : Nat) (data : List UInt8),
      (longer : Int) = wrap (length + ((codec.serialize val).length + 8)) ∧
      codec.Reads data val ∧
      Listed (encode ((length + ((codec.serialize val).length + 8) : Nat) : Int) ++
        (bytes ++ (record (codec.serialize val) ++ stale))) longer (datas ++ [data]) := by
  obtain ⟨data, part, accepted, same⟩ := readsBack
  have below := (fits_wrap ((length : Int) + ((codec.serialize val).length + 8))).2
  rw [same] at below
  have wrapped : wrap ((codec.serialize val).length : Int) = data.length := by
    unfold wrap at same ⊢
    omega
  obtain ⟨second, rest, size, layout⟩ := record_of_wrap part wrapped stale
  refine ⟨length + (data.length + 8), data, same.symm, accepted, by omega, bytes ++
    (encode data.length ++ (data ++ (second ++ []))), rest, records.append ?_, ?_, ?_⟩
  · exact .cons (by omega) size .nil
  · simp only [List.length_append, encode_length, List.length_nil, size]
    omega
  · have grown : ((length + (data.length + 8) : Nat) : Int) =
        wrap ((length + ((codec.serialize val).length + 8) : Nat) : Int) := by
      exact same.symm
    rw [layout, grown, encode_wrap]
    simp only [List.append_assoc, List.nil_append]

/-! ## `append` -/

/-- The next `append` finds records of some payloads, up to a recorded length. -/
def Rests (name : String) (disk : Disk) (length : Nat) (datas : List (List UInt8)) : Prop :=
  ∃ content, openAppend name disk = ((length : Int), { content, pos := 4 }) ∧
    Listed content length datas

theorem rests_of_absent (absent : disk (fileName name) = none) :
    Rests name disk (recordedLength []) [] :=
  ⟨encode 4, openAppend_of_absent absent, listed_of_holds holds_nil⟩

theorem rests_of_present (present : disk (fileName name) = some content)
    (listed : Listed content length datas) : Rests name disk length datas := by
  refine ⟨content, ?_, listed⟩
  obtain ⟨bytes, stale, _, _, layout⟩ := listed.layout
  simp only [openAppend, present]
  exact readInt_append [] rfl layout rfl (fits_natCast listed.small) encode_length

theorem append_of_rests (codec : Codec T) (val : T)
    (registered : file.vars name = some FILE_VECTOR) (rests : Rests name disk length datas)
    (lengths : datas.length = xs.length) :
    ∃ after, file.append codec name val disk = .ok after ∧
      (Gives codec file name after (xs ++ [val]) →
        List.Forall₂ codec.Reads datas xs ∧ ReadsBack codec length val) ∧
      (ReadsBack codec length val → ∃ content, after (fileName name) = some content ∧
        ∃ (longer : Nat) (data : List UInt8),
          (longer : Int) = wrap (length + ((codec.serialize val).length + 8)) ∧
          codec.Reads data val ∧ Listed content longer (datas ++ [data])) := by
  obtain ⟨content, opened, small, bytes, stale, records, upTo, layout⟩ := rests
  rw [layout] at opened
  obtain ⟨after, stale', made, found⟩ :=
    append_content codec val registered opened encode_length upTo
  exact ⟨after, made,
    fun gives => readsBack_of_gives registered records lengths encode_length upTo small
      (decode_encode_wrap _) found gives,
    fun readsBack => ⟨_, found, listed_of_readsBack records upTo readsBack stale'⟩⟩

/-- Behind a header that is not all there, `append` writes nothing. -/
theorem append_of_truncated {after : Disk} (registered : file.vars name = some FILE_VECTOR)
    (present : disk (fileName name) = some content) (truncated : content.length < 4)
    (made : file.append codec name val disk = .ok after) :
    after (fileName name) = some content := by
  have opened : (openAppend name disk).2.failed = true ∧
      (openAppend name disk).2.content = content := by
    simp [openAppend, present, readInt, FileStream.readInto, FileStream.read]
    omega
  simp only [append, checkVar_of_registered registered, FileStream.seek_of_failed opened.1,
    FileStream.write_of_failed opened.1] at made
  cases made
  rw [store_fileName, opened.2]

end File

end Quintet
