import QuintetRaft.Safety.FileCuts

/-!
# The format of a file

Which contents `getVector` refuses.  The second size of an element is compared with the first, but
nothing is thrown when they differ, and a stream that has failed is never noticed.
-/

namespace Quintet

open FourBytes

namespace File

variable {T : Type} {codec : Codec T} {file : File} {name : String} {disk : Disk}
  {length : Int} {front rest content data : List UInt8} {datas : List (List UInt8)}
  {xs ans : List T}

/-! ## Where the loop throws -/

/-- Behind some records, and before the recorded length, `deserialize` refuses every payload that
agrees with the bytes that are left, whatever stands behind the buffer. -/
def ComesToRefusal (codec : Codec T) (left : Int) (rest : List UInt8) : Prop :=
  ∃ passed remaining datas, rest = passed ++ remaining ∧ Records passed datas ∧
    passed.length < left ∧ ∀ data, Agrees remaining data → codec.Refuses data

theorem scan_of_comesToRefusal (layout : content = front ++ rest)
    (refusal : ComesToRefusal codec (length - front.length) rest) (memory : Nat → Memory) :
    ∃ turns error, scan codec memory length turns { content, pos := front.length } ans =
      some (.error error) := by
  obtain ⟨passed, remaining, datas, rfl, records, more, refused⟩ := refusal
  have loop := @scan_records _ codec memory length 1 _ front remaining passed datas ans records
    layout (by omega)
  cases read : values codec memory ans.length datas with
  | none => exact ⟨datas.length + 1, _, by rw [loop, read]; rfl⟩
  | some vals =>
      have layout' : content = (front ++ passed) ++ remaining := by rw [layout, List.append_assoc]
      obtain ⟨error, thrown⟩ := @scan_refused _ codec memory length 0 _ _ _ (ans ++ vals) layout'
        (by rw [List.length_append]; omega) refused
      refine ⟨datas.length + 1, error, ?_⟩
      rw [loop, read, Option.elim_some, ← List.length_append]
      exact thrown

/-- A record at the beginning of the bytes that are left. -/
theorem record_of_agrees (agrees : Agrees rest data) (whole : data.length + 8 ≤ rest.length) :
    ∃ second bytes, second.length = 4 ∧
      rest = encode data.length ++ (data ++ (second ++ bytes)) := by
  have size : rest.take 4 = encode data.length :=
    agrees.size.eq_of_length (by rw [List.length_take, encode_length]; omega)
  have payload : (rest.drop 4).take data.length = data :=
    agrees.payload.eq_of_length (by rw [List.length_take, List.length_drop]; omega)
  refine ⟨((rest.drop 4).drop data.length).take 4, ((rest.drop 4).drop data.length).drop 4, ?_, ?_⟩
  · rw [List.length_take, List.length_drop, List.length_drop]
    omega
  · rw [List.take_append_drop]
    nth_rewrite 2 [← payload]
    rw [List.take_append_drop, ← size, List.take_append_drop]

/-- The loop throws, whatever memory holds, only where it comes to a refusal. -/
theorem comesToRefusal_of_scan (layout : content = front ++ rest)
    (throws : ∀ memory, ∃ turns error,
      scan codec memory length turns { content, pos := front.length } ans = some (.error error)) :
    ComesToRefusal codec (length - front.length) rest := by
  obtain ⟨size, bound⟩ : ∃ size, rest.length = size := ⟨_, rfl⟩
  induction size using Nat.strong_induction_on generalizing front rest ans with
  | h size ih =>
      by_cases more : (front.length : Int) < length
      · by_cases refused : ∀ data, Agrees rest data → codec.Refuses data
        · exact ⟨[], rest, [], rfl, .nil, by rw [List.length_nil]; omega, refused⟩
        obtain ⟨data, memory, val, agrees, accepted⟩ := accepted_of_not_refused refused
        by_cases truncated : rest.length < data.length + 8
        · obtain ⟨turns, error, thrown⟩ := throws fun _ => holding data memory.behind
          rw [scan_forever layout more agrees accepted truncated] at thrown
          cases thrown
        obtain ⟨second, bytes, fourBytes, rfl⟩ := record_of_agrees agrees (by omega)
        obtain ⟨next, position, layout'⟩ := front_of_record layout fourBytes
        have later := @ih bytes.length
          (by rw [← bound]; simp only [List.length_append, encode_length]; omega)
          next bytes (ans ++ [val]) layout'
          (fun others => by
            -- This turn reads the payload with the bytes behind it with which it is accepted.
            obtain ⟨turns, error, thrown⟩ := throws (Function.update others ans.length memory)
            cases turns with
            | zero => cases thrown
            | succ turns =>
                rw [scan_record layout more agrees.small fourBytes, Function.update_self, accepted,
                  Option.elim_some, ← position, @scan_congr _ _ _ _ _ _ others] at thrown
                · exact ⟨turns, error, thrown⟩
                · intro turn reached
                  simp only [List.length_append, List.length_cons, List.length_nil] at reached
                  exact Function.update_of_ne (by omega) _ _) rfl
        obtain ⟨passed, remaining, datas, rfl, records, before, refused⟩ := later
        refine ⟨encode data.length ++ (data ++ (second ++ passed)), remaining, data :: datas, ?_,
          .cons agrees.small fourBytes records, ?_, refused⟩
        · simp only [List.append_assoc]
        · rw [position] at before
          simp only [List.length_append, encode_length, fourBytes]
          omega
      · obtain ⟨turns, error, thrown⟩ := throws fun _ => .filled 0
        have done := @scan_done _ codec (fun _ => .filled 0) length 0 ans
          { content, pos := front.length } more
        cases scan_unique thrown done

/-! ## `getVector` -/

/-- A content is the format of a vector, and its payloads are read as the values. -/
def Encodes (codec : Codec T) (memory : Nat → Memory) (content : List UInt8) (xs : List T) :
    Prop :=
  ∃ datas, Holds content datas ∧ values codec memory 0 datas = some xs

/-- `getVector` ends, whatever memory holds; it returns a vector when the content is the format of
a vector whose payloads are read as the values, and throws on every other content. -/
def AcceptsFormat (codec : Codec T) (file : File) (name : String) (disk : Disk)
    (content : List UInt8) : Prop :=
  ∀ memory, ∃ turns outcome, file.getVector codec name memory turns disk = some outcome ∧
    ∀ xs, outcome = .ok xs ↔ Encodes codec memory content xs

/-- The header is there, and behind it the loop comes to a refusal. -/
def RunsIntoRefusal (codec : Codec T) (content : List UInt8) : Prop :=
  ∃ header rest, content = header ++ rest ∧ header.length = 4 ∧
    ComesToRefusal codec (decode header - 4) rest

theorem getVector_of_encodes {memory : Nat → Memory}
    (registered : file.vars name = some FILE_VECTOR) (present : disk (fileName name) = some content)
    (encodes : Encodes codec memory content xs) :
    ∃ turns, file.getVector codec name memory turns disk = some (.ok xs) := by
  obtain ⟨datas, holds, read⟩ := encodes
  refine ⟨datas.length + 1, ?_⟩
  rw [getVector_of_stores registered ⟨content, present, holds⟩ memory (Nat.lt_succ_self _), read]
  rfl

theorem acceptsFormat_of_holds (registered : file.vars name = some FILE_VECTOR)
    (present : disk (fileName name) = some content) (holds : Holds content datas) :
    AcceptsFormat codec file name disk content := by
  intro memory
  have result := @getVector_of_stores _ codec _ _ _ _ registered ⟨content, present, holds⟩ memory _
    (Nat.lt_succ_self datas.length)
  refine ⟨datas.length + 1, _, result,
    fun xs => ⟨fun same => ⟨datas, holds, ?_⟩, fun encodes => ?_⟩⟩
  · cases read : values codec memory 0 datas with
    | none =>
        rw [read] at same
        cases same
    | some vals =>
        rw [read] at same
        exact congrArg some (Except.ok.inj same)
  · obtain ⟨turns, returned⟩ := getVector_of_encodes registered present encodes
    exact getVector_unique result returned

theorem acceptsFormat_of_refusal (registered : file.vars name = some FILE_VECTOR)
    (present : disk (fileName name) = some content) (refusal : RunsIntoRefusal codec content) :
    AcceptsFormat codec file name disk content := by
  intro memory
  obtain ⟨header, rest, rfl, size, refusal⟩ := refusal
  have here : ComesToRefusal codec (decode header - header.length) rest := by rwa [size]
  obtain ⟨turns, error, thrown⟩ :=
    @scan_of_comesToRefusal _ codec _ header rest _ [] rfl here memory
  rw [← getVector_of_header registered present size] at thrown
  refine ⟨turns, .error error, thrown, fun ys => ⟨fun same => (by cases same), fun encodes => ?_⟩⟩
  obtain ⟨turns', returned⟩ := getVector_of_encodes registered present encodes
  cases getVector_unique thrown returned

/-- `getVector` throws, whatever memory holds, only where it comes to a refusal. -/
theorem runsIntoRefusal_of_throws (registered : file.vars name = some FILE_VECTOR)
    (present : disk (fileName name) = some content)
    (throws : ∀ memory, ∃ turns error,
      file.getVector codec name memory turns disk = some (.error error)) :
    RunsIntoRefusal codec content := by
  by_cases truncated : content.length < 4
  · obtain ⟨turns, error, thrown⟩ := throws fun _ => .filled 255
    cases getVector_unique thrown (getVector_of_truncated registered present truncated)
  · have split : content = content.take 4 ++ content.drop 4 := (List.take_append_drop 4 _).symm
    have size : (content.take 4).length = 4 := by
      rw [List.length_take]
      omega
    refine ⟨content.take 4, content.drop 4, split, size, ?_⟩
    rw [split] at present
    have refusal := @comesToRefusal_of_scan _ codec (decode (content.take 4)) (content.take 4)
      (content.drop 4) _ [] rfl fun memory => by
        obtain ⟨turns, error, thrown⟩ := throws memory
        rw [getVector_of_header registered present size] at thrown
        exact ⟨turns, error, thrown⟩
    rwa [size] at refusal

/-- `getVector` checks the format just on well-formed contents, and where it comes to a refusal. -/
theorem acceptsFormat_iff (registered : file.vars name = some FILE_VECTOR)
    (present : disk (fileName name) = some content) :
    AcceptsFormat codec file name disk content ↔
      (∃ datas, Holds content datas) ∨ RunsIntoRefusal codec content := by
  constructor
  · intro accepts
    by_cases wellFormed : ∃ datas, Holds content datas
    · exact .inl wellFormed
    refine .inr (runsIntoRefusal_of_throws registered present fun memory => ?_)
    obtain ⟨turns, outcome, result, format⟩ := accepts memory
    cases outcome with
    | ok xs =>
        obtain ⟨datas, holds, -⟩ := (format xs).mp rfl
        exact absurd ⟨datas, holds⟩ wellFormed
    | error error => exact ⟨turns, error, result⟩
  · rintro (⟨datas, holds⟩ | refusal)
    · exact acceptsFormat_of_holds registered present holds
    · exact acceptsFormat_of_refusal registered present refusal

/-! ## `pop` -/

/-- The last record ends at the recorded length, and its two sizes differ.  It is found by the
second size, or by the first one behind the records before it. -/
def LastSizesDiffer (content : List UInt8) : Prop :=
  ∃ (front data stale : List UInt8) (size size1 : Int),
    content = encode ((front.length + (data.length + 12) : Nat) : Int) ++
      (front ++ (encode size1 ++ (data ++ (encode size ++ stale)))) ∧
    front.length + (data.length + 12) < 2 ^ 31 ∧ Fits size ∧ Fits size1 ∧ size ≠ size1 ∧
    (size = data.length ∨ size1 = data.length ∧ ∃ datas, Records front datas)

/-- `pop` throws and leaves the file unchanged when the sizes of the last record differ. -/
def PopChecks (file : File) (name : String) (disk : Disk) (content : List UInt8) : Prop :=
  LastSizesDiffer content → ∀ memory, (∃ error, file.pop name memory disk = .error error) ∧
    diskAfter name (popOperations name memory disk) disk = disk

/-- `pop` never throws on a file that exists. -/
theorem popChecks_iff (registered : file.vars name = some FILE_VECTOR)
    (present : disk (fileName name) = some content) :
    PopChecks file name disk content ↔ ¬ LastSizesDiffer content := by
  constructor
  · intro checks differ
    obtain ⟨⟨error, thrown⟩, -⟩ := checks differ (.filled 0)
    rw [pop_eq_operations _ registered present] at thrown
    cases thrown
  · exact fun same differ => absurd differ same

/-- A size tells where the payload behind it ends. -/
theorem payload_inj {first second left right : List UInt8} (small : first.length < 2 ^ 31)
    (otherSmall : second.length < 2 ^ 31)
    (same : encode first.length ++ (first ++ left) = encode second.length ++ (second ++ right)) :
    first = second ∧ left = right := by
  have sizes := List.append_inj same (by simp only [encode_length])
  have lengths : (first.length : Int) = second.length :=
    encode_injective (fits_natCast small) (fits_natCast otherSmall) sizes.1
  exact List.append_inj sizes.2 (by omega)

/-- Found by its second size, the last record has the same size before it. -/
theorem first_size_eq {size : Int} (small : (body datas).length < 2 ^ 31) (fits : Fits size)
    (whole : body datas = front ++ (encode size ++ (data ++ encode data.length))) :
    (data.length : Int) = size := by
  rcases List.eq_nil_or_concat' datas with rfl | ⟨before, last, rfl⟩
  · have empty := congrArg List.length whole
    simp [body] at empty
  · rw [body_concat, List.length_append, record_length] at small
    have split : (body before ++ (encode last.length ++ last)) ++ encode last.length =
        (front ++ (encode size ++ data)) ++ encode data.length := by
      rw [body_concat, record] at whole
      simpa only [List.append_assoc] using whole
    have ends := List.append_inj' split (by simp only [encode_length])
    have shorter : data.length < 2 ^ 31 := by
      have lengths := congrArg List.length ends.1
      simp only [List.length_append, encode_length] at lengths
      omega
    have lasts : (last.length : Int) = data.length :=
      encode_injective (fits_natCast (by omega)) (fits_natCast shorter) ends.2
    have records := List.append_inj' ends.1 (by
      simp only [List.length_append, encode_length]; omega)
    have firsts := List.append_inj records.2 (by simp only [encode_length])
    rw [← lasts]
    exact encode_injective (fits_natCast (by omega)) fits firsts.1

/-- Found behind the records before it, the last record has the same size behind it. -/
theorem second_size_eq {others : List (List UInt8)} {size : Int}
    (small : (body datas).length < 2 ^ 31) (fits : Fits size)
    (records : Records front others)
    (whole : body datas = front ++ (encode data.length ++ (data ++ encode size))) :
    (data.length : Int) = size := by
  have shorter : data.length < 2 ^ 31 := by
    rw [whole] at small
    simp only [List.length_append, encode_length] at small
    omega
  induction records generalizing datas with
  | nil =>
      cases datas with
      | nil => exact absurd (congrArg List.length whole) (by simp [body])
      | cons first datas =>
          rw [body_cons, List.length_append, record_length] at small
          rw [body_cons, record, List.append_assoc, List.append_assoc, List.nil_append] at whole
          obtain ⟨rfl, ends⟩ := payload_inj (by omega) shorter whole
          rw [← List.append_nil (encode size)] at ends
          exact encode_injective (fits_natCast shorter) fits
            (List.append_inj ends (by simp only [encode_length])).1
  | cons bound fourBytes _ ih =>
      cases datas with
      | nil => exact absurd (congrArg List.length whole) (by simp [body])
      | cons first datas =>
          rw [body_cons, List.length_append, record_length] at small
          rw [body_cons, record] at whole
          simp only [List.append_assoc] at whole
          obtain ⟨rfl, ends⟩ := payload_inj (by omega) bound whole
          exact ih (by omega) (List.append_inj ends (by rw [encode_length, fourBytes])).2

/-- In a well-formed file the sizes of the last record agree. -/
theorem not_lastSizesDiffer_of_holds (holds : Holds content datas) : ¬ LastSizesDiffer content := by
  rintro ⟨front, data, stale', size, size1, layout', small', fits, fits1, differ, found⟩
  have bodySmall := holds.body_small
  obtain ⟨small, stale, layout⟩ := holds
  have headers := List.append_inj (layout.symm.trans layout') (by simp only [encode_length])
  have lengths : ((recordedLength datas : Nat) : Int) = (front.length + (data.length + 12) : Nat) :=
    encode_injective (fits_natCast small) (fits_natCast small') headers.1
  have whole : body datas = front ++ (encode size1 ++ (data ++ encode size)) := by
    have same : body datas ++ stale =
        (front ++ (encode size1 ++ (data ++ encode size))) ++ stale' := by
      simpa only [List.append_assoc] using headers.2
    refine (List.append_inj same ?_).1
    simp only [recordedLength, List.length_append, encode_length] at lengths ⊢
    omega
  rcases found with rfl | ⟨rfl, others, records⟩
  · exact differ (first_size_eq bodySmall fits1 whole)
  · exact differ (second_size_eq bodySmall fits records whole).symm

/-! ## Both -/

/-- `getVector` and `pop` check the format just when the content is well-formed or the loop comes
to a refusal, and the sizes of the last record do not differ. -/
theorem checksFormat_iff (registered : file.vars name = some FILE_VECTOR)
    (present : disk (fileName name) = some content) :
    AcceptsFormat codec file name disk content ∧ PopChecks file name disk content ↔
      ((∃ datas, Holds content datas) ∨ RunsIntoRefusal codec content) ∧
        ¬ LastSizesDiffer content :=
  and_congr (acceptsFormat_iff registered present) (popChecks_iff registered present)

/-- The disk of a program with one vector. -/
def vectorDisk (content : List UInt8) : Disk :=
  store (fun _ => none) "vectorTest" { content }

theorem holds_true :
    Holds (encode 42 ++ body [boolCodec.serialize true]) [boolCodec.serialize true] where
  small := by decide
  layout := ⟨[], by rw [List.append_nil]; rfl⟩

theorem checksFormat_vectorTest :
    AcceptsFormat boolCodec oneVector "vectorTest"
        (vectorDisk (encode 42 ++ body [boolCodec.serialize true]))
        (encode 42 ++ body [boolCodec.serialize true]) ∧
      PopChecks oneVector "vectorTest"
        (vectorDisk (encode 42 ++ body [boolCodec.serialize true]))
        (encode 42 ++ body [boolCodec.serialize true]) :=
  (checksFormat_iff (by simp [oneVector]) (store_fileName _ _ _)).mpr
    ⟨.inl ⟨_, holds_true⟩, not_lastSizesDiffer_of_holds holds_true⟩

/-- A file with one element, the second size of which is off by one. -/
def damaged : List UInt8 :=
  encode 42 ++ (encode 30 ++ (boolCodec.serialize true ++ (encode 31 ++ [])))

theorem listed_damaged : Listed damaged 42 [boolCodec.serialize true] where
  small := by decide
  layout := ⟨_, [], @Records.cons (boolCodec.serialize true) _ _ _ (by decide) encode_length .nil,
    rfl, rfl⟩

theorem lastSizesDiffer_damaged : LastSizesDiffer damaged := by
  refine ⟨[], boolCodec.serialize true, [], 31, 30, rfl, by decide, ?_, ?_, by decide,
    .inr ⟨rfl, [], .nil⟩⟩
  · unfold Fits
    omega
  · unfold Fits
    omega

/-- `getVector` returns a vector from a damaged file, and `pop` does not notice either. -/
theorem not_checksFormat_damaged :
    ¬ AcceptsFormat boolCodec oneVector "vectorTest" (vectorDisk damaged) damaged ∧
      ¬ PopChecks oneVector "vectorTest" (vectorDisk damaged) damaged := by
  have registered : oneVector.vars "vectorTest" = some FILE_VECTOR := by simp [oneVector]
  have present : vectorDisk damaged (fileName "vectorTest") = some damaged := store_fileName _ _ _
  constructor
  · intro accepts
    obtain ⟨turns, outcome, result, format⟩ := accepts fun _ => .filled 0
    have read : oneVector.getVector boolCodec "vectorTest" (fun _ => .filled 0) 2
        (vectorDisk damaged) = some (.ok [true]) :=
      (listed_damaged.getVector registered present _).trans rfl
    obtain ⟨datas, holds, -⟩ := (format [true]).mp (getVector_unique result read)
    exact not_lastSizesDiffer_of_holds holds lastSizesDiffer_damaged
  · rw [popChecks_iff registered present, not_not]
    exact lastSizesDiffer_damaged

end File

end Quintet
