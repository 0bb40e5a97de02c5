import QuintetRaft.Library.WireTexts
import QuintetRaft.Model.Conversion

/-!
# Messages on the wire

Each generated class writes, counts, reads and merges the same fields, so that its messages are
read back, whoever has written them and in whatever order, unless a string is not UTF-8.
-/

namespace Quintet

namespace Rpc

open WireFormat

variable {runtime : Runtime}

section Fields

variable (lawful : runtime.Lawful) {M : Type} {number tag : ℕ}

include lawful

theorem uint64Field_lawful (tagged : Tagged number 0 tag) {get : M → UInt64}
    {set : UInt64 → M → M} (place : Place.Lawful ⟨get, set⟩) :
    (uint64Field runtime number tag get set).Lawful runtime.coding :=
  ⟨singular_lawful lawful.uint64, tagged, place⟩

theorem uint32Field_lawful (tagged : Tagged number 0 tag) {get : M → UInt32}
    {set : UInt32 → M → M} (place : Place.Lawful ⟨get, set⟩) :
    (uint32Field runtime number tag get set).Lawful runtime.coding :=
  ⟨singular_lawful lawful.uint32, tagged, place⟩

theorem stringField_lawful (tagged : Tagged number 2 tag) {get : M → ByteString}
    {set : ByteString → M → M} (place : Place.Lawful ⟨get, set⟩) :
    (stringField runtime number tag get set).Lawful runtime.coding :=
  ⟨singular_lawful lawful.string, tagged, place⟩

/-- The byte that is counted for a truth value is the one that is written. -/
theorem boolField_lawful (tagged : Tagged number 0 tag) {get : M → Bool} {set : Bool → M → M}
    (place : Place.Lawful ⟨get, set⟩) :
    (boolField runtime number tag get set).Lawful runtime.coding := by
  have size : ∀ value, runtime.bool.size value < sizeLimit := fun value => by
    rw [lawful.size_bool]
    decide
  have scalar : Scalar.Lawful { runtime.bool with size := fun _ => 1 } :=
    { length_write := fun value => (lawful.bool.length_write value).trans (lawful.size_bool value)
      read_write := fun value rest _ => lawful.bool.read_write value rest (size value)
      refuses := fun value rest _ => lawful.bool.refuses value rest (size value)
      read_valid := lawful.bool.read_valid
      read_shrinks := lawful.bool.read_shrinks }
  exact ⟨singular_lawful scalar, tagged, place⟩

theorem nestedField_lawful {N : Type} {messages : MessageClass N}
    (kept : messages.Lawful runtime.coding) (tagged : Tagged number 2 tag) {get : M → Option N}
    {set : Option N → M → M} (place : Place.Lawful ⟨get, set⟩) :
    (nestedField runtime number tag messages get set).Lawful runtime.coding :=
  ⟨nested_lawful lawful.coding kept, tagged, place⟩

theorem repeatedField_lawful {N : Type} {messages : MessageClass N}
    (kept : messages.Lawful runtime.coding) (tagged : Tagged number 2 tag) {get : M → List N}
    {set : List N → M → M} (place : Place.Lawful ⟨get, set⟩) :
    (repeatedField runtime number tag messages get set).Lawful runtime.coding :=
  ⟨repeated_lawful lawful.coding kept, tagged, place⟩

end Fields

/-- Strings in UTF-8 can be read, the empty one among them. -/
theorem string_valid_iff {text : ByteString} :
    (singular runtime.string 2 {}).Valid text ↔ text.IsUtf8 := by
  refine ⟨fun valid => ?_, fun valid _ => valid⟩
  by_cases empty : text = {}
  · rw [empty]
    decide
  · exact valid empty

/-- The identifier that a server writes. -/
theorem isText_iff {id : ServerId} :
    (∀ pb ∈ some (convertServerId id), pb.addr.IsUtf8) ↔ id.IsText :=
  ⟨fun all => all _ rfl, fun text _ same => Option.some.inj same ▸ text⟩

section Classes

variable (lawful : runtime.Lawful)

include lawful

theorem PbReply.layout_lawful : (PbReply.layout runtime).Lawful runtime.coding where
  codes := lawful.coding
  each := by
    simp only [layout, fields, List.forall_mem_cons, List.not_mem_nil, false_imp_iff,
      implies_true, and_true]
    refine ⟨uint64Field_lawful lawful (by decide) ?_, boolField_lawful lawful (by decide) ?_⟩
    all_goals exact ⟨fun _ _ => rfl, fun _ => rfl, fun _ _ _ => rfl⟩
  distinct := show [1, 2].Nodup by decide
  apart := by
    simp only [layout, fields, List.pairwise_cons, List.forall_mem_cons, List.not_mem_nil,
      false_imp_iff, implies_true, List.Pairwise.nil, and_true]
    exact ⟨fun _ _ => rfl, fun _ _ => rfl⟩
  unknown := ⟨fun _ _ => rfl, fun _ => rfl, fun _ _ _ => rfl⟩
  aside := by
    simp only [layout, fields, List.forall_mem_cons, List.not_mem_nil, false_imp_iff,
      implies_true, and_true]
    and_intros
    all_goals exact ⟨fun _ _ => rfl, fun _ _ => rfl⟩
  ext msg other known unknown := by
    simp only [layout, fields, List.forall_mem_cons] at known
    obtain ⟨term, ans, -⟩ := known
    exact PbReply.ext term ans unknown

theorem PbReply.fielded :
    (PbReply.messages runtime).Fielded runtime.coding (PbReply.layout runtime) where
  layout_lawful := PbReply.layout_lawful lawful
  get_empty := by
    simp only [layout, fields, List.forall_mem_cons, List.not_mem_nil, false_imp_iff,
      implies_true, and_true]
    and_intros
    all_goals rfl
  unknown_empty := rfl
  mergePartial_eq := rfl
  serialize_eq := rfl
  byteSize_eq := ⟨_, .refl _, rfl⟩
  mergeFrom_eq := ⟨_, .refl _, rfl⟩
  valid_eq := rfl
  whole_eq := rfl

theorem PbServerId.layout_lawful : (PbServerId.layout runtime).Lawful runtime.coding where
  codes := lawful.coding
  each := by
    simp only [layout, fields, List.forall_mem_cons, List.not_mem_nil, false_imp_iff,
      implies_true, and_true]
    refine ⟨stringField_lawful lawful (by decide) ?_, uint32Field_lawful lawful (by decide) ?_⟩
    all_goals exact ⟨fun _ _ => rfl, fun _ => rfl, fun _ _ _ => rfl⟩
  distinct := show [1, 2].Nodup by decide
  apart := by
    simp only [layout, fields, List.pairwise_cons, List.forall_mem_cons, List.not_mem_nil,
      false_imp_iff, implies_true, List.Pairwise.nil, and_true]
    exact ⟨fun _ _ => rfl, fun _ _ => rfl⟩
  unknown := ⟨fun _ _ => rfl, fun _ => rfl, fun _ _ _ => rfl⟩
  aside := by
    simp only [layout, fields, List.forall_mem_cons, List.not_mem_nil, false_imp_iff,
      implies_true, and_true]
    and_intros
    all_goals exact ⟨fun _ _ => rfl, fun _ _ => rfl⟩
  ext msg other known unknown := by
    simp only [layout, fields, List.forall_mem_cons] at known
    obtain ⟨addr, port, -⟩ := known
    exact PbServerId.ext addr port unknown

theorem PbServerId.fielded :
    (PbServerId.messages runtime).Fielded runtime.coding (PbServerId.layout runtime) where
  layout_lawful := PbServerId.layout_lawful lawful
  get_empty := by
    simp only [layout, fields, List.forall_mem_cons, List.not_mem_nil, false_imp_iff,
      implies_true, and_true]
    and_intros
    all_goals rfl
  unknown_empty := rfl
  mergePartial_eq := rfl
  serialize_eq := rfl
  byteSize_eq := ⟨_, .refl _, rfl⟩
  mergeFrom_eq := ⟨_, .refl _, rfl⟩
  valid_eq := rfl
  whole_eq := rfl

theorem PbLogEntry.layout_lawful : (PbLogEntry.layout runtime).Lawful runtime.coding where
  codes := lawful.coding
  each := by
    simp only [layout, fields, List.forall_mem_cons, List.not_mem_nil, false_imp_iff,
      implies_true, and_true]
    refine ⟨uint64Field_lawful lawful (by decide) ?_, stringField_lawful lawful (by decide) ?_,
      stringField_lawful lawful (by decide) ?_, uint64Field_lawful lawful (by decide) ?_,
      nestedField_lawful lawful (PbServerId.fielded lawful).lawful (by decide) ?_⟩
    all_goals exact ⟨fun _ _ => rfl, fun _ => rfl, fun _ _ _ => rfl⟩
  distinct := show [1, 2, 3, 4, 5].Nodup by decide
  apart := by
    simp only [layout, fields, List.pairwise_cons, List.forall_mem_cons, List.not_mem_nil,
      false_imp_iff, implies_true, List.Pairwise.nil, and_true]
    and_intros
    all_goals exact ⟨fun _ _ => rfl, fun _ _ => rfl⟩
  unknown := ⟨fun _ _ => rfl, fun _ => rfl, fun _ _ _ => rfl⟩
  aside := by
    simp only [layout, fields, List.forall_mem_cons, List.not_mem_nil, false_imp_iff,
      implies_true, and_true]
    and_intros
    all_goals exact ⟨fun _ _ => rfl, fun _ _ => rfl⟩
  ext msg other known unknown := by
    simp only [layout, fields, List.forall_mem_cons] at known
    obtain ⟨term, opName, args, prmIdx, srvId, -⟩ := known
    exact PbLogEntry.ext term opName args prmIdx srvId unknown

theorem PbLogEntry.fielded :
    (PbLogEntry.messages runtime).Fielded runtime.coding (PbLogEntry.layout runtime) where
  layout_lawful := PbLogEntry.layout_lawful lawful
  get_empty := by
    simp only [layout, fields, List.forall_mem_cons, List.not_mem_nil, false_imp_iff,
      implies_true, and_true]
    and_intros
    all_goals rfl
  unknown_empty := rfl
  mergePartial_eq := rfl
  serialize_eq := rfl
  byteSize_eq := ⟨_, perm_places _ (show [1, 2, 4, 0, 3].Perm (List.range 5) by decide), rfl⟩
  mergeFrom_eq := ⟨_, perm_places _ (show [1, 2, 4, 0, 3].Perm (List.range 5) by decide), rfl⟩
  valid_eq := rfl
  whole_eq := rfl

theorem PbAppendEntriesMessage.layout_lawful :
    (PbAppendEntriesMessage.layout runtime).Lawful runtime.coding where
  codes := lawful.coding
  each := by
    simp only [layout, fields, List.forall_mem_cons, List.not_mem_nil, false_imp_iff,
      implies_true, and_true]
    refine ⟨uint64Field_lawful lawful (by decide) ?_,
      nestedField_lawful lawful (PbServerId.fielded lawful).lawful (by decide) ?_,
      uint64Field_lawful lawful (by decide) ?_, uint64Field_lawful lawful (by decide) ?_,
      repeatedField_lawful lawful (PbLogEntry.fielded lawful).lawful (by decide) ?_,
      uint64Field_lawful lawful (by decide) ?_⟩
    all_goals exact ⟨fun _ _ => rfl, fun _ => rfl, fun _ _ _ => rfl⟩
  distinct := show [1, 2, 3, 4, 5, 6].Nodup by decide
  apart := by
    simp only [layout, fields, List.pairwise_cons, List.forall_mem_cons, List.not_mem_nil,
      false_imp_iff, implies_true, List.Pairwise.nil, and_true]
    and_intros
    all_goals exact ⟨fun _ _ => rfl, fun _ _ => rfl⟩
  unknown := ⟨fun _ _ => rfl, fun _ => rfl, fun _ _ _ => rfl⟩
  aside := by
    simp only [layout, fields, List.forall_mem_cons, List.not_mem_nil, false_imp_iff,
      implies_true, and_true]
    and_intros
    all_goals exact ⟨fun _ _ => rfl, fun _ _ => rfl⟩
  ext msg other known unknown := by
    simp only [layout, fields, List.forall_mem_cons] at known
    obtain ⟨term, leaderId, prevLogIdx, prevLogTerm, logEntries, commitIdx, -⟩ := known
    exact PbAppendEntriesMessage.ext term leaderId prevLogIdx prevLogTerm logEntries commitIdx
      unknown

theorem PbAppendEntriesMessage.fielded :
    (PbAppendEntriesMessage.messages runtime).Fielded runtime.coding
      (PbAppendEntriesMessage.layout runtime) where
  layout_lawful := PbAppendEntriesMessage.layout_lawful lawful
  get_empty := by
    simp only [layout, fields, List.forall_mem_cons, List.not_mem_nil, false_imp_iff,
      implies_true, and_true]
    and_intros
    all_goals rfl
  unknown_empty := rfl
  mergePartial_eq := rfl
  serialize_eq := rfl
  byteSize_eq := ⟨_, perm_places _ (show [4, 1, 0, 2, 3, 5].Perm (List.range 6) by decide), rfl⟩
  mergeFrom_eq := ⟨_, perm_places _ (show [4, 1, 0, 2, 3, 5].Perm (List.range 6) by decide), rfl⟩
  valid_eq := rfl
  whole_eq := rfl

theorem PbRequestVoteMessage.layout_lawful :
    (PbRequestVoteMessage.layout runtime).Lawful runtime.coding where
  codes := lawful.coding
  each := by
    simp only [layout, fields, List.forall_mem_cons, List.not_mem_nil, false_imp_iff,
      implies_true, and_true]
    refine ⟨uint64Field_lawful lawful (by decide) ?_,
      nestedField_lawful lawful (PbServerId.fielded lawful).lawful (by decide) ?_,
      uint64Field_lawful lawful (by decide) ?_, uint64Field_lawful lawful (by decide) ?_⟩
    all_goals exact ⟨fun _ _ => rfl, fun _ => rfl, fun _ _ _ => rfl⟩
  distinct := show [1, 2, 3, 4].Nodup by decide
  apart := by
    simp only [layout, fields, List.pairwise_cons, List.forall_mem_cons, List.not_mem_nil,
      false_imp_iff, implies_true, List.Pairwise.nil, and_true]
    and_intros
    all_goals exact ⟨fun _ _ => rfl, fun _ _ => rfl⟩
  unknown := ⟨fun _ _ => rfl, fun _ => rfl, fun _ _ _ => rfl⟩
  aside := by
    simp only [layout, fields, List.forall_mem_cons, List.not_mem_nil, false_imp_iff,
      implies_true, and_true]
    and_intros
    all_goals exact ⟨fun _ _ => rfl, fun _ _ => rfl⟩
  ext msg other known unknown := by
    simp only [layout, fields, List.forall_mem_cons] at known
    obtain ⟨term, candidateId, lastLogIdx, lastLogTerm, -⟩ := known
    exact PbRequestVoteMessage.ext term candidateId lastLogIdx lastLogTerm unknown

theorem PbRequestVoteMessage.fielded :
    (PbRequestVoteMessage.messages runtime).Fielded runtime.coding
      (PbRequestVoteMessage.layout runtime) where
  layout_lawful := PbRequestVoteMessage.layout_lawful lawful
  get_empty := by
    simp only [layout, fields, List.forall_mem_cons, List.not_mem_nil, false_imp_iff,
      implies_true, and_true]
    and_intros
    all_goals rfl
  unknown_empty := rfl
  mergePartial_eq := rfl
  serialize_eq := rfl
  byteSize_eq := ⟨_, perm_places _ (show [1, 0, 2, 3].Perm (List.range 4) by decide), rfl⟩
  mergeFrom_eq := ⟨_, perm_places _ (show [1, 0, 2, 3].Perm (List.range 4) by decide), rfl⟩
  valid_eq := rfl
  whole_eq := rfl

theorem PbAddLogMessage.layout_lawful : (PbAddLogMessage.layout runtime).Lawful runtime.coding where
  codes := lawful.coding
  each := by
    simp only [layout, fields, List.forall_mem_cons, List.not_mem_nil, false_imp_iff,
      implies_true, and_true]
    refine ⟨stringField_lawful lawful (by decide) ?_, stringField_lawful lawful (by decide) ?_,
      uint64Field_lawful lawful (by decide) ?_,
      nestedField_lawful lawful (PbServerId.fielded lawful).lawful (by decide) ?_⟩
    all_goals exact ⟨fun _ _ => rfl, fun _ => rfl, fun _ _ _ => rfl⟩
  distinct := show [1, 2, 3, 4].Nodup by decide
  apart := by
    simp only [layout, fields, List.pairwise_cons, List.forall_mem_cons, List.not_mem_nil,
      false_imp_iff, implies_true, List.Pairwise.nil, and_true]
    and_intros
    all_goals exact ⟨fun _ _ => rfl, fun _ _ => rfl⟩
  unknown := ⟨fun _ _ => rfl, fun _ => rfl, fun _ _ _ => rfl⟩
  aside := by
    simp only [layout, fields, List.forall_mem_cons, List.not_mem_nil, false_imp_iff,
      implies_true, and_true]
    and_intros
    all_goals exact ⟨fun _ _ => rfl, fun _ _ => rfl⟩
  ext msg other known unknown := by
    simp only [layout, fields, List.forall_mem_cons] at known
    obtain ⟨opName, args, prmIdx, srvId, -⟩ := known
    exact PbAddLogMessage.ext opName args prmIdx srvId unknown

theorem PbAddLogMessage.fielded :
    (PbAddLogMessage.messages runtime).Fielded runtime.coding (PbAddLogMessage.layout runtime) where
  layout_lawful := PbAddLogMessage.layout_lawful lawful
  get_empty := by
    simp only [layout, fields, List.forall_mem_cons, List.not_mem_nil, false_imp_iff,
      implies_true, and_true]
    and_intros
    all_goals rfl
  unknown_empty := rfl
  mergePartial_eq := rfl
  serialize_eq := rfl
  byteSize_eq := ⟨_, perm_places _ (show [0, 1, 3, 2].Perm (List.range 4) by decide), rfl⟩
  mergeFrom_eq := ⟨_, perm_places _ (show [0, 1, 3, 2].Perm (List.range 4) by decide), rfl⟩
  valid_eq := rfl
  whole_eq := rfl

theorem PbAddLogReply.layout_lawful : (PbAddLogReply.layout runtime).Lawful runtime.coding where
  codes := lawful.coding
  each := by
    simp only [layout, fields, List.forall_mem_cons, List.not_mem_nil, false_imp_iff,
      implies_true, and_true]
    refine ⟨boolField_lawful lawful (by decide) ?_,
      nestedField_lawful lawful (PbServerId.fielded lawful).lawful (by decide) ?_⟩
    all_goals exact ⟨fun _ _ => rfl, fun _ => rfl, fun _ _ _ => rfl⟩
  distinct := show [1, 2].Nodup by decide
  apart := by
    simp only [layout, fields, List.pairwise_cons, List.forall_mem_cons, List.not_mem_nil,
      false_imp_iff, implies_true, List.Pairwise.nil, and_true]
    exact ⟨fun _ _ => rfl, fun _ _ => rfl⟩
  unknown := ⟨fun _ _ => rfl, fun _ => rfl, fun _ _ _ => rfl⟩
  aside := by
    simp only [layout, fields, List.forall_mem_cons, List.not_mem_nil, false_imp_iff,
      implies_true, and_true]
    and_intros
    all_goals exact ⟨fun _ _ => rfl, fun _ _ => rfl⟩
  ext msg other known unknown := by
    simp only [layout, fields, List.forall_mem_cons] at known
    obtain ⟨success, leaderId, -⟩ := known
    exact PbAddLogReply.ext success leaderId unknown

theorem PbAddLogReply.fielded :
    (PbAddLogReply.messages runtime).Fielded runtime.coding (PbAddLogReply.layout runtime) where
  layout_lawful := PbAddLogReply.layout_lawful lawful
  get_empty := by
    simp only [layout, fields, List.forall_mem_cons, List.not_mem_nil, false_imp_iff,
      implies_true, and_true]
    and_intros
    all_goals rfl
  unknown_empty := rfl
  mergePartial_eq := rfl
  serialize_eq := rfl
  byteSize_eq := ⟨_, perm_places _ (show [1, 0].Perm (List.range 2) by decide), rfl⟩
  mergeFrom_eq := ⟨_, perm_places _ (show [1, 0].Perm (List.range 2) by decide), rfl⟩
  valid_eq := rfl
  whole_eq := rfl

/-! ## Strings -/

theorem PbReply.valid (msg : PbReply) : (PbReply.messages runtime).Valid msg := by
  simp only [messages, Layout.Valid, layout, fields, List.forall_mem_cons, List.not_mem_nil,
    false_imp_iff, implies_true, and_true]
  exact ⟨fun _ => lawful.valid_uint64 _, fun _ => lawful.valid_bool _⟩

theorem PbServerId.valid_iff {msg : PbServerId} :
    (PbServerId.messages runtime).Valid msg ↔ msg.addr.IsUtf8 := by
  simp only [messages, Layout.Valid, layout, fields, List.forall_mem_cons, List.not_mem_nil,
    false_imp_iff, implies_true, and_true]
  exact (and_iff_left fun _ => lawful.valid_uint32 _).trans string_valid_iff

theorem PbServerId.valid_member_iff {id : Option PbServerId} :
    (∀ msg ∈ id, (PbServerId.messages runtime).Valid msg) ↔ ∀ msg ∈ id, msg.addr.IsUtf8 :=
  forall₂_congr fun _ _ => PbServerId.valid_iff lawful

theorem PbLogEntry.valid_iff {msg : PbLogEntry} :
    (PbLogEntry.messages runtime).Valid msg ↔
      msg.opName.IsUtf8 ∧ msg.args.IsUtf8 ∧ ∀ id ∈ msg.srvId, id.addr.IsUtf8 := by
  simp only [messages, Layout.Valid, layout, fields, List.forall_mem_cons, List.not_mem_nil,
    false_imp_iff, implies_true, and_true]
  refine (and_iff_right fun _ => lawful.valid_uint64 _).trans ?_
  refine and_congr string_valid_iff (and_congr string_valid_iff ?_)
  exact (and_iff_right fun _ => lawful.valid_uint64 _).trans (PbServerId.valid_member_iff lawful)

theorem PbAppendEntriesMessage.valid_iff {msg : PbAppendEntriesMessage} :
    (PbAppendEntriesMessage.messages runtime).Valid msg ↔
      (∀ id ∈ msg.leaderId, id.addr.IsUtf8) ∧
        ∀ entry ∈ msg.logEntries, (PbLogEntry.messages runtime).Valid entry := by
  simp only [messages, Layout.Valid, layout, fields, List.forall_mem_cons, List.not_mem_nil,
    false_imp_iff, implies_true, and_true]
  refine (and_iff_right fun _ => lawful.valid_uint64 _).trans ?_
  refine and_congr (PbServerId.valid_member_iff lawful) ?_
  refine (and_iff_right fun _ => lawful.valid_uint64 _).trans ?_
  refine (and_iff_right fun _ => lawful.valid_uint64 _).trans ?_
  exact and_iff_left fun _ => lawful.valid_uint64 _

theorem PbRequestVoteMessage.valid_iff {msg : PbRequestVoteMessage} :
    (PbRequestVoteMessage.messages runtime).Valid msg ↔
      ∀ id ∈ msg.candidateId, id.addr.IsUtf8 := by
  simp only [messages, Layout.Valid, layout, fields, List.forall_mem_cons, List.not_mem_nil,
    false_imp_iff, implies_true, and_true]
  refine (and_iff_right fun _ => lawful.valid_uint64 _).trans ?_
  refine (and_iff_left ?_).trans (PbServerId.valid_member_iff lawful)
  exact ⟨fun _ => lawful.valid_uint64 _, fun _ => lawful.valid_uint64 _⟩

theorem PbAddLogMessage.valid_iff {msg : PbAddLogMessage} :
    (PbAddLogMessage.messages runtime).Valid msg ↔
      msg.opName.IsUtf8 ∧ msg.args.IsUtf8 ∧ ∀ id ∈ msg.srvId, id.addr.IsUtf8 := by
  simp only [messages, Layout.Valid, layout, fields, List.forall_mem_cons, List.not_mem_nil,
    false_imp_iff, implies_true, and_true]
  refine and_congr string_valid_iff (and_congr string_valid_iff ?_)
  exact (and_iff_right fun _ => lawful.valid_uint64 _).trans (PbServerId.valid_member_iff lawful)

theorem PbAddLogReply.valid_iff {msg : PbAddLogReply} :
    (PbAddLogReply.messages runtime).Valid msg ↔ ∀ id ∈ msg.leaderId, id.addr.IsUtf8 := by
  simp only [messages, Layout.Valid, layout, fields, List.forall_mem_cons, List.not_mem_nil,
    false_imp_iff, implies_true, and_true]
  refine (and_iff_right fun _ => lawful.valid_bool _).trans ?_
  exact PbServerId.valid_member_iff lawful

/-! ## What the servers write -/

theorem valid_convertLogEntry {entry : LogEntry} :
    (PbLogEntry.messages runtime).Valid (convertLogEntry entry) ↔ entry.IsText := by
  rw [PbLogEntry.valid_iff lawful]
  exact and_congr_right fun _ => and_congr_right fun _ => isText_iff

theorem valid_convertAppendEntriesMessage {msg : AppendEntriesMessage} :
    (PbAppendEntriesMessage.messages runtime).Valid (convertAppendEntriesMessage msg) ↔
      msg.IsText := by
  rw [PbAppendEntriesMessage.valid_iff lawful]
  refine and_congr isText_iff ?_
  simp only [convertAppendEntriesMessage, List.forall_mem_map, valid_convertLogEntry lawful]

theorem valid_convertRequestVoteMessage {msg : RequestVoteMessage} :
    (PbRequestVoteMessage.messages runtime).Valid (convertRequestVoteMessage msg) ↔
      msg.IsText := by
  rw [PbRequestVoteMessage.valid_iff lawful]
  exact isText_iff

theorem valid_convertAddLogMessage {msg : AddLogMessage} :
    (PbAddLogMessage.messages runtime).Valid (convertAddLogMessage msg) ↔ msg.IsText := by
  rw [PbAddLogMessage.valid_iff lawful]
  exact and_congr_right fun _ => and_congr_right fun _ => isText_iff

theorem valid_convertAddLogReply {reply : AddLogReply} :
    (PbAddLogReply.messages runtime).Valid (convertAddLogReply reply) ↔ reply.IsText := by
  rw [PbAddLogReply.valid_iff lawful]
  exact isText_iff

end Classes

theorem whole_convertServerId (id : ServerId) :
    ∀ pb ∈ some (convertServerId id), (PbServerId.messages runtime).Whole pb := by
  rintro _ ⟨⟩
  refine Layout.whole_of_nil rfl ?_
  simp only [PbServerId.layout, PbServerId.fields, List.forall_mem_cons, List.not_mem_nil,
    false_imp_iff, implies_true, and_true]
  exact ⟨trivial, trivial⟩

theorem whole_convertReply (reply : Reply) :
    (PbReply.messages runtime).Whole (convertReply reply) := by
  refine Layout.whole_of_nil rfl ?_
  simp only [PbReply.layout, PbReply.fields, List.forall_mem_cons, List.not_mem_nil,
    false_imp_iff, implies_true, and_true]
  exact ⟨trivial, trivial⟩

theorem whole_convertLogEntry (entry : LogEntry) :
    (PbLogEntry.messages runtime).Whole (convertLogEntry entry) := by
  refine Layout.whole_of_nil rfl ?_
  simp only [PbLogEntry.layout, PbLogEntry.fields, List.forall_mem_cons, List.not_mem_nil,
    false_imp_iff, implies_true, and_true]
  exact ⟨trivial, trivial, trivial, trivial, whole_convertServerId entry.srvId⟩

theorem whole_convertAppendEntriesMessage (msg : AppendEntriesMessage) :
    (PbAppendEntriesMessage.messages runtime).Whole (convertAppendEntriesMessage msg) := by
  refine Layout.whole_of_nil rfl ?_
  simp only [PbAppendEntriesMessage.layout, PbAppendEntriesMessage.fields, List.forall_mem_cons,
    List.not_mem_nil, false_imp_iff, implies_true, and_true]
  refine ⟨trivial, whole_convertServerId msg.leaderId, trivial, trivial, ?_, trivial⟩
  exact List.forall_mem_map.mpr fun entry _ => whole_convertLogEntry entry

theorem whole_convertRequestVoteMessage (msg : RequestVoteMessage) :
    (PbRequestVoteMessage.messages runtime).Whole (convertRequestVoteMessage msg) := by
  refine Layout.whole_of_nil rfl ?_
  simp only [PbRequestVoteMessage.layout, PbRequestVoteMessage.fields, List.forall_mem_cons,
    List.not_mem_nil, false_imp_iff, implies_true, and_true]
  exact ⟨trivial, whole_convertServerId msg.candidateId, trivial, trivial⟩

theorem whole_convertAddLogMessage (msg : AddLogMessage) :
    (PbAddLogMessage.messages runtime).Whole (convertAddLogMessage msg) := by
  refine Layout.whole_of_nil rfl ?_
  simp only [PbAddLogMessage.layout, PbAddLogMessage.fields, List.forall_mem_cons,
    List.not_mem_nil, false_imp_iff, implies_true, and_true]
  exact ⟨trivial, trivial, trivial, whole_convertServerId msg.srvId⟩

theorem whole_convertAddLogReply (reply : AddLogReply) :
    (PbAddLogReply.messages runtime).Whole (convertAddLogReply reply) := by
  refine Layout.whole_of_nil rfl ?_
  simp only [PbAddLogReply.layout, PbAddLogReply.fields, List.forall_mem_cons, List.not_mem_nil,
    false_imp_iff, implies_true, and_true]
  exact ⟨trivial, whole_convertServerId reply.leaderId⟩

/-! ## All classes -/

/-- As many bytes are written as are announced.  Messages below the limit with unknown fields such
as are kept are read back, and merged when two come behind each other, if their strings are UTF-8,
and refused otherwise; and what has been read is of this kind. -/
structure ReadsBack {M : Type} (coding : Coding) (messages : MessageClass M) : Prop where
  length_serialize : ∀ msg, (messages.serialize msg).length = messages.byteSize msg
  parse_serialize : ∀ msg, messages.byteSize msg < sizeLimit → messages.Whole msg →
    messages.Valid msg → messages.parse (messages.serialize msg) = some msg
  parse_append : ∀ msg other, messages.byteSize msg < sizeLimit → messages.Whole msg →
    messages.Valid msg → messages.byteSize other < sizeLimit → messages.Whole other →
      messages.Valid other →
        messages.parse (messages.serialize msg ++ messages.serialize other) =
          some (messages.mergeFrom other msg)
  refuses : ∀ msg, messages.byteSize msg < sizeLimit → messages.Whole msg →
    ¬ messages.Valid msg → messages.parse (messages.serialize msg) = none
  valid_of_parse : ∀ bytes msg, messages.parse bytes = some msg → messages.Valid msg
  whole_of_parse : ∀ bytes msg, messages.parse bytes = some msg →
    coding.preservesUnknowns = true → messages.Whole msg

theorem readsBack_of_lawful {M : Type} {coding : Coding} {messages : MessageClass M}
    (lawful : messages.Lawful coding) : ReadsBack coding messages where
  length_serialize := lawful.length_serialize
  parse_serialize _ := lawful.parse_serialize
  parse_append _ _ small whole valid := lawful.parse_append small whole valid
  refuses _ := lawful.parse_refuses
  valid_of_parse _ _ parsed :=
    lawful.mergePartial_valid (MessageClass.parse_eq_some.mp parsed) lawful.valid_empty
  whole_of_parse _ _ parsed preserves :=
    lawful.mergePartial_whole (MessageClass.parse_eq_some.mp parsed) preserves lawful.whole_empty

theorem messages_readBack (runtime : Runtime) (lawful : runtime.Lawful) :
    ReadsBack runtime.coding (PbReply.messages runtime) ∧
      ReadsBack runtime.coding (PbServerId.messages runtime) ∧
      ReadsBack runtime.coding (PbLogEntry.messages runtime) ∧
      ReadsBack runtime.coding (PbAppendEntriesMessage.messages runtime) ∧
      ReadsBack runtime.coding (PbRequestVoteMessage.messages runtime) ∧
      ReadsBack runtime.coding (PbAddLogMessage.messages runtime) ∧
      ReadsBack runtime.coding (PbAddLogReply.messages runtime) :=
  ⟨readsBack_of_lawful (PbReply.fielded lawful).lawful,
    readsBack_of_lawful (PbServerId.fielded lawful).lawful,
    readsBack_of_lawful (PbLogEntry.fielded lawful).lawful,
    readsBack_of_lawful (PbAppendEntriesMessage.fielded lawful).lawful,
    readsBack_of_lawful (PbRequestVoteMessage.fielded lawful).lawful,
    readsBack_of_lawful (PbAddLogMessage.fielded lawful).lawful,
    readsBack_of_lawful (PbAddLogReply.fielded lawful).lawful⟩

/-- An entry with fields of every kind. -/
def sampleEntry : LogEntry :=
  { term := 300, opName := "push", args := "1", prmIdx := 0
    srvId := { addr := "localhost", port := 80 } }

/-- The entry is read back, and refused with a byte in its arguments that no text has. -/
theorem sampleEntry_readBack :
    (PbLogEntry.messages Varint.runtime).parse
        ((PbLogEntry.messages Varint.runtime).serialize (convertLogEntry sampleEntry)) =
          some (convertLogEntry sampleEntry) ∧
      (PbLogEntry.messages Varint.runtime).parse
        ((PbLogEntry.messages Varint.runtime).serialize
          (convertLogEntry { sampleEntry with args := ⟨[0x80]⟩ })) = none := by
  have entries := (messages_readBack Varint.runtime Varint.runtime_lawful).2.2.1
  have valid : ∀ entry, (PbLogEntry.messages Varint.runtime).Valid (convertLogEntry entry) ↔
    entry.IsText := fun _ => valid_convertLogEntry Varint.runtime_lawful
  refine ⟨entries.parse_serialize _ (by decide) (whole_convertLogEntry _) ?_,
    entries.refuses _ (by decide) (whole_convertLogEntry _) ?_⟩
  · exact (valid _).mpr (by decide)
  · exact mt (valid _).mp (by decide)

/-- A text whose pieces spell a message is read as this message; in particular one whose pieces are
those of the message in any order that leaves the payloads of a field, and the unknown fields, in
theirs. -/
structure AcceptsAnyOrder {M : Type} (coding : Coding) (messages : MessageClass M)
    (layout : Layout M) : Prop where
  spelled : ∀ text msg, Spells coding layout messages.empty text msg →
    messages.parse (writePieces coding text) = some msg
  shuffled : ∀ text msg, Shuffles layout text msg → messages.byteSize msg < sizeLimit →
    messages.Whole msg → messages.Valid msg →
      messages.parse (writePieces coding text) = some msg

theorem acceptsAnyOrder_of_fielded {M : Type} {coding : Coding} {messages : MessageClass M}
    {layout : Layout M} (fielded : messages.Fielded coding layout) :
    AcceptsAnyOrder coding messages layout where
  spelled _ _ := fielded.parse_spells
  shuffled _ _ shuffles small whole valid :=
    fielded.parse_spells (fielded.spells_of_shuffles shuffles small whole valid)

theorem messages_acceptAnyOrder (runtime : Runtime) (lawful : runtime.Lawful) :
    AcceptsAnyOrder runtime.coding (PbReply.messages runtime) (PbReply.layout runtime) ∧
      AcceptsAnyOrder runtime.coding (PbServerId.messages runtime) (PbServerId.layout runtime) ∧
      AcceptsAnyOrder runtime.coding (PbLogEntry.messages runtime) (PbLogEntry.layout runtime) ∧
      AcceptsAnyOrder runtime.coding (PbAppendEntriesMessage.messages runtime)
        (PbAppendEntriesMessage.layout runtime) ∧
      AcceptsAnyOrder runtime.coding (PbRequestVoteMessage.messages runtime)
        (PbRequestVoteMessage.layout runtime) ∧
      AcceptsAnyOrder runtime.coding (PbAddLogMessage.messages runtime)
        (PbAddLogMessage.layout runtime) ∧
      AcceptsAnyOrder runtime.coding (PbAddLogReply.messages runtime)
        (PbAddLogReply.layout runtime) :=
  ⟨acceptsAnyOrder_of_fielded (PbReply.fielded lawful),
    acceptsAnyOrder_of_fielded (PbServerId.fielded lawful),
    acceptsAnyOrder_of_fielded (PbLogEntry.fielded lawful),
    acceptsAnyOrder_of_fielded (PbAppendEntriesMessage.fielded lawful),
    acceptsAnyOrder_of_fielded (PbRequestVoteMessage.fielded lawful),
    acceptsAnyOrder_of_fielded (PbAddLogMessage.fielded lawful),
    acceptsAnyOrder_of_fielded (PbAddLogReply.fielded lawful)⟩

/-- A field with number 15, an entry, the term, another entry and another term. -/
def scattered : List Piece :=
  [⟨120, [7]⟩, ⟨42, [0]⟩, ⟨8, [4]⟩, ⟨42, [2, 8, 1]⟩, ⟨8, [5]⟩]

/-- The entries of a message are apart, its term comes twice, and there is an unknown field. -/
theorem messages_acceptAnyOrder_scattered :
    (PbAppendEntriesMessage.messages Varint.runtime).parse
        [120, 7, 42, 0, 8, 4, 42, 2, 8, 1, 8, 5] =
      some { term := 5, logEntries := [{}, { term := 1 }], unknownFields := [⟨120, [7]⟩] } := by
  have entries : (repeated Varint.coding (PbLogEntry.messages Varint.runtime)).Reads []
      [[0], [2, 8, 1]] [{}, { term := 1 }] :=
    .cons (fun _ => rfl) (.cons (fun _ => rfl) .nil)
  have terms : (singular Varint.runtime.uint64 0 0).Reads 0 [[4], [5]] 5 :=
    .cons (fun _ => rfl) (.cons (fun _ => rfl) .nil)
  refine (messages_acceptAnyOrder Varint.runtime Varint.runtime_lawful).2.2.2.1.spelled scattered _
    ⟨by decide, ?_, [⟨120, [7]⟩], rfl, .cons ⟨rfl, fun _ => rfl⟩ .nil⟩
  simp only [PbAppendEntriesMessage.layout, PbAppendEntriesMessage.fields, List.forall_mem_cons,
    List.not_mem_nil, false_imp_iff, implies_true, and_true]
  exact ⟨terms, .nil, .nil, .nil, entries, .nil⟩

/-! ## Messages of the servers -/

/-- A message, written at one end and read at the other. -/
def arriving {M Pb : Type} (messages : MessageClass Pb) (forth : M → Pb) (back : Pb → M) (msg : M) :
    Option M :=
  (messages.parse (messages.serialize (forth msg))).map back

/-- A message of the given class that is not too large arrives if and only if it is text, and then
as it was sent if and only if it is fit. -/
def ArrivesIf {M Pb : Type} (messages : MessageClass Pb) (forth : M → Pb) (back : Pb → M)
    (text fit : M → Prop) : Prop :=
  ∀ msg, messages.byteSize (forth msg) < sizeLimit →
    ((arriving messages forth back msg).isSome ↔ text msg) ∧
      (arriving messages forth back msg = some msg ↔ text msg ∧ fit msg)

theorem arrivesIf_of_lawful {M Pb : Type} {coding : Coding} {messages : MessageClass Pb}
    (lawful : messages.Lawful coding) {forth : M → Pb} {back : Pb → M} {text fit : M → Prop}
    (whole : ∀ msg, messages.Whole (forth msg))
    (valid : ∀ msg, messages.Valid (forth msg) ↔ text msg)
    (same : ∀ msg, back (forth msg) = msg ↔ fit msg) : ArrivesIf messages forth back text fit := by
  intro msg small
  by_cases readable : text msg
  · have parsed := lawful.parse_serialize small (whole msg) ((valid msg).mpr readable)
    rw [arriving, parsed, Option.map_some, Option.some.injEq, same]
    exact ⟨iff_of_true rfl readable, (and_iff_right readable).symm⟩
  · have refused := lawful.parse_refuses small (whole msg) (mt (valid msg).mp readable)
    rw [arriving, refused, Option.map_none]
    exact ⟨iff_of_false Bool.false_ne_true readable,
      iff_of_false (by simp) fun both => readable both.1⟩

/-- Messages whose strings are not UTF-8 do not arrive.  Servers read the others as these were sent
exactly if no number has outgrown 64 bits; what other programs send can be told apart after reading
exactly if all identifiers are there and have ports, and no field is unknown. -/
theorem messages_arrive (runtime : Runtime) (lawful : runtime.Lawful) :
    (ArrivesIf (PbAppendEntriesMessage.messages runtime) convertAppendEntriesMessage
        PbAppendEntriesMessage.convertAppendEntriesMessage AppendEntriesMessage.IsText
        AppendEntriesMessage.Fits ∧
      ArrivesIf (PbRequestVoteMessage.messages runtime) convertRequestVoteMessage
        PbRequestVoteMessage.convertRequestVoteMessage RequestVoteMessage.IsText
        RequestVoteMessage.Fits ∧
      ArrivesIf (PbReply.messages runtime) convertReply PbReply.convertReply (fun _ => True)
        Reply.Fits ∧
      ArrivesIf (PbAddLogMessage.messages runtime) convertAddLogMessage
        PbAddLogMessage.convertAddLogMessage AddLogMessage.IsText (fun _ => True) ∧
      ArrivesIf (PbAddLogReply.messages runtime) convertAddLogReply
        PbAddLogReply.convertAddLogReply AddLogReply.IsText fun _ => True) ∧
    (∀ msg, convertAppendEntriesMessage msg.convertAppendEntriesMessage = msg ↔
      HasServerId msg.leaderId ∧ (∀ entry ∈ msg.logEntries, entry.Plain) ∧
        msg.unknownFields = []) ∧
    (∀ msg, convertRequestVoteMessage msg.convertRequestVoteMessage = msg ↔
      HasServerId msg.candidateId ∧ msg.unknownFields = []) ∧
    (∀ msg, convertAddLogMessage msg.convertAddLogMessage = msg ↔
      HasServerId msg.srvId ∧ msg.unknownFields = []) ∧
    (∀ reply, convertReply reply.convertReply = reply ↔ reply.unknownFields = []) ∧
    (∀ reply, convertAddLogReply reply.convertAddLogReply = reply ↔
      HasServerId reply.leaderId ∧ reply.unknownFields = []) := by
  refine ⟨⟨?_, ?_, ?_, ?_, ?_⟩, fun _ => convertAppendEntriesMessage_forth,
    fun _ => convertRequestVoteMessage_forth, fun _ => convertAddLogMessage_forth,
    fun _ => convertReply_forth, fun _ => convertAddLogReply_forth⟩
  · exact arrivesIf_of_lawful (PbAppendEntriesMessage.fielded lawful).lawful
      whole_convertAppendEntriesMessage (fun _ => valid_convertAppendEntriesMessage lawful)
      fun _ => convertAppendEntriesMessage_back
  · exact arrivesIf_of_lawful (PbRequestVoteMessage.fielded lawful).lawful
      whole_convertRequestVoteMessage (fun _ => valid_convertRequestVoteMessage lawful)
      fun _ => convertRequestVoteMessage_back
  · exact arrivesIf_of_lawful (PbReply.fielded lawful).lawful whole_convertReply
      (fun _ => iff_true_intro (PbReply.valid lawful _)) fun _ => convertReply_back
  · exact arrivesIf_of_lawful (PbAddLogMessage.fielded lawful).lawful whole_convertAddLogMessage
      (fun _ => valid_convertAddLogMessage lawful)
      fun msg => iff_true_intro (convertAddLogMessage_back msg)
  · exact arrivesIf_of_lawful (PbAddLogReply.fielded lawful).lawful whole_convertAddLogReply
      (fun _ => valid_convertAddLogReply lawful)
      fun reply => iff_true_intro (convertAddLogReply_back reply)

/-- A request of a server for a vote arrives as it was sent; a command whose arguments no text has
does not arrive. -/
theorem messages_arrive_command :
    arriving (PbRequestVoteMessage.messages Varint.runtime) convertRequestVoteMessage
        PbRequestVoteMessage.convertRequestVoteMessage { term := 2 } = some { term := 2 } ∧
      arriving (PbAddLogMessage.messages Varint.runtime) convertAddLogMessage
        PbAddLogMessage.convertAddLogMessage { args := ⟨[0x80]⟩ } = none := by
  have arrive := (messages_arrive Varint.runtime Varint.runtime_lawful).1
  refine ⟨((arrive.2.1 _ (by decide)).2).mpr ⟨by decide, ⟨by decide, by decide, by decide⟩⟩, ?_⟩
  have lost := mt (arrive.2.2.2.1 { args := ⟨[0x80]⟩ } (by decide)).1.mp (by decide)
  rwa [Bool.not_eq_true, Option.isSome_eq_false_iff, Option.isNone_iff_eq_none] at lost

end Rpc

end Quintet
