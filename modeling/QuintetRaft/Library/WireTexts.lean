import Mathlib.Algebra.Order.BigOperators.Group.List
import Mathlib.Algebra.Order.Group.Nat
import Mathlib.Data.List.Nodup
import QuintetRaft.Library.WireFormat

/-!
# Texts of messages

Pieces that spell a message, in whatever order they come, and classes of messages whose functions
go through a list of fields, which is what makes them lawful.
-/

namespace WireFormat

/-! ## Pieces in any order -/

section Texts

variable {M : Type} {coding : Coding} {layout : Layout M} {field other : MessageField M}
  {msg target : M} {text : List Piece}

/-- The payloads behind a tag. -/
def payloadsOf (tag : ℕ) (text : List Piece) : List Bytes :=
  (text.filter (·.tag = tag)).map (·.payload)

/-- The pieces whose tags select no field. -/
def unknownOf (fields : List (MessageField M)) (text : List Piece) : List Piece :=
  text.filter fun piece => (selected fields piece.tag).isNone

/-- What is kept of an unknown field, whose payload is taken up whole. -/
def KeepsAs (coding : Coding) (piece kept : Piece) : Prop :=
  kept.tag = piece.tag ∧
    ∀ rest, coding.skipField piece.tag (piece.payload ++ rest) = some (kept.payload, rest)

/-- The pieces of a text turn one message into another: for each field its payloads, wherever they
stand, are read one after the other, and the unknown fields come behind those that were there. -/
structure Spells (coding : Coding) (layout : Layout M) (target : M) (text : List Piece) (msg : M) :
    Prop where
  tags : ∀ piece ∈ text, 0 < piece.tag ∧ piece.tag < 2 ^ 32
  fields : ∀ field ∈ layout.fields,
    field.kind.Reads (field.place.get target) (payloadsOf field.tag text) (field.place.get msg)
  unknown : ∃ kept, layout.unknown.get msg = layout.unknown.get target ++ kept ∧
    List.Forall₂ (KeepsAs coding) (unknownOf layout.fields text) kept

/-- The pieces of a message, in any order in which the payloads of each field and the unknown fields
stay in theirs. -/
structure Shuffles (layout : Layout M) (text : List Piece) (msg : M) : Prop where
  tags : ∀ piece ∈ text, 0 < piece.tag ∧ piece.tag < 2 ^ 32
  fields : ∀ field ∈ layout.fields,
    payloadsOf field.tag text = field.kind.payloads (field.place.get msg)
  unknown : unknownOf layout.fields text = layout.unknown.get msg

theorem FieldKind.reads_nil {α : Type} {kind : FieldKind α} {value last : α} :
    kind.Reads value [] last ↔ last = value := by
  constructor
  · rintro ⟨⟩
    rfl
  · rintro rfl
    exact .nil

theorem payloadsOf_cons_self (piece : Piece) (text : List Piece) :
    payloadsOf piece.tag (piece :: text) = piece.payload :: payloadsOf piece.tag text := by
  simp [payloadsOf]

theorem payloadsOf_cons_of_ne {piece : Piece} {tag : ℕ} (apart : piece.tag ≠ tag)
    (text : List Piece) : payloadsOf tag (piece :: text) = payloadsOf tag text := by
  simp [payloadsOf, apart]

section Heads

variable (lawful : layout.Lawful coding)

include lawful

/-- The places of different fields are apart. -/
theorem get_set_of_ne (member : field ∈ layout.fields) (member' : other ∈ layout.fields)
    (ne : field ≠ other) (value : other.Value) (msg : M) :
    field.place.get (other.place.set value msg) = field.place.get msg :=
  (lawful.apart.forall member member' ne).get_set value msg

/-- The piece at the head of a text is read by its field, and the rest of the text spells the rest
of the message. -/
theorem Spells.known {piece : Piece} (spells : Spells coding layout target (piece :: text) msg)
    (chosen : selected layout.fields piece.tag = some field) :
    ∃ value, (∀ rest, field.merge target (piece.payload ++ rest) =
        some (field.place.set value target, rest)) ∧
      Spells coding layout (field.place.set value target) text msg := by
  obtain ⟨member, tag⟩ := (selected_eq_some lawful).mp chosen
  have own := spells.fields field member
  rw [← tag, payloadsOf_cons_self] at own
  obtain - | @⟨_, value, _, _, _, read, tail⟩ := own
  refine ⟨value, fun rest => Option.map_eq_some_iff.mpr ⟨_, read rest, rfl⟩,
    { tags := fun other member => spells.tags other (List.mem_cons_of_mem piece member)
      fields := fun other member' => ?_
      unknown := ?_ }⟩
  · by_cases same : other = field
    · subst same
      rw [(lawful.each other member).place.get_set, ← tag]
      exact tail
    · have apart : piece.tag ≠ other.tag := fun equal => by
        rw [equal, selected_tag lawful member'] at chosen
        exact same (Option.some.inj chosen)
      have reads := spells.fields other member'
      rw [payloadsOf_cons_of_ne apart] at reads
      rw [get_set_of_ne lawful member' member same]
      exact reads
  · have kept := spells.unknown
    rw [unknownOf, List.filter_cons_of_neg (by simp [chosen])] at kept
    rw [(lawful.aside field member).get_set']
    exact kept

/-- Or it is kept. -/
theorem Spells.kept {piece : Piece} (spells : Spells coding layout target (piece :: text) msg)
    (chosen : selected layout.fields piece.tag = none) :
    ∃ payload, (∀ rest, coding.skipField piece.tag (piece.payload ++ rest) =
        some (payload, rest)) ∧
      Spells coding layout (keep layout ⟨piece.tag, payload⟩ target) text msg := by
  obtain ⟨kept, found, keeps⟩ := spells.unknown
  rw [unknownOf, List.filter_cons_of_pos (by simp [chosen])] at keeps
  cases keeps with
  | @cons _ first _ kept here later =>
      obtain ⟨tag, payload⟩ := first
      obtain ⟨same, skipped⟩ := here
      obtain rfl : tag = piece.tag := same
      refine ⟨payload, skipped,
        { tags := fun other member => spells.tags other (List.mem_cons_of_mem piece member)
          fields := fun field member => ?_
          unknown := ⟨kept, ?_, later⟩ }⟩
      · have apart : piece.tag ≠ field.tag := fun equal => by
          rw [equal, selected_tag lawful member] at chosen
          cases chosen
        have reads := spells.fields field member
        rw [payloadsOf_cons_of_ne apart] at reads
        rw [keep, (lawful.aside field member).get_set]
        exact reads
      · rw [found, keep, lawful.unknown.get_set, List.append_assoc, List.singleton_append]

/-- A message that nothing is left to be read of is there. -/
theorem Spells.eq_of_nil (spells : Spells coding layout target [] msg) : target = msg := by
  refine lawful.ext target msg (fun field member => ?_) ?_
  · have reads := spells.fields field member
    exact (FieldKind.reads_nil.mp reads).symm
  · obtain ⟨kept, found, keeps⟩ := spells.unknown
    cases keeps
    rw [found, List.append_nil]

/-- The pieces of a text are read in whatever order they come. -/
theorem mergePartialFields_spells (spells : Spells coding layout target text msg) (rest : Bytes) :
    mergePartialFields coding layout target (writePieces coding text ++ rest) =
      mergePartialFields coding layout msg rest := by
  induction text generalizing target with
  | nil =>
      obtain rfl := spells.eq_of_nil lawful
      rfl
  | cons piece text ih =>
      obtain ⟨positive, small⟩ := spells.tags piece List.mem_cons_self
      rw [writePieces_cons, List.append_assoc, List.append_assoc]
      cases chosen : selected layout.fields piece.tag with
      | some field =>
          obtain ⟨member, tag⟩ := (selected_eq_some lawful).mp chosen
          obtain ⟨value, merged, tail⟩ := spells.known lawful chosen
          rw [tag, mergePartialFields_field lawful member (merged _)]
          exact ih tail
      | none =>
          obtain ⟨payload, skipped, tail⟩ := spells.kept lawful chosen
          rw [mergePartialFields_unknown lawful positive small chosen (skipped _)]
          exact ih tail

end Heads

end Texts

/-! ## Places after a merge -/

section Assignments

variable {M : Type} {coding : Coding} {layout : Layout M} {field : MessageField M}
  {fields : List (MessageField M)} (lawful : layout.Lawful coding)

include lawful

theorem Layout.Lawful.nodup : layout.fields.Nodup :=
  List.Nodup.of_map _ lawful.distinct

/-- Fields that are not put there stay. -/
theorem get_assignFields_of_notMem (included : fields ⊆ layout.fields)
    (member : field ∈ layout.fields) (absent : field ∉ fields) (source target : M) :
    field.place.get (assignFields fields source target) = field.place.get target := by
  induction fields generalizing target with
  | nil => rfl
  | cons first fields ih =>
      obtain ⟨member', included⟩ := List.cons_subset.mp included
      obtain ⟨ne, absent⟩ := not_or.mp (mt List.mem_cons.mpr absent)
      have later := ih included absent (first.assign source target)
      rw [assignFields, List.foldl_cons]
      exact later.trans (get_set_of_ne lawful member member' ne _ target)

/-- Each field is joined to what was there. -/
theorem get_assignFields (included : fields ⊆ layout.fields) (nodup : fields.Nodup)
    (member : field ∈ fields) (source target : M) :
    field.place.get (assignFields fields source target) =
      field.kind.join (field.place.get source) (field.place.get target) := by
  induction fields generalizing target with
  | nil => exact absurd member List.not_mem_nil
  | cons first fields ih =>
      obtain ⟨member', subset⟩ := List.cons_subset.mp included
      obtain ⟨absent, nodup⟩ := List.nodup_cons.mp nodup
      rw [assignFields, List.foldl_cons]
      rcases List.mem_cons.mp member with same | later
      · subst same
        have kept := get_assignFields_of_notMem lawful subset member' absent source
          (field.assign source target)
        exact kept.trans ((lawful.each field member').place.get_set _ target)
      · have ne : field ≠ first := fun same => absent (same ▸ later)
        refine (ih subset nodup later (first.assign source target)).trans ?_
        rw [MessageField.assign, get_set_of_ne lawful (subset later) member' ne]

/-- The unknown fields stay. -/
theorem unknown_assignFields (included : fields ⊆ layout.fields) (source target : M) :
    layout.unknown.get (assignFields fields source target) = layout.unknown.get target := by
  induction fields generalizing target with
  | nil => rfl
  | cons first fields ih =>
      obtain ⟨member, included⟩ := List.cons_subset.mp included
      have later := ih included (first.assign source target)
      rw [assignFields, List.foldl_cons]
      exact later.trans ((lawful.aside first member).get_set' _ target)

/-- It does not matter in which order the fields of a message are put into another one, nor whether
the unknown fields come first. -/
theorem assignUnknown_assignFields {order : List (MessageField M)}
    (permuted : order.Perm layout.fields) (source target : M) :
    assignUnknown layout source (assignFields layout.fields source target) =
      assignFields order source (assignUnknown layout source target) := by
  have nodup := Layout.Lawful.nodup lawful
  refine lawful.ext _ _ (fun field member => ?_) ?_
  · rw [assignUnknown, (lawful.aside field member).get_set,
      get_assignFields lawful (fun _ => id) nodup member,
      get_assignFields lawful permuted.subset (permuted.nodup_iff.mpr nodup)
        (permuted.mem_iff.mpr member),
      assignUnknown, (lawful.aside field member).get_set]
  · rw [unknown_assignFields lawful permuted.subset, assignUnknown, assignUnknown,
      lawful.unknown.get_set, lawful.unknown.get_set, unknown_assignFields lawful fun _ => id]

end Assignments

/-! ## What reading keeps -/

section Invariants

variable {M : Type} {coding : Coding} {layout : Layout M} {msg target : M} {bytes rest : Bytes}

/-- What each field and each unknown piece keeps is kept by reading a text. -/
theorem mergeFields_keeps {P : M → Prop}
    (known : ∀ field ∈ layout.fields, ∀ {target msg : M} {bytes rest : Bytes},
      field.merge target bytes = some (msg, rest) → P target → P msg)
    (unknown : ∀ {tag : ℕ} {bytes behind payload rest : Bytes} {target : M},
      coding.readTag bytes = some (tag, behind) → selected layout.fields tag = none →
        coding.skipField tag behind = some (payload, rest) → P target →
          P (keep layout ⟨tag, payload⟩ target)) {count : ℕ}
    (read : mergeFields coding layout count target bytes = some (msg, rest)) (holds : P target) :
    P msg := by
  induction count generalizing target bytes with
  | zero => cases read
  | succ count ih =>
      rw [mergeFields] at read
      cases tagRead : coding.readTag bytes with
      | none =>
          simp only [tagRead, Option.some.injEq, Prod.mk.injEq] at read
          exact read.1 ▸ holds
      | some tagged =>
          obtain ⟨tag, behind⟩ := tagged
          simp only [tagRead] at read
          cases chosen : selected layout.fields tag with
          | none =>
              simp only [chosen] at read
              obtain ⟨⟨payload, left⟩, skipped, read⟩ := Option.bind_eq_some_iff.mp read
              exact ih read (unknown tagRead chosen skipped holds)
          | some field =>
              simp only [chosen] at read
              obtain ⟨⟨middle, left⟩, merged, read⟩ := Option.bind_eq_some_iff.mp read
              have member := (selected_spec chosen).1
              exact ih read (known field member merged holds)

variable (lawful : layout.Lawful coding)

include lawful

/-- What a field has of its own value it has after a read, if this keeps it; the others stay. -/
theorem get_of_merge (P : ∀ field : MessageField M, field.Value → Prop) {field : MessageField M}
    (member : field ∈ layout.fields)
    (keeps : ∀ {value result : field.Value} {bytes rest : Bytes},
      field.kind.read value bytes = some (result, rest) → P field value → P field result)
    (merged : field.merge target bytes = some (msg, rest))
    (holds : ∀ other ∈ layout.fields, P other (other.place.get target)) :
    ∀ other ∈ layout.fields, P other (other.place.get msg) := by
  obtain ⟨⟨value, left⟩, read, same⟩ := Option.map_eq_some_iff.mp merged
  cases same
  intro other member'
  by_cases same : other = field
  · subst same
    rw [(lawful.each other member).place.get_set]
    exact keeps read (holds other member')
  · rw [get_set_of_ne lawful member' member same]
    exact holds other member'

/-- What has been read is valid. -/
theorem mergePartialFields_valid
    (read : mergePartialFields coding layout target bytes = some (msg, rest))
    (valid : layout.Valid target) : layout.Valid msg := by
  refine mergeFields_keeps (fun field member _ _ _ _ merged valid => ?_)
    (fun _ _ _ valid field member => ?_) read valid
  · exact get_of_merge lawful (fun field => field.kind.Valid) member
      (lawful.each field member).kind.read_valid merged valid
  · rw [keep, (lawful.aside field member).get_set]
    exact valid field member

/-- What has been read is whole, unless unknown fields are not written. -/
theorem mergePartialFields_whole
    (read : mergePartialFields coding layout target bytes = some (msg, rest))
    (preserves : coding.preservesUnknowns = true) (whole : layout.Whole coding target) :
    layout.Whole coding msg := by
  refine mergeFields_keeps (fun field member target msg bytes rest merged whole => ?_)
    (fun tagRead unselected skipped whole => ?_) read whole
  · have unknown : layout.unknown.get msg = layout.unknown.get target := by
      obtain ⟨⟨value, left⟩, -, same⟩ := Option.map_eq_some_iff.mp merged
      cases same
      exact (lawful.aside field member).get_set' value target
    exact
      { fields := get_of_merge lawful (fun field => field.kind.Whole) member
          (fun read => (lawful.each field member).kind.read_whole read preserves) merged
          whole.fields
        kept := unknown ▸ whole.kept
        written := unknown ▸ whole.written }
  · obtain ⟨positive, small⟩ := lawful.codes.readTag_bounds tagRead
    refine
      { fields := fun field member => ?_
        kept := ?_
        written := fun unpreserved => Bool.noConfusion (preserves.symm.trans unpreserved) }
    · rw [keep, (lawful.aside field member).get_set]
      exact whole.fields field member
    · rw [keep, lawful.unknown.get_set]
      refine List.forall_mem_append.mpr ⟨whole.kept, List.forall_mem_singleton.mpr ?_⟩
      exact ⟨positive, small, unselected, lawful.codes.skipField_kept skipped⟩

end Invariants

/-! ## Classes of fields -/

section Classes

variable {M : Type} {coding : Coding} {messages : MessageClass M} {layout : Layout M}

/-- A class whose functions go through a list of fields. -/
structure MessageClass.Fielded (coding : Coding) (messages : MessageClass M) (layout : Layout M) :
    Prop where
  layout_lawful : layout.Lawful coding
  get_empty : ∀ field ∈ layout.fields, field.place.get messages.empty = field.kind.initial
  unknown_empty : layout.unknown.get messages.empty = []
  mergePartial_eq : messages.mergePartial = mergePartialFields coding layout
  serialize_eq : messages.serialize = layout.write coding
  /-- The bytes are counted in some order. -/
  byteSize_eq : ∃ order : List (MessageField M), order.Perm layout.fields ∧
    messages.byteSize = layout.size coding order
  /-- The fields are merged in some order. -/
  mergeFrom_eq : ∃ order : List (MessageField M), order.Perm layout.fields ∧
    messages.mergeFrom = layout.assign order
  valid_eq : messages.Valid = layout.Valid
  whole_eq : messages.Whole = layout.Whole coding

/-- A list is permuted by naming the places of its elements. -/
theorem perm_places {α : Type*} (list : List α) {places : List ℕ}
    (all : places.Perm (List.range list.length)) :
    (places.filterMap fun place => list[place]?).Perm list := by
  have sorted : ((List.range list.length).filterMap fun place => list[place]?) = list := by
    clear all
    induction list with
    | nil => rfl
    | cons head tail ih =>
        rw [List.length_cons, List.range_succ_eq_map, List.filterMap_cons, List.filterMap_map]
        exact congrArg (head :: ·) ih
  exact (all.filterMap _).trans (.of_eq sorted)

/-- A message without unknown fields. -/
theorem Layout.whole_of_nil {msg : M} (unknown : layout.unknown.get msg = [])
    (fields : ∀ field ∈ layout.fields, field.kind.Whole (field.place.get msg)) :
    layout.Whole coding msg where
  fields := fields
  kept piece member := by
    rw [unknown] at member
    exact absurd member List.not_mem_nil
  written _ := unknown

/-- Unknown fields are written, or there are none. -/
theorem Layout.Whole.writeUnknown_eq {msg : M} (whole : layout.Whole coding msg) :
    writeUnknown coding layout msg = writePieces coding (layout.unknown.get msg) := by
  rw [writeUnknown]
  split_ifs with preserves
  · rfl
  · rw [whole.written (Bool.eq_false_iff.mpr preserves)]
    rfl

namespace MessageClass.Fielded

variable (fielded : messages.Fielded coding layout)

include fielded

theorem byteSize_perm (msg : M) : messages.byteSize msg =
    sizeFields layout.fields msg + sizeUnknown coding layout msg := by
  obtain ⟨order, permuted, counts⟩ := fielded.byteSize_eq
  have same : sizeFields order msg = sizeFields layout.fields msg := (permuted.map _).sum_nat
  rw [counts, Layout.size, same, Nat.add_comm]

theorem length_serialize (msg : M) :
    (messages.serialize msg).length = messages.byteSize msg := by
  have known : (writeFields coding layout.fields msg).length = sizeFields layout.fields msg := by
    rw [writeFields, sizeFields, List.length_flatMap]
    exact congrArg List.sum (List.map_congr_left fun field member =>
      (fielded.layout_lawful.each field member).length_write fielded.layout_lawful.codes msg)
  have unknown : (writeUnknown coding layout msg).length = sizeUnknown coding layout msg := by
    rw [writeUnknown, sizeUnknown]
    split_ifs
    · rw [writePieces, List.length_flatMap]
      refine congrArg List.sum (List.map_congr_left fun piece _ => ?_)
      rw [List.length_append, fielded.layout_lawful.codes.length_writeTag]
    · rfl
  rw [fielded.serialize_eq, Layout.write, List.length_append, known, unknown, fielded.byteSize_perm]

theorem mergePartial_serialize (msg target : M) (rest : Bytes)
    (small : messages.byteSize msg < sizeLimit) (whole : messages.Whole msg)
    (valid : messages.Valid msg) :
    messages.mergePartial target (messages.serialize msg ++ rest) =
      messages.mergePartial (messages.mergeFrom msg target) rest := by
  obtain ⟨order, permuted, merges⟩ := fielded.mergeFrom_eq
  rw [fielded.byteSize_perm] at small
  rw [fielded.whole_eq] at whole
  rw [fielded.valid_eq] at valid
  rw [fielded.mergePartial_eq, fielded.serialize_eq, Layout.write, List.append_assoc,
    mergePartialFields_writeFields fielded.layout_lawful (fun _ => id) (by omega) whole.fields
      valid,
    whole.writeUnknown_eq, mergePartialFields_kept fielded.layout_lawful whole.kept, merges,
    Layout.assign, ← assignUnknown_assignFields fielded.layout_lawful permuted]
  rfl

theorem refuses (msg target : M) (rest : Bytes) (small : messages.byteSize msg < sizeLimit)
    (whole : messages.Whole msg) (invalid : ¬ messages.Valid msg) :
    messages.mergePartial target (messages.serialize msg ++ rest) = none := by
  rw [fielded.byteSize_perm] at small
  rw [fielded.whole_eq] at whole
  rw [fielded.valid_eq] at invalid
  rw [fielded.mergePartial_eq, fielded.serialize_eq, Layout.write, List.append_assoc]
  exact mergePartialFields_writeFields_refuses fielded.layout_lawful (fun _ => id) (by omega)
    whole.fields invalid target _

theorem mergeFrom_empty (msg : M) : messages.mergeFrom msg messages.empty = msg := by
  obtain ⟨order, permuted, merges⟩ := fielded.mergeFrom_eq
  have lawful := fielded.layout_lawful
  have nodup := Layout.Lawful.nodup lawful
  rw [merges, Layout.assign, ← assignUnknown_assignFields lawful permuted]
  refine lawful.ext _ _ (fun field member => ?_) ?_
  · rw [assignUnknown, (lawful.aside field member).get_set,
      get_assignFields lawful (fun _ => id) nodup member, fielded.get_empty field member,
      (lawful.each field member).kind.join_initial]
  · rw [assignUnknown, lawful.unknown.get_set, unknown_assignFields lawful fun _ => id,
      fielded.unknown_empty, List.nil_append]

/-- Such a class is lawful. -/
theorem lawful : messages.Lawful coding where
  length_serialize := fielded.length_serialize
  mergePartial_nil target := by
    rw [fielded.mergePartial_eq, mergePartialFields, mergeFields,
      fielded.layout_lawful.codes.readTag_nil]
  mergePartial_serialize := fielded.mergePartial_serialize
  refuses := fielded.refuses
  mergeFrom_empty := fielded.mergeFrom_empty
  valid_empty := by
    rw [fielded.valid_eq]
    intro field member
    rw [fielded.get_empty field member]
    exact (fielded.layout_lawful.each field member).kind.valid_initial
  whole_empty := by
    rw [fielded.whole_eq]
    refine Layout.whole_of_nil fielded.unknown_empty fun field member => ?_
    rw [fielded.get_empty field member]
    exact (fielded.layout_lawful.each field member).kind.whole_initial
  mergePartial_valid read valid := by
    rw [fielded.mergePartial_eq] at read
    rw [fielded.valid_eq] at valid ⊢
    exact mergePartialFields_valid fielded.layout_lawful read valid
  mergePartial_whole read preserves whole := by
    rw [fielded.mergePartial_eq] at read
    rw [fielded.whole_eq] at whole ⊢
    exact mergePartialFields_whole fielded.layout_lawful read preserves whole

/-- The pieces of a message are read in whatever order they come. -/
theorem parse_spells {text : List Piece} {msg : M}
    (spells : Spells coding layout messages.empty text msg) :
    messages.parse (writePieces coding text) = some msg := by
  have lawful := fielded.lawful
  have read := mergePartialFields_spells fielded.layout_lawful spells []
  rw [List.append_nil, ← fielded.mergePartial_eq, lawful.mergePartial_nil] at read
  rwa [parse_eq_some]

/-- The pieces that a message is written as spell it, in any order that leaves those of each field
in theirs. -/
theorem spells_of_shuffles {text : List Piece} {msg : M} (shuffles : Shuffles layout text msg)
    (small : messages.byteSize msg < sizeLimit) (whole : messages.Whole msg)
    (valid : messages.Valid msg) : Spells coding layout messages.empty text msg where
  tags := shuffles.tags
  fields field member := by
    have kind := (fielded.layout_lawful.each field member).kind
    rw [fielded.byteSize_perm] at small
    rw [fielded.whole_eq] at whole
    rw [fielded.valid_eq] at valid
    have part : field.size msg ≤ sizeFields layout.fields msg :=
      List.le_sum_of_mem (List.mem_map_of_mem member)
    have reads := kind.reads_payloads (field.place.get msg) field.kind.initial
      (show field.size msg < sizeLimit by omega) (whole.fields field member) (valid field member)
    rwa [kind.join_initial, ← shuffles.fields field member,
      ← fielded.get_empty field member] at reads
  unknown := by
    rw [fielded.whole_eq] at whole
    refine ⟨layout.unknown.get msg, by rw [fielded.unknown_empty, List.nil_append], ?_⟩
    rw [shuffles.unknown]
    exact List.forall₂_same.mpr fun piece member => ⟨rfl, (whole.kept piece member).skipped⟩

end MessageClass.Fielded

end Classes

end WireFormat
