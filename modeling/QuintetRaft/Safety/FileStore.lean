import QuintetRaft.Library.Machine
import QuintetRaft.Model.FileStore
import QuintetRaft.Safety.FileVectors

/-!
# Files hold values and lists

Whatever a program does with a `File`, also when it is started again, it gets the answers of a store
that keeps a value or a list under every name, as long as no vector outgrows its length field,
files are registered for what they hold, and the bytes that are read from the buffers, up to the
first zero, are those of the values.
-/

namespace Quintet

namespace File

variable {T : String → Type} {codec : (name : String) → Codec (T name)} {state : File × Disk}
  {store : Store T} {name : String} {type : Int}

/-! ## Calls write one file -/

section Frames

variable {α : Type} {data : Codec α} {file : File} {disk after : Disk} {val : α} {memory : Memory}

theorem fileName_injective : Function.Injective fileName := fun _ _ same =>
  (String.append_left_inj ".bin").mp same

/-- Other files are left alone. -/
def Frames (name : String) (before after : Disk) : Prop :=
  ∀ other, other ≠ name → after (fileName other) = before (fileName other)

theorem frames_store (disk : Disk) (name : String) (stream : FileStream) :
    Frames name disk (File.store disk name stream) := by
  intro other apart
  simp [File.store, fileName_injective.ne apart]

theorem frames_clearFile (disk : Disk) (name : String) :
    Frames name disk (clearFile name disk) := by
  intro other apart
  simp [clearFile, fileName_injective.ne apart]

theorem frames_append (registered : file.vars name = some FILE_VECTOR)
    (made : file.append data name val disk = .ok after) : Frames name disk after := by
  simp only [append, checkVar_of_registered registered] at made
  obtain rfl := Except.ok.inj made
  exact frames_store disk name _

theorem frames_pop (registered : file.vars name = some FILE_VECTOR)
    (made : file.pop name memory disk = .ok after) : Frames name disk after := by
  simp only [pop, checkVar_of_registered registered] at made
  cases present : disk (fileName name) with
  | none =>
      rw [present] at made
      cases made
  | some content =>
      rw [present] at made
      obtain rfl := Except.ok.inj made
      exact frames_store disk name _

end Frames

/-! ## What the files stand for -/

/-- A file stands for a value, a vector, or nothing. -/
def StandsFor {α : Type} (data : Codec α) (file : Option (List UInt8)) :
    Option (Stored α) → Prop
  | none => file = none
  | some (.value val) => file = some (data.serialize val)
  | some (.vector vals) => ∃ content, file = some content ∧ Holds content (vals.map data.serialize)

/-- A `File` and the disk represent a store. -/
structure Represents (codec : (name : String) → Codec (T name)) (state : File × Disk)
    (store : Store T) : Prop where
  /-- The names are registered alike. -/
  types : state.1.vars = store.types
  /-- The files stand for what is stored. -/
  files : ∀ name, StandsFor (codec name) (state.2 (fileName name)) (store.contents name)

namespace Represents

theorem put (represents : Represents codec state store) {content : Option (Stored (T name))}
    {typed : ∀ stored ∈ content, store.types name = some stored.type} {after : Disk}
    (frames : Frames name state.2 after)
    (stands : StandsFor (codec name) (after (fileName name)) content) :
    Represents codec (state.1, after) (store.put name content typed) where
  types := represents.types
  files other := by
    dsimp only [Store.put]
    by_cases same : other = name
    · subst same
      rw [Function.update_self]
      exact stands
    · rw [Function.update_of_ne same, frames other same]
      exact represents.files other

/-- A vector that is registered is one, if there is anything. -/
theorem vector (represents : Represents codec state store)
    (registered : store.types name = some FILE_VECTOR) :
    store.contents name = none ∧ state.2 (fileName name) = none ∨
      ∃ vals, store.contents name = some (.vector vals) ∧
        Stores state.2 name (vals.map (codec name).serialize) := by
  have stands := represents.files name
  cases content : store.contents name with
  | none =>
      rw [content] at stands
      exact .inl ⟨rfl, stands⟩
  | some stored =>
      rw [content] at stands
      cases stored with
      | value val =>
          have other := store.agrees name FILE_VECTOR registered (.value val) content
          exact absurd other (show ¬ FILE_VALUE = FILE_VECTOR by decide)
      | vector vals => exact .inr ⟨vals, rfl, stands⟩

/-- So is a value. -/
theorem value (represents : Represents codec state store)
    (registered : store.types name = some FILE_VALUE) :
    store.contents name = none ∧ state.2 (fileName name) = none ∨
      ∃ val, store.contents name = some (.value val) ∧
        state.2 (fileName name) = some ((codec name).serialize val) := by
  have stands := represents.files name
  cases content : store.contents name with
  | none =>
      rw [content] at stands
      exact .inl ⟨rfl, stands⟩
  | some stored =>
      rw [content] at stands
      cases stored with
      | vector vals =>
          have other := store.agrees name FILE_VALUE registered (.vector vals) content
          exact absurd other (show ¬ FILE_VECTOR = FILE_VALUE by decide)
      | value val => exact .inr ⟨val, rfl, stands⟩

/-- The check of a name that is not registered for the type fails as the store says. -/
theorem checkVar (represents : Represents codec state store)
    (unregistered : store.types name ≠ some type) :
    state.1.checkVar name type = .error (store.complaint name) := by
  unfold File.checkVar Store.complaint
  rw [represents.types]
  cases found : store.types name with
  | none => rfl
  | some other =>
      have differs : other ≠ type := fun same => unregistered (found.trans (congrArg some same))
      simp [differs]

end Represents

/-! ## The answers -/

/-- What a value is read from is read as the value. -/
def ReadBack {α : Type} (data : Codec α) (memory : Memory) : Option (Stored α) → Prop
  | some (.value val) => data.fromBuffer memory (data.serialize val) = some val
  | _ => True

/-- The calls on which files do what the store does. -/
def Permits (codec : (name : String) → Codec (T name)) (store : Store T) : StoreCall T → Prop
  | .registerVar name type =>
      store.types name = none → ∀ stored ∈ store.contents name, stored.type = type
  | .getValue name memory => ReadBack (codec name) memory (store.contents name)
  | .append name val =>
      recordedLength ((Stored.elements (store.contents name) ++ [val]).map
        (codec name).serialize) < 2 ^ 31
  | .getVector name memory turns =>
      (Stored.elements (store.contents name)).length < turns ∧
        EachReadBack (codec name) memory 0 (Stored.elements (store.contents name))
  | _ => True

instance {α : Type} [DecidableEq α] (data : Codec α) (memory : Memory) :
    (content : Option (Stored α)) → Decidable (ReadBack data memory content)
  | some (.value _) => inferInstanceAs (Decidable (_ = _))
  | some (.vector _) | none => .isTrue trivial

instance [∀ name, DecidableEq (T name)] (codec : (name : String) → Codec (T name))
    (store : Store T) : (call : StoreCall T) → Decidable (Permits codec store call)
  | .registerVar _ _ => inferInstanceAs (Decidable (_ → _))
  | .getValue _ _ => inferInstanceAs (Decidable (ReadBack _ _ _))
  | .append _ _ => inferInstanceAs (Decidable (_ < _))
  | .getVector _ _ _ => inferInstanceAs (Decidable (_ ∧ _))
  | .modify _ _ | .pop _ _ | .clearFile _ | .restart => .isTrue trivial

/-- A call is answered alike, and the files represent the store afterwards. -/
def AnswersAlike (codec : (name : String) → Codec (T name)) (state : File × Disk) (store : Store T)
    (call : StoreCall T) : Prop :=
  (serve codec state call).2 = (store.serve call).2 ∧
    Represents codec (serve codec state call).1 (store.serve call).1

/-- A call that checks its name first is answered alike when it is refused as the store says, and
goes on as the store does otherwise. -/
theorem answersAlike_of_checked {call : StoreCall T}
    {go : store.types name = some type → Store T × Option (Except FileError (StoreAnswer T))}
    (represents : Represents codec state store)
    (checks : store.serve call = store.checked name type go)
    (refused : state.1.checkVar name type = .error (store.complaint name) →
      serve codec state call = (state, some (.error (store.complaint name))))
    (goesOn : ∀ registered : store.types name = some type, state.1.vars name = some type →
      (serve codec state call).2 = (go registered).2 ∧
        Represents codec (serve codec state call).1 (go registered).1) :
    AnswersAlike codec state store call := by
  unfold AnswersAlike
  rw [checks, Store.checked]
  split_ifs with registered
  · exact goesOn registered (by rw [represents.types, registered])
  · rw [refused (represents.checkVar registered)]
    exact ⟨rfl, represents⟩

namespace Represents

theorem registerVar (represents : Represents codec state store)
    (suits : store.types name = none → ∀ stored ∈ store.contents name, stored.type = type) :
    AnswersAlike codec state store (.registerVar name type) := by
  cases known : store.types name with
  | some other =>
      simp [AnswersAlike, serve, File.registerVar, Store.serve, represents.types, known, represents]
  | none =>
      simp only [AnswersAlike, serve, File.registerVar, Store.serve, represents.types, known,
        Option.isSome_none, Bool.false_eq_true, if_false, dif_pos (suits known), true_and]
      exact
        { types := by
            funext other
            simp [Store.register, Function.update_apply]
          files := represents.files }

theorem modify (represents : Represents codec state store) (val : T name) :
    AnswersAlike codec state store (.modify name val) := by
  refine answersAlike_of_checked represents rfl (fun refused => ?_) fun registered known => ?_
  · simp only [serve, File.modify, refused]
    rfl
  · simp only [serve, File.modify, checkVar_of_registered known, changing]
    refine ⟨rfl, represents.put (frames_store _ _ _) ?_⟩
    simp [StandsFor, FileStream.write]

theorem getValue (represents : Represents codec state store) {memory : Memory}
    (readBack : ReadBack (codec name) memory (store.contents name)) :
    AnswersAlike codec state store (.getValue name memory) := by
  refine answersAlike_of_checked represents rfl (fun refused => ?_) fun registered known => ?_
  · simp only [serve, File.getValue, refused]
    rfl
  · rcases represents.value registered with ⟨nothing, absent⟩ | ⟨val, something, present⟩
    · simp only [serve, File.getValue, checkVar_of_registered known, absent, nothing]
      exact ⟨rfl, represents⟩
    · rw [something] at readBack
      have read : (codec name).fromBuffer memory ((codec name).serialize val) = some val := readBack
      simp only [serve, File.getValue, checkVar_of_registered known, present, read, something]
      exact ⟨rfl, represents⟩

theorem append (represents : Represents codec state store) {val : T name}
    (small : recordedLength ((Stored.elements (store.contents name) ++ [val]).map
      (codec name).serialize) < 2 ^ 31) :
    AnswersAlike codec state store (.append name val) := by
  refine answersAlike_of_checked represents rfl (fun refused => ?_) fun registered known => ?_
  · simp only [serve, File.append, refused]
    rfl
  · have made : ∃ after, state.1.append (codec name) name val state.2 = .ok after ∧
        Stores after name ((Stored.elements (store.contents name) ++ [val]).map
          (codec name).serialize) := by
      rw [List.map_append, List.map_singleton] at small ⊢
      rcases represents.vector registered with ⟨nothing, absent⟩ | ⟨vals, something, stores⟩
      · rw [nothing] at small ⊢
        exact append_of_opened (codec name) val known (openAppend_of_absent absent) holds_nil small
      · rw [something] at small ⊢
        obtain ⟨content, present, holds⟩ := stores
        exact append_of_opened (codec name) val known (openAppend_of_stores present holds) holds
          small
    obtain ⟨after, done, stores⟩ := made
    simp only [serve, done, changing]
    exact ⟨trivial, represents.put (frames_append known done) stores⟩

theorem getVector (represents : Represents codec state store) {memory : Nat → Memory} {turns : Nat}
    (enough : (Stored.elements (store.contents name)).length < turns)
    (readBack : EachReadBack (codec name) memory 0 (Stored.elements (store.contents name))) :
    AnswersAlike codec state store (.getVector name memory turns) := by
  refine answersAlike_of_checked represents rfl (fun refused => ?_) fun registered known => ?_
  · simp only [serve, File.getVector, refused]
    rfl
  · rcases represents.vector registered with ⟨nothing, absent⟩ | ⟨vals, something, stores⟩
    · simp only [serve, File.getVector, checkVar_of_registered known, absent, nothing]
      exact ⟨rfl, represents⟩
    · rw [something] at enough readBack
      have read := (getVector_eq_ok_iff known stores memory enough).mpr readBack
      simp only [serve, read, something]
      exact ⟨rfl, represents⟩

theorem pop (represents : Represents codec state store) (memory : Memory) :
    AnswersAlike codec state store (.pop name memory) := by
  refine answersAlike_of_checked represents rfl (fun refused => ?_) fun registered known => ?_
  · simp only [serve, File.pop, refused]
    rfl
  · rcases represents.vector registered with ⟨nothing, absent⟩ | ⟨vals, something, stores⟩
    · simp only [serve, File.pop, checkVar_of_registered known, absent, changing, nothing]
      exact ⟨rfl, represents⟩
    · obtain ⟨after, done, stores⟩ := pop_stores known stores memory
      rw [← List.map_dropLast] at stores
      simp only [serve, done, changing, something]
      exact ⟨trivial, represents.put (frames_pop known done) stores⟩

end Represents

/-- Files do what the store does, call by call. -/
theorem refines_store (codec : (name : String) → Codec (T name)) :
    Machine.Refines (serve codec) Store.serve (Permits codec) (Represents codec) := by
  intro state store call represents permitted
  cases call with
  | registerVar name type => exact represents.registerVar permitted
  | modify name val => exact represents.modify val
  | getValue name memory => exact represents.getValue permitted
  | append name val => exact represents.append permitted
  | getVector name memory turns => exact represents.getVector permitted.1 permitted.2
  | pop name memory => exact represents.pop memory
  | clearFile name =>
      have gone : StandsFor (codec name) (clearFile name state.2 (fileName name)) none :=
        clearFile_fileName name state.2
      simp only [serve, Store.serve]
      exact ⟨trivial, represents.put (frames_clearFile state.2 name) gone⟩
  | restart => exact ⟨rfl, ⟨rfl, represents.files⟩⟩

theorem represents_empty (codec : (name : String) → Codec (T name)) :
    Represents codec ({}, noFiles) Store.empty := ⟨rfl, fun _ => rfl⟩

/-- A program that starts without files gets the answers of an empty store. -/
theorem answers_eq {calls : List (StoreCall T)}
    (permitted : Machine.Permitted Store.serve (Permits codec) calls Store.empty) :
    (Machine.run (serve codec) calls ({}, noFiles)).2 =
      (Machine.run Store.serve calls Store.empty).2 :=
  ((refines_store codec).run (represents_empty codec) permitted).1

/-- A program with a value and a vector, which is started again and then finds both. -/
def session : List (StoreCall fun _ => Bool) :=
  [.registerVar "valueTest" FILE_VALUE, .registerVar "vectorTest" FILE_VECTOR,
    .modify "valueTest" true, .append "vectorTest" true, .append "vectorTest" false,
    .pop "vectorTest" (.filled 0), .pop "valueTest" (.filled 0), .restart,
    .getValue "valueTest" (.filled 0), .registerVar "valueTest" FILE_VALUE,
    .registerVar "vectorTest" FILE_VECTOR,
    .getValue "valueTest" (.filled 0), .getVector "vectorTest" (fun _ => .filled 0) 2]

theorem answers_eq_session :
    (Machine.run Store.serve session Store.empty).2.drop 6 =
        [some (.error (.runtimeError "\"valueTest\" type error")), some (.ok .done),
          some (.error (.runtimeError "\"valueTest\" has not registered")), some (.ok .done),
          some (.ok .done), some (.ok (.value "valueTest" true)),
          some (.ok (.vector "vectorTest" [true]))] ∧
      (Machine.run (serve fun _ => boolCodec) session ({}, noFiles)).2 =
        (Machine.run Store.serve session Store.empty).2 :=
  ⟨rfl, answers_eq (by decide)⟩

end File

end Quintet
