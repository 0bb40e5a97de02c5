import Mathlib.Logic.Function.Basic
import QuintetRaft.Model.FileIO

/-!
# Programs that keep their data in files

A program registers names with a `File`, keeps a value or a vector under each of them, and may be
started again, when it has a new `File` and the files of before.  An exception leaves the `File`
and the files as they are, and the program goes on.
-/

namespace Quintet

/-- What a program does.  The values of a name have a type of their own; a call that reads comes
with what memory holds, and `getVector` with a number of turns for its loop. -/
inductive StoreCall (T : String → Type)
  | registerVar (name : String) (type : Int)
  | modify (name : String) (val : T name)
  | getValue (name : String) (memory : Memory)
  | append (name : String) (val : T name)
  | getVector (name : String) (memory : Nat → Memory) (turns : Nat)
  | pop (name : String) (memory : Memory)
  | clearFile (name : String)
  /-- The program is started again. -/
  | restart

/-- What a call returns. -/
inductive StoreAnswer (T : String → Type)
  | done
  | value (name : String) (val : T name)
  | vector (name : String) (vals : List (T name))

namespace File

variable {T : String → Type} (codec : (name : String) → Codec (T name))

/-- The outcome of a call that changes the disk. -/
def changing (state : File × Disk) (outcome : Except FileError Disk) :
    (File × Disk) × Option (Except FileError (StoreAnswer T)) :=
  match outcome with
  | .ok disk => ((state.1, disk), some (.ok .done))
  | .error error => (state, some (.error error))

/-- One call; no answer when the turns of a loop do not suffice. -/
def serve (state : File × Disk) :
    StoreCall T → (File × Disk) × Option (Except FileError (StoreAnswer T))
  | .registerVar name type =>
      match state.1.registerVar name type with
      | .ok file => ((file, state.2), some (.ok .done))
      | .error error => (state, some (.error error))
  | .modify name val => changing state (state.1.modify (codec name) name val state.2)
  | .getValue name memory =>
      (state, some ((state.1.getValue (codec name) name memory state.2).map (.value name)))
  | .append name val => changing state (state.1.append (codec name) name val state.2)
  | .getVector name memory turns =>
      (state, (state.1.getVector (codec name) name memory turns state.2).map
        fun outcome => outcome.map (.vector name))
  | .pop name memory => changing state (state.1.pop name memory state.2)
  | .clearFile name => ((state.1, clearFile name state.2), some (.ok .done))
  | .restart => (({}, state.2), some (.ok .done))

end File

/-! ## What the files are for -/

/-- What a name stands for. -/
inductive Stored (α : Type)
  | value (val : α)
  | vector (vals : List α)

namespace Stored

variable {α : Type}

/-- The type that is registered for it. -/
def type : Stored α → Int
  | .value _ => File.FILE_VALUE
  | .vector _ => File.FILE_VECTOR

/-- The elements of a vector. -/
def elements : Option (Stored α) → List α
  | some (.vector vals) => vals
  | _ => []

end Stored

/-- Names with their types and with what they stand for, which is of the registered type. -/
structure Store (T : String → Type) where
  /-- The registered types. -/
  types : String → Option Int
  /-- The values and vectors. -/
  contents : (name : String) → Option (Stored (T name))
  /-- They are of the registered type. -/
  agrees : ∀ (name : String) (type : Int), types name = some type →
    ∀ stored ∈ contents name, stored.type = type

namespace Store

variable {T : String → Type} (store : Store T) (name : String)

/-- Nothing is registered or stored. -/
def empty : Store T where
  types _ := none
  contents _ := none
  agrees := by simp

/-- A name is registered for the type of what it stands for. -/
def register (type : Int) (suits : ∀ stored ∈ store.contents name, stored.type = type) :
    Store T where
  types := Function.update store.types name (some type)
  contents := store.contents
  agrees other found registered stored member := by
    by_cases same : other = name
    · subst same
      rw [Function.update_self, Option.some.injEq] at registered
      exact registered ▸ suits stored member
    · rw [Function.update_of_ne same] at registered
      exact store.agrees other found registered stored member

/-- A name stands for something else, or for nothing. -/
def put (content : Option (Stored (T name)))
    (typed : ∀ stored ∈ content, store.types name = some stored.type) : Store T where
  types := store.types
  contents := Function.update store.contents name content
  agrees other found registered stored member := by
    by_cases same : other = name
    · subst same
      rw [Function.update_self] at member
      exact Option.some.inj ((typed stored member).symm.trans registered)
    · rw [Function.update_of_ne same] at member
      exact store.agrees other found registered stored member

/-- No name is registered any more. -/
def forget : Store T where
  types _ := none
  contents := store.contents
  agrees := by simp

/-- What is said of a name that is not registered for a type. -/
def complaint : FileError :=
  match store.types name with
  | none => .runtimeError ("\"" ++ name ++ "\" has not registered")
  | some _ => .runtimeError ("\"" ++ name ++ "\" type error")

/-- Go on if the name is registered for the type. -/
def checked (type : Int)
    (go : store.types name = some type → Store T × Option (Except FileError (StoreAnswer T))) :
    Store T × Option (Except FileError (StoreAnswer T)) :=
  if registered : store.types name = some type then go registered
  else (store, some (.error (store.complaint name)))

/-- One call, on names that stand for values and lists.  A name that stands for something of
another type is not registered here. -/
def serve : StoreCall T → Store T × Option (Except FileError (StoreAnswer T))
  | .registerVar name type =>
      if (store.types name).isSome then
        (store, some (.error (.runtimeError ("\"" ++ name ++ "\" has already registered"))))
      else if suits : ∀ stored ∈ store.contents name, stored.type = type then
        (store.register name type suits, some (.ok .done))
      else (store, none)
  | .modify name val =>
      store.checked name File.FILE_VALUE fun registered =>
        (store.put name (some (.value val)) (by simpa [Stored.type] using registered),
          some (.ok .done))
  | .getValue name _ =>
      store.checked name File.FILE_VALUE fun _ =>
        match store.contents name with
        | some (.value val) => (store, some (.ok (.value name val)))
        | _ => (store, some (.error (.runtimeError "cannot open file")))
  | .append name val =>
      store.checked name File.FILE_VECTOR fun registered =>
        (store.put name (some (.vector (Stored.elements (store.contents name) ++ [val])))
          (by simpa [Stored.type] using registered), some (.ok .done))
  | .getVector name _ _ =>
      store.checked name File.FILE_VECTOR fun _ =>
        match store.contents name with
        | some stored => (store, some (.ok (.vector name (Stored.elements (some stored)))))
        | none => (store, some (.error (.runtimeError "cannot open file")))
  | .pop name _ =>
      store.checked name File.FILE_VECTOR fun registered =>
        match store.contents name with
        | some stored =>
            (store.put name (some (.vector (Stored.elements (some stored)).dropLast))
              (by simpa [Stored.type] using registered), some (.ok .done))
        | none => (store, some (.error (.runtimeError "cannot open file")))
  | .clearFile name => (store.put name none (by simp), some (.ok .done))
  | .restart => (store.forget, some (.ok .done))

end Store

end Quintet
