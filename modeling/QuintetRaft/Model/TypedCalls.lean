import QuintetRaft.Model.ClientThreads

/-!
# Typed calls

`Serialization.h` and the templates of `Interface.h`: operations are called with arguments of any
types that can be put into an archive, and the functions that are bound take arguments of such
types.  The types are not put into the archive, so they are not checked when it is read.
-/

namespace Quintet

/-- The text archives of Boost, for the types whose values they hold. -/
structure TextArchives (Ty : Type) where
  /-- The values of a type. -/
  Value : Ty → Type
  /-- The output archives. -/
  OArchive : Type
  /-- The input archives. -/
  IArchive : Type
  /-- A new output archive. -/
  textOArchive : OArchive
  /-- A value is put into an output archive. -/
  put : (type : Ty) → Value type → OArchive → OArchive
  /-- The text that is there when an output archive is closed. -/
  str : OArchive → ByteString
  /-- An input archive that reads a text; it may throw. -/
  textIArchive : ByteString → Option IArchive
  /-- A value is read from an input archive, which may throw. -/
  get : (type : Ty) → IArchive → Option (Value type × IArchive)

namespace TextArchives

/-- `hana::tuple<Args...>`. -/
inductive Tuple {Ty : Type} (archives : TextArchives Ty) : List Ty → Type
  /-- No elements. -/
  | nil : Tuple archives []
  /-- An element and the rest. -/
  | cons {type : Ty} {types : List Ty} (element : archives.Value type)
      (rest : Tuple archives types) : Tuple archives (type :: types)

variable {Ty : Type} (archives : TextArchives Ty)

/-- An argument of a call. -/
abbrev Arg := (type : Ty) × archives.Value type

/-- `serialize_impl`. -/
def serializeImpl : List archives.Arg → archives.OArchive → archives.OArchive
  | [], oa => oa
  | ⟨type, x⟩ :: args, oa => serializeImpl args (archives.put type x oa)

/-- `serialize`. -/
def serialize (args : List archives.Arg) : ByteString :=
  archives.str (archives.serializeImpl args archives.textOArchive)

/-- The loop of `deserialize` over the elements of the tuple. -/
def readElements : (types : List Ty) → archives.IArchive → Option (archives.Tuple types)
  | [], _ => some .nil
  | type :: types, ia => do
      let (element, ia) ← archives.get type ia
      let rest ← readElements types ia
      some (.cons element rest)

/-- `deserialize<Args...>`. -/
def deserialize (types : List Ty) (str : ByteString) : Option (archives.Tuple types) := do
  let ia ← archives.textIArchive str
  archives.readElements types ia

/-- The first arguments of a call, when they have the given types. -/
def firstArgs [DecidableEq Ty] : (types : List Ty) → List archives.Arg →
    Option (archives.Tuple types)
  | [], _ => some .nil
  | _ :: _, [] => none
  | type :: types, ⟨type', x⟩ :: args =>
      if same : type' = type then (firstArgs types args).map (.cons (same ▸ x)) else none

end TextArchives

/-- A function on the data of an application, as it is given to `Interface::bind`. -/
structure BoundFunction {Ty : Type} (archives : TextArchives Ty) (App Any : Type) where
  /-- The types of its arguments. -/
  types : List Ty
  /-- The function. -/
  rawF : archives.Tuple types → App → App × Any

namespace BoundFunction

variable {Ty App Any : Type} {archives : TextArchives Ty}

/-- The function that `Interface::bindImpl` makes of it; an exception gives nothing. -/
def impl (f : BoundFunction archives App Any) (rawArgs : ByteString) (app : App) :
    App × Option Any :=
  match archives.deserialize f.types rawArgs with
  | none => (app, none)
  | some tup => ((f.rawF tup app).1, some (f.rawF tup app).2)

end BoundFunction

/-- The functions of an interface under their names. -/
abbrev Bindings {Ty : Type} (archives : TextArchives Ty) (App Any : Type) :=
  List (ByteString × BoundFunction archives App Any)

namespace Bindings

variable {Ty App Any : Type} {archives : TextArchives Ty}

/-- `Interface::bind`: a name that is already bound stays as it is. -/
def bind (fs : Bindings archives App Any) (binding : ByteString × BoundFunction archives App Any) :
    Bindings archives App Any :=
  if (fs.lookup binding.1).isSome then fs else fs ++ [binding]

/-- The operations that are there after several calls of `bind`. -/
def operations (binds : Bindings archives App Any) : Operations App (Option Any) := fun opName =>
  ((binds.foldl bind []).lookup opName).map BoundFunction.impl

end Bindings

/-- A call as the client makes it. -/
structure TypedCall {Ty : Type} (archives : TextArchives Ty) where
  /-- The operation. -/
  opName : ByteString
  /-- Its arguments. -/
  args : List archives.Arg
  /-- The promise. -/
  prmIdx : PrmIdx
  /-- The server. -/
  srvId : ServerId

/-- The server and the promise that name a call. -/
def TypedCall.key {Ty : Type} {archives : TextArchives Ty} (call : TypedCall archives) :
    ServerId × PrmIdx :=
  (call.srvId, call.prmIdx)

/-- The entry that becomes of a call. -/
def TypedCall.toBasic {Ty : Type} {archives : TextArchives Ty} (call : TypedCall archives) :
    BasicLogEntry :=
  { opName := call.opName, args := archives.serialize call.args, prmIdx := call.prmIdx,
    srvId := call.srvId }

/-- The system with what the clients see of typed calls. -/
structure TypedSystem {Ty : Type} (archives : TextArchives Ty) (App Any : Type) where
  /-- The system. -/
  system : ThreadedSystem App (Option Any)
  /-- History: what the clients have seen, oldest first. -/
  seen : List (Linearizability.Event (TypedCall archives) (ServerId × PrmIdx) Any) := []

/-- What can happen. -/
inductive TypedAction {Ty : Type} (archives : TextArchives Ty)
  /-- A client of a server makes a call. -/
  | asyncCall (id : ServerId) (opName : ByteString) (args : List archives.Arg)
  /-- Anything else. -/
  | other (action : ThreadedAction)

namespace TypedSystem

variable {Ty App Any : Type} {archives : TextArchives Ty}

/-- All servers have made the same calls of `bind`. -/
def init (binds : Bindings archives App Any) (start : App) : TypedSystem archives App Any where
  system := ThreadedSystem.init (fun _ => binds.operations) fun _ => start

/-- The value of a promise. -/
def responded : CallEvent (Option Any) →
    Option (Linearizability.Event (TypedCall archives) (ServerId × PrmIdx) Any)
  | .respond key (some value) => some (.respond key value)
  | _ => none

/-- One step. -/
def step (config : ClusterConfig) (before : TypedSystem archives App Any) :
    TypedAction archives → Option (TypedSystem archives App Any)
  | .asyncCall id opName args =>
      let prmIdx := (before.system.interfaces id).curPrmIdx
      (before.system.step config
        (.interface id (.asyncCall opName (archives.serialize args)))).map fun system =>
          { system, seen := before.seen ++ [.invoke { opName, args, prmIdx, srvId := id }] }
  | .other action =>
      if action.IsCall then none
      else
        (before.system.step config action).map fun system =>
          { system
            seen := before.seen ++
              (system.seen.drop before.system.seen.length).filterMap responded }

/-- The application as a single object with typed operations. -/
def object [DecidableEq Ty] (binds : Bindings archives App Any) (start : App) :
    Linearizability.Object (TypedCall archives) (ServerId × PrmIdx) App Any where
  key := TypedCall.key
  start := start
  perform call app :=
    match binds.lookup call.opName with
    | none => (app, none)
    | some f =>
        match archives.firstArgs f.types call.args with
        | none => (app, none)
        | some tup => ((f.rawF tup app).1, some (f.rawF tup app).2)

end TypedSystem

end Quintet
