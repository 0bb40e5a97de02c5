import QuintetRaft.Model.Configuration

/-!
# Saving and loading a configuration

`save` puts every id of the server list at the same path, so that `load` finds the last one only.
-/

namespace Quintet

open TextStream PropertyTree

variable {id : ServerId} {info fresh : FullServerInfo}

/-- An id that is one word and a number in the file. -/
def ServerId.Legal (id : ServerId) : Prop :=
  id.addr ≠ {} ∧ ∀ char ∈ id.addr.chars, isSpace char = false

theorem readAll_writeServerId (legal : id.Legal) :
    readAll readServerId (writeServerId id) = some id := by
  have text : (writeServerId id).toList =
      id.addr.chars ++ ([' '] ++ Nat.toDigits 10 id.port.toNat) := by
    simp only [writeServerId, String.toList_append, String.toList_ofList, Nat.toList_repr,
      List.append_assoc]
    rfl
  have word : readWord (writeServerId id).toList =
      some (id.addr.chars, [' '] ++ Nat.toDigits 10 id.port.toNat) := by
    rw [text]
    refine readWord_append (by simpa using legal.1) legal.2
      fun char head => ?_
    obtain rfl := Option.some.inj head
    rfl
  have number : readUnsigned UInt16.size ([' '] ++ Nat.toDigits 10 id.port.toNat) =
      some (id.port.toNat, []) :=
    readUnsigned_digits id.port.toNat_lt_size (List.forall_mem_singleton.mpr rfl)
  simp only [readAll, readServerId, word, number, bind, Option.bind, pure, ByteString.ofChars_chars,
    UInt16.ofNat_toNat, List.all_nil, if_true]

theorem readAll_writeUInt64 (value : UInt64) :
    readAll readUInt64 (writeUInt64 value) = some value := by
  have number : readUnsigned UInt64.size ([] ++ Nat.toDigits 10 value.toNat) =
      some (value.toNat, []) :=
    readUnsigned_digits value.toNat_lt_size (List.forall_mem_nil _)
  rw [List.nil_append, ← Nat.toList_repr] at number
  simp only [readAll, readUInt64, writeUInt64, number, bind, Option.bind, pure,
    UInt64.ofNat_toNat, List.all_nil, if_true]

namespace FullServerInfo

/-- The addresses are words, and there are servers. -/
structure Legal (info : FullServerInfo) : Prop where
  localId : info.localId.Legal
  srvList : ∀ id ∈ info.srvList, id.Legal
  nonempty : info.srvList ≠ []

/-- What comes back: the last server instead of all of them. -/
theorem load_save (legal : info.Legal) (unset : fresh.srvList = []) :
    fresh.load info.save =
      .ok { info with srvList := [info.srvList.getLast legal.nonempty] } := by
  obtain ⟨front, last, split⟩ := (List.eq_nil_or_concat' info.srvList).resolve_left legal.nonempty
  have lastLegal : last.Legal := legal.srvList last (by simp [split])
  have tree : info.save = .node ""
      [("local", .node "" [("address", .node (writeServerId info.localId) [])]),
        ("electionTimeout", .node (writeUInt64 info.electionTimeout) []),
        ("serverList", .node "" [("serverId", .node (writeServerId last) [])])] := by
    simp only [save, split, foldl_put]
    simp [put, upsert, PropertyTree.empty]
  have localId : getAt (readAll readServerId) ["local", "address"] info.save = .ok info.localId :=
    getAt_eq_ok (by rw [tree, child?_head, child?_head, child?_nil])
      (readAll_writeServerId legal.localId)
  have electionTimeout : getAt (readAll readUInt64) ["electionTimeout"] info.save =
      .ok info.electionTimeout :=
    getAt_eq_ok (by rw [tree, child?_tail (by decide), child?_head, child?_nil])
      (readAll_writeUInt64 info.electionTimeout)
  have serverList : getChild ["serverList"] info.save =
      .ok (.node "" [("serverId", .node (writeServerId last) [])]) := by
    rw [getChild, tree, child?_tail (by decide), child?_tail (by decide), child?_head, child?_nil]
  have value : getValue (readAll readServerId) (.node (writeServerId last) []) = .ok last :=
    getValue_eq_ok (readAll_writeServerId lastLegal)
  simp only [load, localId, electionTimeout, serverList, PropertyTree.children, List.mapM_cons,
    List.mapM_nil, value, unset, split, List.getLast_append_singleton, List.nil_append, bind,
    Except.bind, pure, Except.pure]

/-- The configuration comes back exactly when there is one server. -/
theorem load_save_iff (legal : info.Legal) (unset : fresh.srvList = []) :
    fresh.load info.save = .ok info ↔ info.srvList.length = 1 := by
  rw [load_save legal unset]
  constructor
  · intro same
    have lists : [info.srvList.getLast legal.nonempty] = info.srvList :=
      congrArg (fun info => info.srvList) (Except.ok.inj same)
    rw [← lists]
    rfl
  · intro one
    obtain ⟨id, single⟩ := List.length_eq_one_iff.mp one
    have last : [info.srvList.getLast legal.nonempty] = info.srvList := by simp [single]
    rw [last]

/-- A configuration of some servers on one host. -/
def onOneHost (ports : List Port) : FullServerInfo :=
  { localId := { addr := "localhost", port := 10001 }
    srvList := ports.map fun port => { addr := "localhost", port }
    electionTimeout := 150 }

theorem localhost_legal (port : Port) : ServerId.Legal { addr := "localhost", port } := by
  have named : ByteString.ofString "localhost" ≠ {} := by decide
  have solid : (ByteString.ofString "localhost").chars.all (! isSpace ·) = true := by decide
  exact ⟨named, fun char member => by simpa using List.all_eq_true.mp solid char member⟩

theorem onOneHost_legal {ports : List Port} (nonempty : ports ≠ []) : (onOneHost ports).Legal where
  localId := localhost_legal _
  srvList id member := by
    obtain ⟨port, -, rfl⟩ := List.mem_map.mp member
    exact localhost_legal port
  nonempty := by simpa [onOneHost] using nonempty

theorem load_save_iff_single :
    (onOneHost []).load (onOneHost [10001]).save = .ok (onOneHost [10001]) ↔
      (onOneHost [10001]).srvList.length = 1 :=
  load_save_iff (onOneHost_legal (by decide)) rfl

/-- Of three servers the last one is left. -/
theorem load_save_counterexample :
    (onOneHost [10001, 10002, 10003]).Legal ∧
      (onOneHost []).load (onOneHost [10001, 10002, 10003]).save = .ok (onOneHost [10003]) ∧
      onOneHost [10003] ≠ onOneHost [10001, 10002, 10003] :=
  ⟨onOneHost_legal (by decide), load_save (onOneHost_legal (by decide)) rfl, by decide⟩

end FullServerInfo

end Quintet
