import Mathlib.Tactic.Lemma

/-!
# Messages of a task

`EdMsg`, the parameters of the two posting functions of `EdTask`, and what each
of them writes into the message slot it is given.
-/

namespace EdNio.Task

/-- Address of an `EdMsg` node obtained from `EdObjList<EdMsg>::allocObj`. -/
abbrev Slot := Nat

/-- One activation of `postEdMsg` or `sendEdMsg`. The addresses of its locals
`result`, `cv` and `mtx` are represented by the activation itself. -/
abbrev CallId := Nat

/-- An object owned through a `upEdMsgObj`. -/
abbrev MsgObj := Nat

def EDM_INIT : UInt16 := 1
def EDM_EXIT : UInt16 := 5

/-- `data` is the union of `p1`/`p2`, `obj` and `data`. -/
structure EdMsg where
  msgid : UInt16
  data : UInt64
  msgobj : Option MsgObj
  taskque_handle : UInt32
  sync : Int
  psend_result : Option CallId
  pcv : Option CallId
  pmtx : Option CallId
deriving DecidableEq, Repr

/-- The value-initialized `EdMsg` of `new Node()`. -/
def EdMsg.zero : EdMsg :=
  { msgid := 0, data := 0, msgobj := none, taskque_handle := 0, sync := 0,
    psend_result := none, pcv := none, pmtx := none }

/-- The fields of a message that a handler can read. -/
structure View where
  msgid : UInt16
  data : UInt64
  msgobj : Option MsgObj
  taskque_handle : UInt32
deriving DecidableEq, Repr

def EdMsg.view (m : EdMsg) : View :=
  ⟨m.msgid, m.data, m.msgobj, m.taskque_handle⟩

/-- A handler may write the public fields of its message. -/
def EdMsg.setView (m : EdMsg) (v : View) : EdMsg :=
  { m with msgid := v.msgid, data := v.data, msgobj := v.msgobj, taskque_handle := v.taskque_handle }

inductive Api
  | postEdMsg
  | sendEdMsg
deriving DecidableEq, Repr

/-- Parameters of `postEdMsg`/`sendEdMsg`: `data` and `msgobj` are the fields of the
caller's `tmsg`, of which `type` selects one. -/
structure CallArgs where
  api : Api
  handle : UInt32
  msgid : UInt16
  data : UInt64
  msgobj : Option MsgObj
  type : Int
deriving DecidableEq, Repr

/-- The union read as `data` after `p1` and `p2` were written (little endian). -/
def OBJECT_MSG (p1 p2 : UInt32) : UInt64 :=
  p1.toUInt64 ||| (p2.toUInt64 <<< 32)

def postMsg (msgid : UInt16) (p1 p2 : UInt32) : CallArgs :=
  ⟨.postEdMsg, 0, msgid, OBJECT_MSG p1 p2, none, 0⟩

/-- `postObj(u16, void*)`. -/
def postObj (msgid : UInt16) (obj : UInt64) : CallArgs :=
  ⟨.postEdMsg, 0, msgid, obj, none, 0⟩

/-- `postObj(u16, upEdMsgObj)`; `tmsg.data` is not read for `type` 1. -/
def postMsgObj (msgid : UInt16) (obj : Option MsgObj) : CallArgs :=
  ⟨.postEdMsg, 0, msgid, 0, obj, 1⟩

def sendMsg (msgid : UInt16) (p1 p2 : UInt32) : CallArgs :=
  ⟨.sendEdMsg, 0, msgid, OBJECT_MSG p1 p2, none, 0⟩

/-- `sendObj(u16, void*)`. -/
def sendObj (msgid : UInt16) (obj : UInt64) : CallArgs :=
  ⟨.sendEdMsg, 0, msgid, obj, none, 0⟩

/-- `sendObj(u16, upEdMsgObj)`. -/
def sendMsgObj (msgid : UInt16) (obj : Option MsgObj) : CallArgs :=
  ⟨.sendEdMsg, 0, msgid, 0, obj, 1⟩

def postTaskMsgQue (handle : UInt32) (msgid : UInt16) (p1 p2 : UInt32) : CallArgs :=
  ⟨.postEdMsg, handle, msgid, OBJECT_MSG p1 p2, none, 0⟩

def sendTaskMsgQue (handle : UInt32) (msgid : UInt16) (p1 p2 : UInt32) : CallArgs :=
  ⟨.sendEdMsg, handle, msgid, OBJECT_MSG p1 p2, none, 0⟩

def postTaskMsgObj (handle : UInt32) (msgid : UInt16) (obj : UInt64) : CallArgs :=
  ⟨.postEdMsg, handle, msgid, obj, none, 0⟩

def sendTaskMsgObj (handle : UInt32) (msgid : UInt16) (obj : UInt64) : CallArgs :=
  ⟨.sendEdMsg, handle, msgid, obj, none, 0⟩

/-- The payload assignment shared by both functions: one of `data` and `msgobj`. -/
def EdMsg.setPayload (m : EdMsg) (a : CallArgs) : EdMsg :=
  if a.type = 0 then { m with data := a.data } else { m with msgobj := a.msgobj }

/-- What `postEdMsg` writes into the slot `allocMsgObj` returned. -/
def EdMsg.fillPost (m : EdMsg) (a : CallArgs) : EdMsg :=
  let m := { m with msgid := a.msgid }
  let m := m.setPayload a
  { m with sync := 0, taskque_handle := a.handle }

/-- What `sendEdMsg`, activated as `c`, writes into the slot `allocMsgObj` returned. -/
def EdMsg.fillSend (m : EdMsg) (c : CallId) (a : CallArgs) : EdMsg :=
  let m := { m with taskque_handle := a.handle, pcv := some c, pmtx := some c, msgid := a.msgid }
  let m := m.setPayload a
  { m with sync := 1, psend_result := some c }

section Fill

variable (m : EdMsg) (c : CallId) (a : CallArgs)

@[simp] lemma EdMsg.setPayload_private : (m.setPayload a).msgid = m.msgid ∧
    (m.setPayload a).taskque_handle = m.taskque_handle ∧ (m.setPayload a).sync = m.sync ∧
    (m.setPayload a).psend_result = m.psend_result ∧ (m.setPayload a).pcv = m.pcv ∧
    (m.setPayload a).pmtx = m.pmtx := by
  unfold EdMsg.setPayload
  split <;> simp

@[simp] lemma EdMsg.fillPost_sync : (m.fillPost a).sync = 0 := rfl

@[simp] lemma EdMsg.fillSend_sync : (m.fillSend c a).sync = 1 := rfl

@[simp] lemma EdMsg.fillSend_psend_result : (m.fillSend c a).psend_result = some c := rfl

@[simp] lemma EdMsg.fillSend_pcv : (m.fillSend c a).pcv = some c := by
  simp [EdMsg.fillSend]

@[simp] lemma EdMsg.fillSend_pmtx : (m.fillSend c a).pmtx = some c := by
  simp [EdMsg.fillSend]

end Fill

end EdNio.Task
