import Privana.PassiveCalls
import Privana.Typestate

/-! The processor in front of its destination chains. A node files what it accepts under
the hash of the raw bytes; what was accepted may be mined, with a status, or never. A
reply may be lost after the node has accepted, and a node may lag behind its chain. -/

namespace Privana
open BigEndian ServiceOp

/-- An operation of a task, with its reply. -/
structure Answered where
  op : ServiceOp
  reply : Except ServiceError op.Reply

structure BroadcastWorld where
  service : ServiceWorld
  /-- Which task asked what outside the process, the latest first. -/
  calls : List (ℕ × Answered) := []
  accepted : List (U256 × Bytes) := []
  /-- How many transactions of the signing address a chain has mined. -/
  mined : U256 → ℕ := fun _ => 0
  receipts : U256 → Bytes32 → Option ℕ := fun _ _ => none

namespace BroadcastWorld

def accept (w : BroadcastWorld) (chainId : U256) (raw : Bytes) : BroadcastWorld :=
  { w with accepted := (chainId, raw) :: w.accepted }

def record (w : BroadcastWorld) (task : ℕ) (op : ServiceOp)
    (reply : Except ServiceError op.Reply) : BroadcastWorld :=
  if op.isMemory then w else { w with calls := (task, ⟨op, reply⟩) :: w.calls }

/-- `resolveWithdrawal(index)` has returned these bytes. -/
def Returned (w : BroadcastWorld) (index : ℕ) (raw : Bytes) : Prop :=
  ∃ task, (task, ⟨resolveWithdrawalCall index, .ok raw⟩) ∈ w.calls

end BroadcastWorld

inductive BroadcastAnswer where
  | service (answer : Answer)
  /-- The node accepts the transaction, and its reply arrives or not. -/
  | accepts (arrives : Bool)

def nodePerform (P : Platform) (task : ℕ) : (op : ServiceOp) → BroadcastAnswer → BroadcastWorld →
    Option (Except ServiceError op.Reply × BroadcastWorld)
  | .sendRawTransaction chainId raw, .accepts arrives, w =>
    some (if arrives then .ok (P.keccak256 raw) else .error .rpcError, w.accept chainId raw)
  | .sendRawTransaction .., .service .fail, w => some (.error .rpcError, w)
  | .sendRawTransaction .., .service _, _ => none
  | .transactionReceipt chainId hash, .service (.number status), w =>
    if w.receipts chainId hash = some status then some (.ok status, w) else none
  | op, .service answer, w =>
    (servicePerform P task op answer w.service).map fun r => (r.1, { w with service := r.2 })
  | _, .accepts _, _ => none

inductive BroadcastMove where
  | service (e : ServiceMove)
  /-- The next transaction of the signing address is mined. -/
  | mine (chainId : U256) (raw : Bytes) (status : ℕ)
  /-- The end of `stop()`. -/
  | cleared

def ServiceWorld.cleared (w : ServiceWorld) : ServiceWorld :=
  { w with chainHighWaterMark := fun _ => none, lastBroadcastHash := fun _ _ => none }

def BroadcastWorld.mine (P : Platform) (w : BroadcastWorld) (chainId : U256) (raw : Bytes)
    (status : ℕ) : BroadcastWorld :=
  let receipts := Function.update (w.receipts chainId) (P.keccak256 raw) (some status)
  { w with
    mined := Function.update w.mined chainId (w.mined chainId + 1)
    receipts := Function.update w.receipts chainId receipts }

def broadcastMove (P : Platform) (w : BroadcastWorld) : BroadcastMove → Option BroadcastWorld
  | .service e => (serviceMove P w.service e).map fun s => { w with service := s }
  | .mine chainId raw status =>
    if w.receipts chainId (P.keccak256 raw) = none then some (w.mine P chainId raw status) else none
  | .cleared => some { w with service := w.service.cleared }

/-- The tasks of the process, and single calls of `_resolve_and_broadcast`. -/
inductive BroadcastTask where
  | service (task : ServiceTask)
  | resolve (w : PendingWithdrawal)

def broadcastSystem (P : Platform) (settings : ProcessorSettings) :
    TaskSystem BroadcastWorld ServiceOp ServiceOp.Reply ServiceError BroadcastAnswer BroadcastMove
      BroadcastTask (Option (PendingWithdrawal × Bool)) where
  perform task op answer w :=
    (nodePerform P task op answer w).map fun r => (r.1, r.2.record task op r.1)
  move e w := broadcastMove P w e
  body
    | .service task => (fun _ => none) <$> (withdrawalSystem P settings).body task
    | .resolve x => (fun paid => some (x, paid)) <$> resolveAndBroadcast P settings x
  start
    | .service task, w =>
      ((withdrawalSystem P settings).start task w.service).map fun s => { w with service := s }
    | .resolve _, w => some w
  leave task w := { w with service := (withdrawalSystem P settings).leave task w.service }
  restart w := { w with service := w.service.restarted }

abbrev BroadcastPool :=
  TaskPool BroadcastWorld ServiceOp ServiceOp.Reply ServiceError (Option (PendingWithdrawal × Bool))
abbrev BroadcastEvent := TaskEvent BroadcastAnswer BroadcastMove BroadcastTask
abbrev BroadcastEntry :=
  TransactionMachine.Entry BroadcastPool BroadcastEvent (Option ServiceOp)

/-- The process has just started; the contract and the chains may have any history. -/
def processStart (w : BroadcastWorld) : BroadcastPool := ⟨{ w with service := w.service.restarted }, []⟩

section Steps

variable {P : Platform} {settings : ProcessorSettings} {w v : BroadcastWorld}

/-- What a node's reply says of its chain. -/
def ChainTold (P : Platform) : (op : ServiceOp) → Except ServiceError op.Reply → BroadcastWorld → Prop
  | .sendRawTransaction chainId raw, .ok hash, w =>
    hash = P.keccak256 raw ∧ (chainId, raw) ∈ w.accepted
  | .transactionReceipt chainId hash, .ok status, w => w.receipts chainId hash = some status
  | _, _, _ => True

/-- A step on the service, and maybe an accepted transaction. -/
structure NodeStep (P : Platform) (task : ℕ) (op : ServiceOp) (r : Except ServiceError op.Reply)
    (w v : BroadcastWorld) : Prop where
  service : ∃ answer, servicePerform P task op answer w.service = some (r, v.service)
  calls : v.calls = w.calls
  accepted : v.accepted = w.accepted ∨
    ∃ chainId raw, op = ServiceOp.sendRawTransaction chainId raw ∧ v.accepted = (chainId, raw) :: w.accepted
  mined : v.mined = w.mined
  receipts : v.receipts = w.receipts
  told : ChainTold P op r v

theorem nodePerform_step {task : ℕ} {op : ServiceOp} {answer : BroadcastAnswer}
    {r : Except ServiceError op.Reply} (h : nodePerform P task op answer w = some (r, v)) :
    NodeStep P task op r w v := by
  have served (answer : Answer) (told : ∀ v, ChainTold P op r v)
      (h : ((servicePerform P task op answer w.service).map fun x =>
        (x.1, { w with service := x.2 })) = some (r, v)) : NodeStep P task op r w v := by
    obtain ⟨⟨r', s⟩, hs, he⟩ := Option.map_eq_some_iff.mp h
    obtain ⟨rfl, rfl⟩ := Prod.mk.inj he
    exact ⟨⟨answer, hs⟩, rfl, .inl rfl, rfl, rfl, told _⟩
  cases op with
  | sendRawTransaction chainId raw =>
    cases answer with
    | accepts arrives =>
      obtain ⟨rfl, rfl⟩ := Prod.mk.inj (Option.some.inj h)
      cases arrives with
      | true =>
        exact ⟨⟨.hash (P.keccak256 raw), rfl⟩, rfl, .inr ⟨chainId, raw, rfl, rfl⟩, rfl, rfl, rfl,
          List.mem_cons_self⟩
      | false => exact ⟨⟨.fail, rfl⟩, rfl, .inr ⟨chainId, raw, rfl, rfl⟩, rfl, rfl, trivial⟩
    | service a =>
      cases a with
      | fail =>
        obtain ⟨rfl, rfl⟩ := Prod.mk.inj (Option.some.inj h)
        exact ⟨⟨.fail, rfl⟩, rfl, .inl rfl, rfl, rfl, trivial⟩
      | _ => cases h
  | transactionReceipt chainId hash =>
    cases answer with
    | accepts => cases h
    | service a =>
      cases a with
      | number status =>
        simp only [nodePerform] at h
        split at h
        · next found =>
          obtain ⟨rfl, rfl⟩ := Prod.mk.inj (Option.some.inj h)
          exact ⟨⟨.number status, rfl⟩, rfl, .inl rfl, rfl, rfl, found⟩
        · cases h
      | node lag =>
        simp [nodePerform, servicePerform, ServiceOp.isMemory, contractReads] at h
      | fail =>
        obtain ⟨rfl, rfl⟩ := Prod.mk.inj (Option.some.inj h)
        exact ⟨⟨.fail, rfl⟩, rfl, .inl rfl, rfl, rfl, trivial⟩
      | hash other =>
        obtain ⟨rfl, rfl⟩ := Prod.mk.inj (Option.some.inj h)
        exact ⟨⟨.hash other, rfl⟩, rfl, .inl rfl, rfl, rfl, trivial⟩
  | _ =>
    cases answer with
    | accepts => cases h
    | service a => exact served a (fun _ => trivial) h

end Steps

end Privana
