import Mathlib.Logic.Function.Basic
import Privana.Typestate
import Privana.Types

/-! Signed writes of the Accounting service: `submit_tx` of the appd client, the disk
store of submitted calls, and `_submit_signed`, where resends of one calldata join one
submission task. A submission leaves the process with its request and may be executed
or reverted at any time after that, also when its reply is lost or the process is gone.
The store and the submissions survive a crash; tasks and the table of tasks do not. -/

namespace Privana
open BigEndian Coroutine

/-- Exceptions from outside that the code tells apart only as `ValueError` and the rest. -/
inductive Fault where
  | valueError
  | otherError
  deriving DecidableEq

inductive SubmitError where
  | transactionReverted
  | submissionOutcomeUnknown
  | runtimeError
  | fault (f : Fault)
  deriving DecidableEq

structure TxParams where
  recipient : Address
  value : ℕ
  gas : ℕ
  data : Bytes
  deriving DecidableEq

/-- appd's decoded reply: what reading the entry under "fail" and converting the entry
under "ok" give, where there is one. -/
structure AppdReply where
  fail : Option (Except Fault Unit)
  ok : Option (Except Fault (Option Bytes))

inductive Fate where
  | executed
  | reverted
  deriving DecidableEq

/-- What the client takes a reply for. -/
def AppdReply.outcome (r : AppdReply) : Option Fate :=
  match r.fail, r.ok with
  | some (.ok ()), _ => some .reverted
  | none, some (.ok _) => some .executed
  | _, _ => none

structure RoflSubmissionResult where
  submissionId : String
  okPayload : Option Bytes

structure SubmissionResult where
  submissionId : String
  status : String
  deriving DecidableEq

inductive CallStatus where
  | pending
  | executed
  deriving DecidableEq

structure AccountingCall where
  status : CallStatus
  submissionId : Option String := none
  deriving DecidableEq

inductive SignedOp where
  | storeGet (key : Bytes)
  | storePut (key : Bytes) (call : AccountingCall)
  | storeDelete (key : Bytes)
  /-- `_submissions.get(key)`, or a new task that is filed under the key at once. -/
  | joinSubmission (key data : Bytes)
  | leaveSubmissions (key : Bytes)
  /-- `asyncio.shield(task)`. -/
  | awaitSubmission (task : ℕ)
  /-- The task ends, and who waits for it gets its result. -/
  | conclude (task : ℕ) (result : Except SubmitError SubmissionResult)
  /-- The two halves of `sign_submit`. -/
  | signSubmit (tx : TxParams)
  | signSubmitReply (request : ℕ)

abbrev SignedOp.Reply : SignedOp → Type
  | storeGet _ => Option AccountingCall
  | joinSubmission .. | signSubmit _ => ℕ
  | awaitSubmission _ => SubmissionResult
  | signSubmitReply _ => AppdReply
  | storePut .. | storeDelete _ | leaveSubmissions _ | conclude .. => Unit

open SignedOp

abbrev SignedM := Coroutine SignedOp SignedOp.Reply SubmitError

def ofExcept {α : Type} : Except Fault α → SignedM α
  | .ok a => pure a
  | .error f => raise (.fault f)

/-- The settings and the functions of other packages that the calls use. -/
structure AccountingClient where
  contractAddress : Address
  gasLimit : ℕ
  keccak : Bytes → Bytes
  /-- `cbor2.dumps(result).hex()`. -/
  dumps : AppdReply → String

/-- What a caller of `_submit_signed` is told. -/
structure Told where
  data : Bytes
  outcome : Except SubmitError SubmissionResult

namespace AccountingClient

variable (C : AccountingClient)

def submitTx (tx : TxParams) : SignedM RoflSubmissionResult :=
  Coroutine.except
    (do
      let request ← await (signSubmit tx)
      let result ← await (signSubmitReply request)
      match result.fail with
      | some failInfo => do
        ofExcept failInfo
        raise .transactionReverted
      | none =>
        match result.ok with
        | none => raise .runtimeError
        | some okPayload => do
          let rawPayload ← ofExcept okPayload
          return ⟨C.dumps result, rawPayload⟩)
    fun
      | .fault .valueError => raise .runtimeError
      | e => raise e

def buildTx (data : Bytes) : TxParams := ⟨C.contractAddress, 0, C.gasLimit, data⟩

def submitData (data : Bytes) : SignedM SubmissionResult := do
  let roflResult ← C.submitTx (C.buildTx data)
  return ⟨roflResult.submissionId, "submitted"⟩

/-- `submit()` after it has read the store; only `_submit` raises a revert. -/
def submitAfter (data : Bytes) (earlier : Option AccountingCall) : SignedM SubmissionResult :=
  match earlier with
  | some ⟨.executed, submissionId⟩ => return ⟨submissionId.getD "", "submitted"⟩
  | _ =>
    Coroutine.except
      (do
        await (storePut (C.keccak data) ⟨.pending, none⟩)
        let result ← C.submitData data
        await (storePut (C.keccak data) ⟨.executed, some result.submissionId⟩)
        return result)
      fun
        | .transactionReverted => do
          if earlier = none then await (storeDelete (C.keccak data))
          raise .transactionReverted
        | e => raise e

def submit (task : ℕ) (data : Bytes) : SignedM (Option Told) :=
  let body : SignedM SubmissionResult := do
    let earlier ← await (storeGet (C.keccak data))
    C.submitAfter data earlier
  (body.ensure (await (leaveSubmissions (C.keccak data)))).settle fun result => do
    await (conclude task result)
    return none

def submitSigned (data : Bytes) : SignedM SubmissionResult := do
  let task ← await (joinSubmission (C.keccak data) data)
  (await (awaitSubmission task)).except fun exc => do
    let record ← await (storeGet (C.keccak data))
    match record with
    | none => raise exc
    | some _ => raise .submissionOutcomeUnknown

/-- A caller, with what it is told in the end. -/
def call (data : Bytes) : SignedM (Option Told) :=
  (C.submitSigned data).settle fun outcome => return some ⟨data, outcome⟩

end AccountingClient

inductive SignedTask where
  | call (data : Bytes)
  | submit (task : ℕ) (data : Bytes)
  deriving DecidableEq

/-- A task that was made for a submission, and its result. -/
structure SubmissionTask where
  data : Bytes
  begun : Bool
  result : Option (Except SubmitError SubmissionResult)

/-- A request that reached appd; `answered` once its reply told what became of it. -/
structure Request where
  tx : TxParams
  fate : Option Fate
  answered : Bool
  deriving DecidableEq

structure SignedWorld where
  store : Bytes → Option AccountingCall
  requests : List Request
  submissions : Bytes → Option ℕ
  tasks : List SubmissionTask
  /-- The requests whose replies are awaited, each with the task that awaits it. -/
  awaiting : List (ℕ × ℕ)
  started : List SignedTask

inductive SignedAnswer where
  | ok
  | fails (f : Fault)
  | reply (r : AppdReply)

inductive SignedMove where
  /-- The contract runs the transaction of a request. -/
  | land (request : ℕ) (fate : Fate)
  /-- A record reaches the end of its lifetime. -/
  | expire (key : Bytes)

def signedPerform (i : ℕ) : (op : SignedOp) → SignedAnswer → SignedWorld →
    Option (Except SubmitError op.Reply × SignedWorld)
  | .storeGet key, .ok, w => some (.ok (w.store key), w)
  | .storePut key call, .ok, w =>
    some (.ok (), { w with store := Function.update w.store key (some call) })
  | .storeDelete key, .ok, w => some (.ok (), { w with store := Function.update w.store key none })
  | .storeGet _, .fails f, w | .storePut .., .fails f, w | .storeDelete _, .fails f, w =>
    some (.error (.fault f), w)
  | .joinSubmission key data, .ok, w =>
    match w.submissions key with
    | some task => some (.ok task, w)
    | none => some (.ok w.tasks.length,
        { w with
          tasks := w.tasks ++ [⟨data, false, none⟩]
          submissions := Function.update w.submissions key (some w.tasks.length) })
  | .leaveSubmissions key, .ok, w =>
    if w.submissions key = none then some (.error (.fault .otherError), w)
    else some (.ok (), { w with submissions := Function.update w.submissions key none })
  | .awaitSubmission task, .ok, w => do
    let submission ← w.tasks[task]?
    let result ← submission.result
    return (result, w)
  | .conclude task result, .ok, w =>
    some (.ok (), { w with tasks := w.tasks.modify task fun t => { t with result := some result } })
  | .signSubmit tx, .ok, w =>
    some (.ok w.requests.length,
      { w with
        requests := w.requests ++ [⟨tx, none, false⟩]
        awaiting := (i, w.requests.length) :: w.awaiting })
  | .signSubmit _, .fails f, w => some (.error (.fault f), w)
  | .signSubmitReply request, .reply r, w => do
    let q ← w.requests[request]?
    guard (r.outcome = none ∨ r.outcome = q.fate)
    return (.ok r,
      { w with
        requests := w.requests.set request { q with answered := q.answered || r.outcome.isSome }
        awaiting := w.awaiting.erase (i, request) })
  | .signSubmitReply request, .fails f, w =>
    some (.error (.fault f), { w with awaiting := w.awaiting.erase (i, request) })
  | _, _, _ => none

/-- The contract's nonce check runs a calldata at most once. -/
def signedMove : SignedMove → SignedWorld → Option SignedWorld
  | .land request fate, w => do
    let q ← w.requests[request]?
    guard (q.fate = none ∧ (fate = .executed →
      ∀ q' ∈ w.requests, q'.tx.data = q.tx.data → q'.fate ≠ some .executed))
    return { w with requests := w.requests.set request { q with fate := some fate } }
  | .expire key, w => some { w with store := Function.update w.store key none }

def signedStart : SignedTask → SignedWorld → Option SignedWorld
  | .call data, w => some { w with started := w.started ++ [.call data] }
  | .submit task data, w => do
    let t ← w.tasks[task]?
    guard (t.data = data ∧ t.begun = false)
    return { w with
      tasks := w.tasks.set task { t with begun := true }
      started := w.started ++ [.submit task data] }

/-- Cancelling a caller leaves the shielded submission as it is. -/
def signedSystem (C : AccountingClient) :
    TaskSystem SignedWorld SignedOp SignedOp.Reply SubmitError SignedAnswer SignedMove SignedTask
      (Option Told) where
  perform := signedPerform
  move := signedMove
  body
    | .call data => C.call data
    | .submit task data => C.submit task data
  start := signedStart
  leave _ w := w
  restart w := { w with submissions := fun _ => none, tasks := [], awaiting := [], started := [] }

end Privana
