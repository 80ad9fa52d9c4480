import Privana.SignedSubmission

/-! The phases of callers and of submission tasks. A submission task holds its key in the
table of submissions from its start until it leaves the table, and while it does, no other
task writes the record of that key or asks appd for a calldata with that key. What a phase
knows of the record holds for the keys whose records do not expire. -/

namespace Privana
open BigEndian Coroutine SignedOp

inductive SignedPhase where
  | ended
  | calling (data : Bytes)
  | joined (data : Bytes) (task : ℕ)
  | failed (data : Bytes)
  | absent (data : Bytes)
  | succeeded (data : Bytes)
  | begun (task : ℕ) (data : Bytes)
  | fresh (task : ℕ) (data : Bytes) (earlier : Option AccountingCall)
  | ready (task : ℕ) (data : Bytes) (first : Bool)
  | requested (task : ℕ) (data : Bytes) (first : Bool) (request : ℕ)
  | executed (task : ℕ) (data : Bytes)
  | reverted (task : ℕ) (data : Bytes)
  | leaving (task : ℕ) (data : Bytes) (recorded : Bool)
  | finishing (task : ℕ) (data : Bytes) (recorded : Bool)

/-- The keys whose records do not expire, and the calldata that callers bring. -/
structure SubmissionScope where
  alive : Bytes → Prop
  brought : Bytes → Prop

def Recorded (status : CallStatus) (key : Bytes) (w : SignedWorld) : Prop :=
  ∃ call, w.store key = some call ∧ call.status = status

namespace AccountingClient

variable (C : AccountingClient) (S : SubmissionScope)

/-- All requests under the key, but perhaps one, are known to have reverted. -/
def Clean (key : Bytes) (but : Option ℕ) (w : SignedWorld) : Prop :=
  ∀ (j : ℕ) (q : Request), w.requests[j]? = some q → but ≠ some j → C.keccak q.tx.data = key →
    q.answered = true ∧ q.fate = some .reverted

def Landed (key : Bytes) (w : SignedWorld) : Prop :=
  ∃ q ∈ w.requests, C.keccak q.tx.data = key ∧ q.answered = true ∧ q.fate = some .executed

/-- Task `i` runs the submission that is filed under the key of its calldata. -/
def Holding (i task : ℕ) (data : Bytes) (w : SignedWorld) : Prop :=
  w.started[i]? = some (.submit task data) ∧ w.submissions (C.keccak data) = some task

def Idle (i : ℕ) (w : SignedWorld) : Prop := ∀ q, (i, q) ∉ w.awaiting

structure SignedInvariant (n : ℕ) (w : SignedWorld) : Prop where
  started : w.started.length = n
  begun : ∀ (i task : ℕ) (data : Bytes), w.started[i]? = some (.submit task data) →
    ∃ t, w.tasks[task]? = some t ∧ t.data = data ∧ t.begun = true
  once : ∀ (i j task : ℕ) (data data' : Bytes), w.started[i]? = some (.submit task data) →
    w.started[j]? = some (.submit task data') → i = j
  filed : ∀ key task, w.submissions key = some task →
    ∃ t, w.tasks[task]? = some t ∧ C.keccak t.data = key
  waiting : ∀ (task : ℕ) (t : SubmissionTask), w.tasks[task]? = some t → t.begun = false →
    w.submissions (C.keccak t.data) = some task
  clean : ∀ key, S.alive key → w.store key = none → C.Clean key none w
  landed : ∀ key, S.alive key → Recorded .executed key w → C.Landed key w
  results : ∀ t ∈ w.tasks, ∀ a, t.result = some (.ok a) → S.alive (C.keccak t.data) →
    Recorded .executed (C.keccak t.data) w
  awaiting : ∀ i q, (i, q) ∈ w.awaiting → ∃ task data,
    C.Holding i task data w ∧ ∃ r, w.requests[q]? = some r ∧ r.tx.data = data
  single : ∀ i q q', (i, q) ∈ w.awaiting → (i, q') ∈ w.awaiting → q = q'
  nodup : w.awaiting.Nodup
  made : ∀ t ∈ w.tasks, S.brought t.data
  asked : ∀ q ∈ w.requests, S.brought q.tx.data

def Knows (i : ℕ) : SignedPhase → SignedWorld → Prop
  | .ended, _ | .failed _, _ | .absent _, _ => True
  | .calling data, _ => S.brought data
  | .joined data task, w => ∃ t, w.tasks[task]? = some t ∧ C.keccak t.data = C.keccak data
  | .succeeded data, w => S.alive (C.keccak data) → Recorded .executed (C.keccak data) w
  | .begun task data, w => C.Holding i task data w ∧ Idle i w
  | .fresh task data earlier, w => C.Holding i task data w ∧ Idle i w ∧
    (S.alive (C.keccak data) → w.store (C.keccak data) = earlier ∧
      ¬ Recorded .executed (C.keccak data) w)
  | .ready task data first, w => C.Holding i task data w ∧ Idle i w ∧
    (S.alive (C.keccak data) → Recorded .pending (C.keccak data) w ∧
      (first = true → C.Clean (C.keccak data) none w))
  | .requested task data first request, w => C.Holding i task data w ∧
    (∀ q, (i, q) ∈ w.awaiting → q = request) ∧
    (∃ r, w.requests[request]? = some r ∧ r.tx.data = data) ∧
    (S.alive (C.keccak data) → Recorded .pending (C.keccak data) w ∧
      (first = true → C.Clean (C.keccak data) (some request) w))
  | .executed task data, w => C.Holding i task data w ∧ Idle i w ∧ C.Landed (C.keccak data) w
  | .reverted task data, w => C.Holding i task data w ∧ Idle i w ∧
    (S.alive (C.keccak data) → Recorded .pending (C.keccak data) w ∧
      C.Clean (C.keccak data) none w)
  | .leaving task data recorded, w => C.Holding i task data w ∧ Idle i w ∧
    (recorded = true → S.alive (C.keccak data) → Recorded .executed (C.keccak data) w)
  | .finishing task data recorded, w => w.started[i]? = some (.submit task data) ∧
    (recorded = true → S.alive (C.keccak data) → Recorded .executed (C.keccak data) w)

def May : SignedPhase → SignedOp → Prop
  | .calling data, op => op = joinSubmission (C.keccak data) data
  | .joined _ task, op => op = awaitSubmission task
  | .failed data, op => op = storeGet (C.keccak data)
  | .begun _ data, op => op = storeGet (C.keccak data)
  | .fresh _ data _, op => op = storePut (C.keccak data) ⟨.pending, none⟩
  | .ready _ data _, op => ∃ tx, op = signSubmit tx ∧ tx.data = data
  | .requested _ _ _ request, op => op = signSubmitReply request
  | .executed _ data, op => ∃ id, op = storePut (C.keccak data) ⟨.executed, id⟩
  | .reverted _ data, op => op = storeDelete (C.keccak data)
  | .leaving _ data _, op => op = leaveSubmissions (C.keccak data)
  | .finishing task _ recorded, op => ∃ r, op = conclude task r ∧ ∀ a, r = .ok a → recorded = true
  | _, _ => False

/-- Only the awaited task itself can bring up a revert. -/
def Comes : (op : SignedOp) → Except SubmitError op.Reply → Prop
  | awaitSubmission _, _ => True
  | joinSubmission .., r => ∃ task, r = .ok task
  | _, r => ∀ e, r = .error e → ∃ f, e = .fault f

def next : SignedPhase → (op : SignedOp) → Except SubmitError op.Reply → SignedPhase
  | .calling data, joinSubmission .., .ok task => .joined data task
  | .joined data _, awaitSubmission _, .ok _ => .succeeded data
  | .joined data _, awaitSubmission _, .error _ => .failed data
  | .failed data, storeGet _, .ok none => .absent data
  | .begun task data, storeGet _, .ok earlier =>
    if earlier.any (·.status = .executed) then .leaving task data true
    else .fresh task data earlier
  | .fresh task data earlier, storePut .., .ok _ => .ready task data earlier.isNone
  | .ready task data first, signSubmit _, .ok request => .requested task data first request
  | .requested task data first _, signSubmitReply _, .ok reply =>
    match reply.outcome with
    | some .executed => .executed task data
    | some .reverted => if first then .reverted task data else .leaving task data false
    | none => .leaving task data false
  | .executed task data, storePut .., .ok _ => .leaving task data true
  | .begun task data, storeGet _, .error _ | .fresh task data _, storePut .., .error _
  | .ready task data _, signSubmit _, .error _
  | .requested task data _ _, signSubmitReply _, .error _
  | .executed task data, storePut .., .error _ | .reverted task data, storeDelete _, _ =>
    .leaving task data false
  | .leaving task data recorded, leaveSubmissions _, _ => .finishing task data recorded
  | _, _, _ => .ended

def typestate : Typestate SignedWorld SignedOp SignedOp.Reply SubmitError SignedPhase where
  may := C.May
  reply := Comes
  after := next
  world := C.SignedInvariant S
  knows := C.Knows S
  ended := .ended

/-- A caller hears of success and of a revert in phases that vouch for it. -/
def Vouched : Except SubmitError (Option Told) → SignedPhase → Prop
  | .ok (some ⟨data, .ok _⟩), x => x = .succeeded data
  | .ok (some ⟨data, .error .transactionReverted⟩), x => x = .absent data
  | _, _ => True

variable {C S} {task : ℕ} {data : Bytes}

/-- Where a request leaves its submission task. -/
def Replied (task : ℕ) (data : Bytes) (first : Bool) :
    Except SubmitError RoflSubmissionResult → SignedPhase → Prop
  | .ok _, x => x = .executed task data
  | .error .transactionReverted, x =>
    x = if first then .reverted task data else .leaving task data false
  | .error _, x => x = .leaving task data false

def Left (task : ℕ) (data : Bytes) (r : Except SubmitError SubmissionResult)
    (x : SignedPhase) : Prop :=
  ∃ recorded, x = .leaving task data recorded ∧ ∀ a, r = .ok a → recorded = true

theorem reply_fault {op : SignedOp} {e : SubmitError}
    (h : (C.typestate S).reply op (.error e)) (task : ∀ t, op ≠ awaitSubmission t) : ∃ f, e = .fault f := by
  cases op with
  | awaitSubmission t => exact absurd rfl (task t)
  | joinSubmission => obtain ⟨_, h⟩ := h; cases h
  | _ => exact h e rfl

theorem submitTx_follows {tx : TxParams} {first : Bool} (htx : tx.data = data) :
    (C.submitTx tx).Follows (C.typestate S) (Replied task data first)
      (.ready task data first) := by
  refine Follows.except (R := Replied task data first) ?_ (fun _ _ h => h) fun e x h => ?_
  · refine Follows.await ⟨tx, rfl, htx⟩ (fun request _ => ?_) fun e h => ?_
    · refine Follows.await rfl (fun reply _ => ?_) fun e h => ?_
      · obtain ⟨fail, ok⟩ := reply
        rcases fail with _ | _ | ⟨⟨⟩⟩
        · rcases ok with _ | _ | payload
          · rfl
          · rfl
          · rfl
        · rfl
        · rfl
      · obtain ⟨f, rfl⟩ := reply_fault h (by simp)
        rfl
    · obtain ⟨f, rfl⟩ := reply_fault h (by simp)
      rfl
  · cases e with
    | fault f => cases f <;> exact h
    | _ => exact h

/-- After a revert the record goes if the submission was the first. -/
def Concluded (task : ℕ) (data : Bytes) (first : Bool) (r : Except SubmitError SubmissionResult)
    (x : SignedPhase) : Prop :=
  r = .error .transactionReverted ∧ first = true ∧ x = .reverted task data ∨
    (r = .error .transactionReverted → first = false) ∧ Left task data r x

theorem submitData_follows {first : Bool} :
    (do
      let result ← C.submitData data
      await (storePut (C.keccak data) ⟨.executed, some result.submissionId⟩)
      return result : SignedM SubmissionResult).Follows (C.typestate S)
      (Concluded task data first) (.ready task data first) := by
  refine Follows.bind (R := fun r x => Replied task data first (r.map fun a => ⟨a.1, none⟩) x)
    (Follows.bind (submitTx_follows rfl) (fun a x h => h) fun e x h => h) (fun a x h => ?_)
    fun e x h => ?_
  · obtain rfl : x = .executed task data := h
    refine Follows.await ⟨_, rfl⟩ (fun _ _ => .inr ⟨by simp, true, rfl, fun _ _ => rfl⟩)
      fun e h => ?_
    obtain ⟨f, rfl⟩ := reply_fault h (by simp)
    exact .inr ⟨by simp, false, rfl, by simp⟩
  · cases e with
    | transactionReverted =>
      cases first with
      | false => exact .inr ⟨fun _ => rfl, false, h, by simp⟩
      | true => exact .inl ⟨rfl, rfl, h⟩
    | _ => exact .inr ⟨by simp, false, h, by simp⟩

theorem submitGuarded_follows (earlier : Option AccountingCall)
    {handler : SubmitError → SignedM SubmissionResult}
    (reverted : handler .transactionReverted = do
      if earlier = none then await (storeDelete (C.keccak data))
      raise .transactionReverted)
    (other : ∀ e, e ≠ .transactionReverted → handler e = raise e) :
    (Coroutine.except
      (do
        await (storePut (C.keccak data) ⟨.pending, none⟩)
        let result ← C.submitData data
        await (storePut (C.keccak data) ⟨.executed, some result.submissionId⟩)
        return result) handler : SignedM SubmissionResult).Follows (C.typestate S) (Left task data)
      (.fresh task data earlier) := by
  refine Follows.except (R := Concluded task data earlier.isNone) ?_
    (fun a x h => (h.resolve_left (by simp)).2) fun e x h => ?_
  · refine Follows.await rfl (fun _ _ => submitData_follows) fun e h => ?_
    obtain ⟨f, rfl⟩ := reply_fault h (by simp)
    exact .inr ⟨by simp, false, rfl, by simp⟩
  · rcases h with ⟨he, first, rfl⟩ | ⟨later, recorded, rfl, -⟩
    · cases he
      obtain rfl := Option.isNone_iff_eq_none.mp first
      rw [reverted]
      exact Follows.await rfl (fun _ _ => ⟨false, rfl, by simp⟩)
        fun e _ => ⟨false, rfl, by simp⟩
    · by_cases he : e = .transactionReverted
      · have again : earlier ≠ none := fun h => by simp [h, he] at later
        rw [he, reverted, if_neg again]
        exact ⟨recorded, rfl, by simp⟩
      · rw [other e he]
        exact ⟨recorded, rfl, by simp⟩

theorem submitAfter_follows (earlier : Option AccountingCall) :
    (C.submitAfter data earlier).Follows (C.typestate S) (Left task data)
      (next (.begun task data) (storeGet (C.keccak data)) (.ok earlier)) := by
  rcases earlier with _ | ⟨_ | _, id⟩
  · refine submitGuarded_follows none rfl fun e ne => ?_
    cases e with
    | transactionReverted => exact absurd rfl ne
    | _ => rfl
  · refine submitGuarded_follows (some ⟨.pending, id⟩) rfl fun e ne => ?_
    cases e with
    | transactionReverted => exact absurd rfl ne
    | _ => rfl
  · exact ⟨true, rfl, fun _ _ => rfl⟩

theorem submit_follows :
    (C.submit task data).Follows (C.typestate S) Vouched (.begun task data) := by
  refine Follows.settle (R := fun r x => ∃ recorded, x = .finishing task data recorded ∧
    ∀ a, r = .ok a → recorded = true) ?_ fun r x h => ?_
  · refine Follows.settle (R := Left task data) ?_ fun r x h => ?_
    · refine Follows.await rfl (fun earlier _ => submitAfter_follows earlier) fun e _ => ?_
      exact ⟨false, rfl, by simp⟩
    · obtain ⟨recorded, rfl, ok⟩ := h
      refine ⟨rfl, fun r' _ => ?_⟩
      cases r' with
      | ok _ => exact ⟨recorded, rfl, ok⟩
      | error e => exact ⟨recorded, rfl, by simp⟩
  · obtain ⟨recorded, rfl, ok⟩ := h
    exact Follows.await ⟨r, rfl, ok⟩ (fun _ _ => trivial) fun _ _ => trivial

theorem call_follows : (C.call data).Follows (C.typestate S) Vouched (.calling data) := by
  refine Follows.settle (R := fun r x => (∀ a, r = .ok a → x = .succeeded data) ∧
    (r = .error .transactionReverted → x = .absent data)) ?_ fun r x h => ?_
  · refine Follows.await rfl (fun submission _ => ?_) fun e h => by simp [typestate, Comes] at h
    refine Follows.except (R := fun r x => (∀ a, r = .ok a → x = .succeeded data) ∧
      (∀ e, r = .error e → x = .failed data)) ?_ (fun a x h => ⟨fun b _ => h.1 a rfl, by simp⟩)
      fun e x h => ?_
    · exact ⟨rfl, fun r _ => by cases r <;> exact ⟨by simp [typestate, next], by simp [typestate, next]⟩⟩
    · obtain rfl := h.2 e rfl
      refine Follows.await rfl (fun record _ => ?_) fun e h => ?_
      · cases record with
        | none => exact ⟨by simp, fun _ => rfl⟩
        | some call => exact ⟨by simp, by simp⟩
      · obtain ⟨f, rfl⟩ := reply_fault h (by simp)
        exact ⟨by simp, by simp⟩
  · rcases r with (_ | _) | _
    all_goals first | exact h.2 rfl | exact h.1 _ rfl | exact trivial

end AccountingClient

end Privana
