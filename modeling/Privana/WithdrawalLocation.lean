import Privana.HighWaterMark
import Privana.RequestSteps
import Privana.Typestate

/-! The index that a request reports. The newest entry for the user, the token and the amount is the
one that the request has made, as long as no later one like it is shown when the entries are
counted. -/

namespace Privana
open BigEndian Coroutine

section Knowledge
variable {P : Platform} {w v : RequestWorld P}

/-- The withdrawal at an index is one of the user for the token and the amount. -/
def RequestWorld.Made (w : RequestWorld P) (user : Address) (tokenId : Bytes32) (amount : U256)
    (index : ℕ) : Prop :=
  ∃ entry, w.accounting.withdrawals[index]? = some entry ∧
    isRequestOf user tokenId amount entry = true

theorem isRequestOf_congr {entry entry' : WithdrawalRequest} (core : entry.core = entry'.core)
    (user : Address) (tokenId : Bytes32) (amount : U256) :
    isRequestOf user tokenId amount entry = isRequestOf user tokenId amount entry' := by
  have same : isRequestOf user tokenId amount entry.core =
      isRequestOf user tokenId amount entry'.core := congrArg (isRequestOf user tokenId amount) core
  exact same

structure QueuedOnce (w : RequestWorld P) : Prop where
  past : ∀ s ∈ w.states, s.withdrawals.map (·.core) <+: w.accounting.withdrawals.map (·.core)
  queued : ∀ x ∈ w.created, x.2 < w.accounting.withdrawals.length
  once : (w.created.map Prod.snd).Nodup

/-- The queue and the entries that tasks have made only grow, in the same process. -/
structure RequestGrows (w v : RequestWorld P) : Prop where
  queue : w.accounting.withdrawals.map (·.core) <+: v.accounting.withdrawals.map (·.core)
  created : w.created ⊆ v.created
  process : v.process = w.process

inductive LocatePhase where
  | other
  | recovered (user : Address) (tokenId : Bytes32) (amount nonce : U256) (signature : Bytes)
  | submitted (user : Address) (tokenId : Bytes32) (amount : U256)
  /-- The indices of the window below `left` are not read yet. -/
  | scanning (user : Address) (tokenId : Bytes32) (amount : U256) (floor left : ℕ)
  | found (index : ℕ)

namespace LocatePhase

def May : LocatePhase → RequestOp → Prop
  | other, op => ∀ call, op = .submitTx call → call.queues = true
  | recovered _ tokenId amount nonce signature, op =>
    ∀ call, op = .submitTx call → call = .requestWithdrawal tokenId amount nonce signature
  | submitted .., op => op = .withdrawalCount
  | scanning _ _ _ floor left, op => ∃ index, op = .withdrawal index ∧ floor ≤ index ∧
    left = index + 1
  | found _, _ => False

def next : LocatePhase → (op : RequestOp) → Except RequestError op.Reply → LocatePhase
  | other, .recoverSigner (.withdraw tokenId amount nonce) signature, .ok user =>
    .recovered user tokenId amount nonce signature
  | recovered user tokenId amount _ _, .submitTx _, .ok _ => .submitted user tokenId amount
  | recovered .., .submitTx _, .error _ | submitted .., _, .error _ | scanning .., _, .error _ =>
    .other
  | submitted user tokenId amount, .withdrawalCount, .ok count =>
    .scanning user tokenId amount (count - withdrawalIndexScanWindow) count
  | scanning user tokenId amount floor _, .withdrawal index, .ok entry =>
    if isRequestOf user tokenId amount entry then .found index
    else .scanning user tokenId amount floor index
  | x, _, _ => x

def Knows (R : RequestPlatform) (i : ℕ) : LocatePhase → RequestWorld R.contract → Prop
  | other, _ => True
  | recovered user tokenId amount nonce signature, _ =>
    R.recoverMessage (.withdraw tokenId amount nonce) signature = some user
  | submitted user tokenId amount, w =>
    ∃ index, (w.id i, index) ∈ w.created ∧ w.Made user tokenId amount index
  | scanning user tokenId amount floor left, w => left ≤ w.accounting.withdrawals.length ∧
    ∀ index, floor ≤ index → index < left → w.Made user tokenId amount index →
      (∀ later, index < later → later < left → ¬ w.Made user tokenId amount later) →
      (w.id i, index) ∈ w.created
  | found index, w => (w.id i, index) ∈ w.created

end LocatePhase

def locateTypestate (R : RequestPlatform) :
    Typestate (RequestWorld R.contract) RequestOp RequestOp.Reply RequestError LocatePhase where
  may := LocatePhase.May
  reply _ _ := True
  after := LocatePhase.next
  world _ w := QueuedOnce w
  knows := LocatePhase.Knows R
  ended := .other

/-- All entries like the task's own that the window of a node shows come before it or are it. -/
def CountsOwn (w : RequestWorld P) (i : ℕ) (s : State) : Prop :=
  ∀ own ∈ w.created, own.1 = w.id i → ∀ entry ∈ w.accounting.withdrawals[own.2]?,
    ∀ index < s.withdrawals.length, s.withdrawals.length - withdrawalIndexScanWindow ≤ index →
      ∀ other ∈ s.withdrawals[index]?,
        isRequestOf entry.userAddress entry.tokenId entry.amount other = true →
          index ≤ own.2 ∧ own.2 < s.withdrawals.length

instance (w : RequestWorld P) (i : ℕ) (s : State) : Decidable (CountsOwn w i s) :=
  inferInstanceAs (Decidable (∀ own ∈ w.created, own.1 = w.id i →
    ∀ entry ∈ w.accounting.withdrawals[own.2]?, ∀ index < s.withdrawals.length,
      s.withdrawals.length - withdrawalIndexScanWindow ≤ index →
      ∀ other ∈ s.withdrawals[index]?,
        isRequestOf entry.userAddress entry.tokenId entry.amount other = true →
          index ≤ own.2 ∧ own.2 < s.withdrawals.length))

end Knowledge

section Programs
variable {R : RequestPlatform}

abbrev Locates (R : RequestPlatform) (p : RequestTask (Option WithdrawalSubmission))
    (x : LocatePhase) : Prop :=
  p.Follows (locateTypestate R)
    (fun r y => ∀ context index, r = .ok (some ⟨context, some index⟩) → y = .found index) x

theorem scanWithdrawals_follows (user : Address) (tokenId : Bytes32) (amount : U256)
    (floor left : ℕ) :
    (scanWithdrawals user tokenId amount floor left).Follows (locateTypestate R)
      (fun r y => ∀ index, r = .ok (some index) → y = .found index)
      (.scanning user tokenId amount floor (floor + left)) := by
  induction left with
  | zero => exact fun _ h => by cases h
  | succ left ih =>
    refine Follows.await ⟨_, rfl, Nat.le_add_right _ _, rfl⟩ (fun entry _ => ?_) fun _ _ => by simp
    simp only [locateTypestate, LocatePhase.next]
    split
    · exact fun index h => congrArg _ (Option.some.inj (Except.ok.inj h))
    · exact ih

theorem locateWithdrawalIndex_follows (user : Address) (tokenId : Bytes32) (amount : U256) :
    (locateWithdrawalIndex user tokenId amount).Follows (locateTypestate R)
      (fun r y => ∀ index, r = .ok (some index) → y = .found index)
      (.submitted user tokenId amount) := by
  refine Follows.except (R := fun r y => ∀ index, r = .ok (some index) → y = .found index) ?_
    (fun _ _ h => h) fun _ _ _ => fun _ h => by cases h
  refine Follows.await rfl (fun (count : ℕ) _ => ?_) fun _ _ => by simp
  have window : count - withdrawalIndexScanWindow +
      (count - (count - withdrawalIndexScanWindow)) = count :=
    Nat.add_sub_cancel' (Nat.sub_le _ _)
  have scans := scanWithdrawals_follows (R := R) user tokenId amount
    (count - withdrawalIndexScanWindow) (count - (count - withdrawalIndexScanWindow))
  rw [window] at scans
  exact scans

/-- A check before the submission. -/
theorem Locates.check {α : Type} {p : RequestTask α}
    {f : α → RequestTask (Option WithdrawalSubmission)} {x : LocatePhase} (h : p.Follows (locateTypestate R) (fun _ y => y = x) x)
    (next : ∀ a, Locates R (f a) x) : Locates R (p >>= f) x :=
  Follows.bind h (fun a y hy => hy ▸ next a) fun _ _ _ _ _ h => by cases h

/-- The phases before the submission. -/
def LocatePhase.Before (x : LocatePhase) : Prop :=
  x = .other ∨ ∃ user tokenId amount nonce signature,
    x = .recovered user tokenId amount nonce signature

/-- An operation that neither submits nor recovers leaves the phases before the submission. -/
theorem Locates.plain {op : RequestOp} {x : LocatePhase}
    (before : x.Before)
    (submits : ∀ call, op ≠ .submitTx call)
    (recovers : ∀ message signature, op ≠ .recoverSigner message signature) :
    (requestOp op).Follows (locateTypestate R) (fun _ y => y = x) x := by
  obtain rfl | ⟨user, tokenId, amount, nonce, signature, rfl⟩ := before
  · refine ⟨fun call h => absurd h (submits call), fun r _ => ?_⟩
    cases op with
    | submitTx call => exact absurd rfl (submits call)
    | recoverSigner message signature => exact absurd rfl (recovers message signature)
    | _ => rfl
  · refine ⟨fun call h => absurd h (submits call), fun r _ => ?_⟩
    cases op with
    | submitTx call => exact absurd rfl (submits call)
    | _ => cases r <;> rfl

theorem requireThat_follows {condition : Prop} [Decidable condition] {e : RequestError}
    {x : LocatePhase} :
    (requireThat condition e).Follows (locateTypestate R) (fun _ y => y = x) x := by
  unfold requireThat
  split <;> rfl

theorem checkDestinationBalance_follows {S : RequestSettings} {chainId : U256} {isNative : Bool}
    {amount : U256} {x : LocatePhase} (before : x.Before) :
    (checkDestinationBalance S chainId isNative amount).Follows (locateTypestate R)
      (fun _ y => y = x) x := by
  have plain {op : RequestOp} (submits : ∀ call, op ≠ .submitTx call)
      (recovers : ∀ message signature, op ≠ .recoverSigner message signature) :=
    Locates.plain (R := R) before submits recovers
  refine Follows.bind (plain (by simp) (by simp)) (fun gasPrice y hy => ?_) fun _ _ hy => hy
  subst hy
  refine Follows.bind requireThat_follows (fun _ y hy => ?_) fun _ _ hy => hy
  subst hy
  refine Follows.bind (plain (by simp) (by simp)) (fun gasLimit y hy => ?_) fun _ _ hy => hy
  subst hy
  refine Follows.bind (plain (by simp) (by simp)) (fun _ y hy => ?_) fun _ _ hy => hy
  subst hy
  refine Follows.bind (plain (by simp) (by simp)) (fun evmAddress y hy => ?_) fun _ _ hy => hy
  subst hy
  refine Follows.bind (plain (by simp) (by simp)) (fun balance y hy => ?_) fun _ _ hy => hy
  subst hy
  exact requireThat_follows

theorem requestWithdrawalTask_locates (S : RequestSettings) (tokenId : Bytes32)
    (amount nonce : U256) (signature : Bytes) :
    Locates R (requestWithdrawalTask S tokenId amount nonce signature) .other := by
  refine Locates.check requireThat_follows fun _ => ?_
  refine Follows.await (by simp [locateTypestate, LocatePhase.May]) (fun user _ => ?_)
    fun _ _ => by simp
  have before : LocatePhase.Before (.recovered user tokenId amount nonce signature) :=
    .inr ⟨user, tokenId, amount, nonce, signature, rfl⟩
  refine Locates.check (Locates.plain before (by simp) (by simp)) fun context => ?_
  refine Locates.check requireThat_follows fun _ => ?_
  refine Locates.check (Locates.plain before (by simp) (by simp)) fun supported => ?_
  refine Locates.check requireThat_follows fun _ => ?_
  refine Locates.check (checkDestinationBalance_follows before) fun _ => ?_
  refine Follows.await (fun call h => (RequestOp.submitTx.inj h).symm) (fun _ _ => ?_)
    fun _ _ => by simp
  refine Follows.bind (locateWithdrawalIndex_follows user tokenId amount) (fun index y hy => ?_)
    fun _ _ _ => by simp
  intro context' index' he
  cases he
  exact hy index' rfl

theorem withdrawFromLockTask_locates (S : RequestSettings) (user toAddress : Address)
    (lockId amount nonce : U256) (signature : Bytes) :
    Locates R (withdrawFromLockTask S user toAddress lockId amount nonce signature) .other := by
  have plain {op : RequestOp} (submits : ∀ call, op ≠ .submitTx call)
      (recovers : ∀ message signature, op ≠ .recoverSigner message signature) :=
    Locates.plain (R := R) (.inl rfl) submits recovers
  refine Locates.check requireThat_follows fun _ => ?_
  refine Locates.check requireThat_follows fun _ => ?_
  refine Locates.check (plain (by simp) (by simp)) fun userLocks => ?_
  split
  · exact fun _ _ h => by cases h
  · next lock found =>
    refine Locates.check (plain (by simp) (by simp)) fun context => ?_
    refine Locates.check (plain (by simp) (by simp)) fun supported => ?_
    refine Locates.check requireThat_follows fun _ => ?_
    refine Locates.check (checkDestinationBalance_follows (.inl rfl)) fun _ => ?_
    refine Follows.await (fun call h => (RequestOp.submitTx.inj h) ▸ rfl) (fun _ _ => ?_)
      fun _ _ => by simp
    exact fun _ _ h => by cases h

end Programs

section World
variable {R : RequestPlatform} {i : ℕ} {w v : RequestWorld R.contract}

namespace RequestGrows

theorem refl (w : RequestWorld R.contract) : RequestGrows w w :=
  ⟨List.prefix_rfl, fun _ h => h, rfl⟩

theorem made (h : RequestGrows w v) {user : Address} {tokenId : Bytes32} {amount : U256}
    {index : ℕ} (hi : index < w.accounting.withdrawals.length) :
    v.Made user tokenId amount index ↔ w.Made user tokenId amount index := by
  obtain ⟨entry', found, core⟩ := entry_of_prefix h.queue (List.getElem?_eq_getElem hi)
  have same := isRequestOf_congr core user tokenId amount
  simp only [RequestWorld.Made, found, List.getElem?_eq_getElem hi, Option.some.injEq,
    exists_eq_left', same]

theorem length_le (h : RequestGrows w v) :
    w.accounting.withdrawals.length ≤ v.accounting.withdrawals.length := by
  simpa using h.queue.length_le

theorem id (h : RequestGrows w v) (i : ℕ) : v.id i = w.id i := by
  rw [RequestWorld.id, h.process]
  rfl

theorem knows (h : RequestGrows w v) {x : LocatePhase} (known : x.Knows R i w) : x.Knows R i v := by
  cases x with
  | other => trivial
  | recovered => exact known
  | submitted user tokenId amount =>
    obtain ⟨index, created, made⟩ := known
    have hi : index < w.accounting.withdrawals.length := by
      obtain ⟨entry, found, -⟩ := made
      exact (List.getElem?_eq_some_iff.mp found).1
    exact ⟨index, h.id i ▸ h.created created, (h.made hi).mpr made⟩
  | scanning user tokenId amount floor left =>
    obtain ⟨bound, newest⟩ := known
    refine ⟨bound.trans h.length_le, fun index hf hl made last => ?_⟩
    refine h.id i ▸ h.created (newest index hf hl ((h.made (by omega)).mp made) ?_)
    exact fun later hlt hle m => last later hlt hle ((h.made (by omega)).mpr m)
  | found index =>
    change (v.id i, index) ∈ v.created
    rw [h.id i]
    exact h.created known

end RequestGrows

theorem QueuedOnce.transact {tx : Tx} {P : Platform} {w v : RequestWorld P} (h : QueuedOnce w)
    (transacted : w.transact tx = some v) :
    QueuedOnce v ∧ w.accounting.withdrawals.map (·.core) <+:
      v.accounting.withdrawals.map (·.core) := by
  obtain ⟨s, o, step, rfl⟩ := RequestWorld.transact_eq_some transacted
  have grows := step.advances.queue
  refine ⟨⟨fun t ht => ?_, fun x hx => ?_, h.once⟩, grows⟩
  · rcases List.mem_cons.mp ht with rfl | ht
    · exact List.prefix_rfl
    · exact (h.past t ht).trans grows
  · exact (h.queued x hx).trans_le (by simpa using grows.length_le)

theorem QueuedOnce.create {P : Platform} {u : RequestWorld P} {n : ℕ} (h : QueuedOnce u)
    (length : u.accounting.withdrawals.length = n + 1)
    (earlier : ∀ x ∈ u.created, x.2 < n) (i : ℕ) : QueuedOnce (u.create i) := by
  have last : u.accounting.withdrawals.length - 1 = n := by omega
  refine ⟨h.past, fun x hx => ?_, ?_⟩
  · rcases List.mem_append.mp hx with hx | hx
    · exact h.queued x hx
    · obtain rfl := List.mem_singleton.mp hx
      show u.accounting.withdrawals.length - 1 < u.accounting.withdrawals.length
      omega
  · rw [RequestWorld.create, last, List.map_append]
    refine List.nodup_append.mpr ⟨h.once, List.nodup_singleton _, fun a ha b hb => ?_⟩
    obtain ⟨x, hx, rfl⟩ := List.mem_map.mp ha
    obtain rfl := List.mem_singleton.mp hb
    exact Nat.ne_of_lt (earlier x hx)

theorem submits_grows {call : Call} {msg : Msg} {u : RequestWorld R.contract} (h : QueuedOnce w)
    (queues : call.queues = true) (transacted : w.transact ⟨msg, call⟩ = some u) :
    QueuedOnce (u.create i) ∧ RequestGrows w (u.create i) := by
  obtain ⟨once, queue⟩ := h.transact transacted
  obtain ⟨s, o, step, rfl⟩ := RequestWorld.transact_eq_some transacted
  obtain ⟨entry, appended⟩ := step.queuesOne queues
  refine ⟨once.create (by simp [appended]) h.queued i, queue, fun x hx => ?_, rfl⟩
  exact List.mem_append_left _ hx

theorem read_grows (h : QueuedOnce w) (chainId : U256) (address : Address) :
    QueuedOnce (w.read i chainId address) ∧ RequestGrows w (w.read i chainId address) :=
  ⟨⟨h.past, h.queued, h.once⟩, List.prefix_rfl, fun _ hx => hx, rfl⟩

theorem mine_eq_some {P : Platform} {w v : RequestWorld P} {index spent : ℕ}
    (h : w.mine index spent = some v) : ∃ entry chainId cost,
      w.accounting.withdrawals[index]? = some entry ∧
      withdrawalCost w.accounting entry = some (chainId, cost) ∧ index ∉ w.mined ∧ spent ≤ cost ∧
      cost ≤ w.native (chainId, w.accounting.evmAddress) ∧ v = { w with
        native := Function.update w.native (chainId, w.accounting.evmAddress)
          (w.native (chainId, w.accounting.evmAddress) - spent)
        taken := Function.update w.taken chainId (w.taken chainId + spent)
        mined := index :: w.mined } := by
  obtain ⟨entry, found, h⟩ := Option.bind_eq_some_iff.mp h
  obtain ⟨⟨chainId, cost⟩, costs, h⟩ := Option.bind_eq_some_iff.mp h
  dsimp only at h
  split at h
  · next pays =>
    cases h
    exact ⟨entry, chainId, cost, found, costs, pays.2.1, pays.2.2.1, pays.2.2.2, rfl⟩
  · cases h

theorem requestMove_grows {e : RequestMove} (h : QueuedOnce w) (moved : requestMove e w = some v) :
    QueuedOnce v ∧ RequestGrows w v := by
  cases e with
  | transact tx =>
    obtain ⟨once, queue⟩ := h.transact moved
    obtain ⟨s, o, -, rfl⟩ := RequestWorld.transact_eq_some moved
    exact ⟨once, queue, fun _ hx => hx, rfl⟩
  | mine index spent =>
    obtain ⟨entry, chainId, cost, -, -, -, -, -, rfl⟩ := mine_eq_some moved
    exact ⟨⟨h.past, h.queued, h.once⟩, List.prefix_rfl, fun _ hx => hx, rfl⟩
  | fund chainId address amount =>
    cases moved
    exact ⟨⟨h.past, h.queued, h.once⟩, List.prefix_rfl, fun _ hx => hx, rfl⟩

theorem requestPerform_grows {x : LocatePhase} {op : RequestOp} {answer : RequestAnswer}
    {r : Except RequestError op.Reply} (h : QueuedOnce w) (may : x.May op)
    (performed : requestPerform R i op answer w = some (r, v)) :
    QueuedOnce v ∧ RequestGrows w v := by
  by_cases submits : ∃ call, op = .submitTx call
  · obtain ⟨call, rfl⟩ := submits
    obtain ⟨rfl, -⟩ | ⟨msg, u, transacted, rfl⟩ := requestPerform_submitTx performed
    · exact ⟨h, .refl _⟩
    · have queues : call.queues = true := by
        cases x with
        | other => exact may call rfl
        | recovered => exact may call rfl ▸ rfl
        | submitted => cases may
        | scanning =>
          obtain ⟨index, he, -⟩ := may
          cases he
        | found => exact may.elim
      exact submits_grows h queues transacted
  · obtain rfl | ⟨chainId, address, rfl⟩ :=
      requestPerform_quiet performed fun call he => submits ⟨call, he⟩
    · exact ⟨h, .refl _⟩
    · exact read_grows h chainId address

/-- The entry that a request makes is one of the user that the service recovered. -/
theorem submitted_knows {user : Address} {tokenId : Bytes32} {amount nonce : U256}
    {signature : Bytes} {msg : Msg} {u : RequestWorld R.contract}
    (recovered : R.recoverMessage (.withdraw tokenId amount nonce) signature = some user)
    (transacted : w.transact ⟨msg, .requestWithdrawal tokenId amount nonce signature⟩ = some u) :
    (LocatePhase.submitted user tokenId amount).Knows R i (u.create i) := by
  obtain ⟨s, o, step, rfl⟩ := RequestWorld.transact_eq_some transacted
  obtain ⟨entry, signer, appended, own, signed⟩ := step.requested
  obtain rfl : signer = user :=
    Option.some.inj ((R.recovers _ _ _ signed).symm.trans recovered)
  refine ⟨s.withdrawals.length - 1, List.mem_append_right _ (List.mem_singleton_self _), entry, ?_,
    own⟩
  show s.withdrawals[s.withdrawals.length - 1]? = some entry
  simp [appended]

/-- The newest entry of the window is the task's own. -/
theorem scanning_knows {user : Address} {tokenId : Bytes32} {amount : U256} {s : State}
    (once : QueuedOnce w) (known : (LocatePhase.submitted user tokenId amount).Knows R i w)
    (shown : s ∈ w.states) (counts : CountsOwn w i s) :
    (LocatePhase.scanning user tokenId amount
      (s.withdrawals.length - withdrawalIndexScanWindow) s.withdrawals.length).Knows R i w := by
  have queue := once.past s shown
  have made {index : ℕ} (hi : index < s.withdrawals.length) {user : Address} {tokenId : Bytes32}
      {amount : U256} (hm : w.Made user tokenId amount index) :
      ∃ other, s.withdrawals[index]? = some other ∧
        isRequestOf user tokenId amount other = true := by
    obtain ⟨entry, found, own⟩ := hm
    obtain ⟨entry', found', core⟩ := entry_of_prefix queue (List.getElem?_eq_getElem hi)
    obtain rfl := Option.some.inj (found'.symm.trans found)
    exact ⟨_, List.getElem?_eq_getElem hi, (isRequestOf_congr core ..).symm.trans own⟩
  refine ⟨by simpa using queue.length_le, fun index floor below hm newest => ?_⟩
  obtain ⟨own, created, ownMade⟩ := known
  obtain ⟨entry, found, isOwn⟩ := ownMade
  obtain ⟨other, shownEntry, isOther⟩ := made below hm
  have same : entry.userAddress = user ∧ entry.amount = amount ∧ entry.tokenId = tokenId := by
    simpa [isRequestOf, and_assoc] using isOwn
  obtain ⟨rfl, rfl, rfl⟩ := same
  obtain ⟨before, inside⟩ :=
    counts _ created rfl entry found index below floor other shownEntry isOther
  obtain rfl : index = own := by
    by_contra ne
    exact newest own (by omega) inside ⟨entry, found, isOwn⟩
  exact created

theorem scanned_knows {user : Address} {tokenId : Bytes32} {amount : U256} {floor index : ℕ}
    {entry : WithdrawalRequest} {s : State} (once : QueuedOnce w)
    (known : (LocatePhase.scanning user tokenId amount floor (index + 1)).Knows R i w)
    (inside : floor ≤ index) (shown : s ∈ w.states) (found : s.withdrawals[index]? = some entry) :
    ((LocatePhase.scanning user tokenId amount floor (index + 1)).next (.withdrawal index)
      (.ok entry)).Knows R i w := by
  obtain ⟨bound, newest⟩ := known
  obtain ⟨entry', found', core⟩ := entry_of_prefix (once.past s shown) found
  have same := isRequestOf_congr core user tokenId amount
  have made : w.Made user tokenId amount index ↔ isRequestOf user tokenId amount entry = true := by
    constructor
    · rintro ⟨x, hx, own⟩
      obtain rfl := Option.some.inj (found'.symm.trans hx)
      exact same.symm.trans own
    · exact fun own => ⟨entry', found', same.trans own⟩
  simp only [LocatePhase.next]
  split
  · next own =>
    exact newest index inside (Nat.lt_succ_self _) (made.mpr own) fun later _ _ => by omega
  · next other =>
    refine ⟨by omega, fun k hf hl hm last => newest k hf (by omega) hm fun later hlt hle => ?_⟩
    obtain rfl | lt := Nat.eq_or_lt_of_le (Nat.le_of_lt_succ hle)
    · exact fun m => other (made.mp m)
    · exact last later hlt lt

theorem locate_perform {x : LocatePhase} {op : RequestOp} {answer : RequestAnswer}
    {r : Except RequestError op.Reply} (once : QueuedOnce w) (known : x.Knows R i w)
    (may : x.May op) (performed : requestPerform R i op answer w = some (r, v))
    (counts : ∀ lag s, answer = .count lag → w.node lag = some s → CountsOwn w i s) :
    (x.next op r).Knows R i v := by
  have grows := (requestPerform_grows once may performed).2
  cases x with
  | other =>
    cases op with
    | recoverSigner message signature =>
      obtain ⟨rfl, recovered⟩ := requestPerform_recoverSigner performed
      cases r with
      | ok user =>
        cases message with
        | withdraw => exact recovered user rfl
        | _ => trivial
      | error e => cases message <;> trivial
    | _ => trivial
  | recovered user tokenId amount nonce signature =>
    cases op with
    | submitTx call =>
      obtain rfl := may call rfl
      obtain ⟨rfl, e, rfl⟩ | ⟨msg, u, transacted, rfl⟩ := requestPerform_submitTx performed
      · trivial
      · cases r with
        | ok => exact submitted_knows known transacted
        | error => trivial
    | _ => cases r <;> exact known
  | submitted user tokenId amount =>
    obtain rfl := may
    obtain ⟨rfl, reads⟩ := requestPerform_withdrawalCount performed
    cases r with
    | ok count =>
      obtain ⟨lag, s, rfl, shown, rfl⟩ := reads count rfl
      exact scanning_knows once known (List.mem_of_getElem? shown) (counts lag s rfl shown)
    | error => trivial
  | scanning user tokenId amount floor left =>
    obtain ⟨index, rfl, inside, rfl⟩ := may
    obtain ⟨rfl, reads⟩ := requestPerform_withdrawal performed
    cases r with
    | ok entry =>
      obtain ⟨s, shown, found⟩ := reads entry rfl
      exact scanned_knows once known inside shown found
    | error => trivial
  | found => exact may.elim

end World

section System

/-- The index that a task has reported. -/
def reportedIndex {P : Platform} (s : RequestPool P) (i : ℕ) : Option ℕ :=
  match s.tasks[i]? with
  | some (.done (.ok (some submission))) => submission.index
  | _ => none

/-- What the nodes show when a task counts the entries: no later one like its own. -/
def CountsOwnEvent {P : Platform} (e : RequestEvent) (w : RequestWorld P) : Prop :=
  match e with
  | .run i (.count lag) => ∀ s ∈ w.node lag, CountsOwn w i s
  | _ => True

instance {P : Platform} (e : RequestEvent) (w : RequestWorld P) : Decidable (CountsOwnEvent e w) :=
  match e with
  | .run i (.count lag) => inferInstanceAs (Decidable (∀ s ∈ w.node lag, CountsOwn w i s))
  | .run _ .fail | .run _ (.node _) | .run _ .direct | .run _ (.listed _)
  | .run _ (.executed ..) | .move _ | .start _ | .cancel _ | .restart => isTrue trivial

theorem locate_respects (R : RequestPlatform) (S : RequestSettings) :
    (requestSystem R S).Respects (locateTypestate R)
      (fun r y => ∀ context index, r = .ok (some ⟨context, some index⟩) → y = .found index)
      CountsOwnEvent where
  perform allowed once _ known may performed :=
    have kept := requestPerform_grows once may performed
    ⟨trivial, kept.1, locate_perform once known may performed fun lag s he shown => by
      subst he
      exact allowed s shown, fun _ _ _ => kept.2.knows⟩
  move _ once moved :=
    have kept := requestMove_grows once moved
    ⟨kept.1, fun _ _ => kept.2.knows⟩
  start {n p w v} _ once started := by
    obtain rfl : w = v := Option.some.inj started
    refine ⟨once, ⟨.other, ?_, trivial⟩, fun _ _ _ h => h⟩
    cases p with
    | requestWithdrawal => exact requestWithdrawalTask_locates ..
    | withdrawFromLock => exact withdrawFromLockTask_locates ..
  leave _ once := ⟨once, trivial, fun _ _ _ h => h⟩
  restart _ once := ⟨once.past, once.queued, once.once⟩
  cancelled _ _ h := by cases h

variable {R : RequestPlatform} {S : RequestSettings}

/-- Every task is in a phase of the typestate. -/
def Locating (R : RequestPlatform) (s : RequestPool R.contract) : Prop :=
  ∃ phase, (locateTypestate R).Tracks
    (fun r y => ∀ context index, r = .ok (some ⟨context, some index⟩) → y = .found index) s phase

theorem requestStart_locating (evm gasTank : Address × Bytes32) (native : U256 × Address → ℕ) :
    Locating R (requestStart R.contract evm gasTank native) := by
  refine ⟨fun _ => .other, ⟨fun s hs => ?_, ?_, List.nodup_nil⟩, ?_⟩
  · obtain rfl := List.mem_singleton.mp hs
    exact List.prefix_rfl
  · exact fun _ h => (List.not_mem_nil h).elim
  · exact fun i p h => by cases h

theorem created_step {s t : RequestPool R.contract} {e : RequestEvent} {o : Option RequestOp}
    (h : Locating R s) (step : TaskSystem.Step (requestSystem R S) s e t o) :
    s.world.created ⊆ t.world.created := by
  obtain ⟨phase, tracks⟩ := h
  cases step with
  | run task performed =>
    exact (requestPerform_grows tracks.world (tracks.tasks _ _ task).1.1 performed).2.created
  | move moved => exact (requestMove_grows tracks.world moved).2.created
  | start started =>
    obtain rfl := Option.some.inj started
    exact fun _ h => h
  | cancel => exact fun _ h => h
  | restart => exact fun _ h => h

theorem created_run {s : RequestPool R.contract} (h : Locating R s) (es : List RequestEvent)
    (allowed : ∀ e ∈ (requestSystem R S).machine.log s es, CountsOwnEvent e.input e.before.world) :
    s.world.created ⊆ ((requestSystem R S).machine.run s es).world.created :=
  ((requestSystem R S).machine.run_invariant_where
    (I := fun t => Locating R t ∧ s.world.created ⊆ t.world.created)
    (C := fun e => CountsOwnEvent e.input e.before.world) ⟨h, fun _ h => h⟩
    (fun _ _ _ _ ⟨⟨_, tracks⟩, created⟩ hx ok =>
      have step := TaskSystem.exec_step hx
      ⟨step.tracks (locate_respects R S) tracks ok,
        fun _ hc => created_step ⟨_, tracks⟩ step (created hc)⟩) es allowed).2

/-- Every index that a task reports is the one of the entry its own transaction has made. -/
def ReportsOwn {P : Platform} (s : RequestPool P) : Prop :=
  ∀ i index, reportedIndex s i = some index → (s.world.id i, index) ∈ s.world.created

theorem Locating.reportsOwn {s : RequestPool R.contract} (h : Locating R s) : ReportsOwn s := by
  intro i index reports
  obtain ⟨phase, tracks⟩ := h
  unfold reportedIndex at reports
  split at reports
  · next submission task =>
    obtain ⟨post, known⟩ := tracks.tasks i _ task
    have found : phase i = .found index := post submission.context index (by rw [← reports])
    rw [found] at known
    exact known
  · cases reports

/-- In a run where every task that counts the entries is shown none like its own after its own,
the index that a task reports is the one of the entry its own transaction has made, and different
tasks report different indices. -/
theorem withdrawal_index_own (R : RequestPlatform) (S : RequestSettings)
    (evm gasTank : Address × Bytes32) (native : U256 × Address → ℕ) (es : List RequestEvent)
    (counts : ∀ e ∈ (requestSystem R S).machine.log
      (requestStart R.contract evm gasTank native) es, CountsOwnEvent e.input e.before.world) :
    (∀ js, js <+: es → ReportsOwn (requestRun R S evm gasTank native js)) ∧
    ∀ js ks, js <+: es → ks <+: es → ∀ i k index,
      reportedIndex (requestRun R S evm gasTank native js) i = some index →
      reportedIndex (requestRun R S evm gasTank native ks) k = some index →
      (requestRun R S evm gasTank native js).world.id i =
        (requestRun R S evm gasTank native ks).world.id k := by
  have locating (js : List RequestEvent) (hjs : js <+: es) :
      Locating R (requestRun R S evm gasTank native js) := by
    obtain ⟨phase, start⟩ := requestStart_locating (R := R) evm gasTank native
    exact (locate_respects R S).run start js fun e he =>
      counts e ((requestSystem R S).machine.mem_log_of_prefix hjs he)
  have final (js : List RequestEvent) (hjs : js <+: es) :
      (requestRun R S evm gasTank native js).world.created ⊆
        (requestRun R S evm gasTank native es).world.created := by
    obtain ⟨rest, rfl⟩ := hjs
    rw [requestRun, requestRun, TransactionMachine.run_append]
    refine created_run (locating js (List.prefix_append _ _)) rest fun e he => counts e ?_
    rw [TransactionMachine.log_append]
    exact List.mem_append_right _ he
  refine ⟨fun js hjs => (locating js hjs).reportsOwn,
    fun js ks hjs hks i k index first second => ?_⟩
  obtain ⟨phase, tracks⟩ := locating es List.prefix_rfl
  have own := final js hjs ((locating js hjs).reportsOwn i index first)
  have other := final ks hks ((locating ks hks).reportsOwn k index second)
  exact congrArg Prod.fst (List.inj_on_of_nodup_map tracks.world.once own other rfl)

end System

def sampleRequestPlatform : RequestPlatform where
  contract := sampleQueuePlatform
  recoverMessage message signature :=
    sampleQueuePlatform.recover (hashTypedDataV4 sampleQueuePlatform message) signature
  recovers _ _ _ h := h

def sampleRequestSettings : RequestSettings := ⟨10000000000000⟩

/-- A token, its gas price and a deposit of the user. -/
def sampleFunding : List RequestEvent :=
  let rofl (blockNumber : U256) : Msg := ⟨sampleUser, true, blockNumber, 1700000000⟩
  [⟨rofl 1, .setTokenInfo sampleToken⟩, ⟨rofl 1, .setGasPrice 84532 1000000000⟩,
    ⟨rofl 2, .creditDeposit sampleUser sampleTokenId 10 7⟩].map fun tx => .move (.transact tx)

/-- A task makes its request and submits it. -/
def sampleSubmission (i : ℕ) (nonce : U256) (signature : Bytes) : List RequestEvent :=
  .start (.requestWithdrawal sampleTokenId 4 nonce signature) ::
    [.direct, .node 0, .listed true, .node 0, .direct, .direct, .node 0, .direct,
      .executed ⟨sampleUser, true, 3, 1700000000⟩ true].map (.run i)

/-- A user's second withdrawal of the same amount comes before the first request looks for its
entry. -/
def sampleRequestEvents : List RequestEvent :=
  sampleFunding ++ sampleSubmission 0 0 sampleSignature ++
    sampleSubmission 1 1 sampleNextSignature ++
    [.run 0 (.count 0), .run 0 (.node 0), .run 1 (.count 0), .run 1 (.node 0)]

def sampleRequestRun (es : List RequestEvent) : RequestPool sampleQueuePlatform :=
  requestRun sampleRequestPlatform sampleRequestSettings sampleEvm sampleGasTank
    (fun _ => 1000000000000000) es

theorem sampleRequestRun_reports :
    reportedIndex (sampleRequestRun sampleRequestEvents) 0 = some 1 ∧
      reportedIndex (sampleRequestRun sampleRequestEvents) 1 = some 1 ∧
      (sampleRequestRun sampleRequestEvents).world.created = [(⟨0, 0⟩, 0), (⟨0, 1⟩, 1)] := by
  decide +kernel

/-- The first request reports the entry of the second one. -/
theorem withdrawal_index_foreign : ¬ ReportsOwn (sampleRequestRun sampleRequestEvents) := by
  intro own
  obtain ⟨first, -, created⟩ := sampleRequestRun_reports
  have mine := own 0 1 first
  rw [created] at mine
  simp [RequestWorld.id] at mine

/-- The requests one after the other. -/
def sampleOrderlyEvents : List RequestEvent :=
  sampleFunding ++ sampleSubmission 0 0 sampleSignature ++ [.run 0 (.count 0), .run 0 (.node 0)] ++
    sampleSubmission 1 1 sampleNextSignature ++ [.run 1 (.count 0), .run 1 (.node 0)]

theorem sampleOrderlyEvents_count : ∀ e ∈ (requestSystem sampleRequestPlatform
    sampleRequestSettings).machine.log (requestStart sampleQueuePlatform sampleEvm sampleGasTank
      fun _ => 1000000000000000) sampleOrderlyEvents, CountsOwnEvent e.input e.before.world := by
  decide +kernel

theorem withdrawal_index_own_sample :
    (∀ js, js <+: sampleOrderlyEvents → ReportsOwn (sampleRequestRun js)) ∧
    ∀ js ks, js <+: sampleOrderlyEvents → ks <+: sampleOrderlyEvents → ∀ i k index,
      reportedIndex (sampleRequestRun js) i = some index →
      reportedIndex (sampleRequestRun ks) k = some index →
      (sampleRequestRun js).world.id i = (sampleRequestRun ks).world.id k :=
  withdrawal_index_own sampleRequestPlatform sampleRequestSettings sampleEvm sampleGasTank
    (fun _ => 1000000000000000) sampleOrderlyEvents sampleOrderlyEvents_count

example : reportedIndex (sampleRequestRun sampleOrderlyEvents) 0 = some 0 ∧
    reportedIndex (sampleRequestRun sampleOrderlyEvents) 1 = some 1 := by
  decide +kernel

end Privana
