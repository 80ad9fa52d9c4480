import Privana.ExecuteStep

/-! The lock arrays of the users, seen apart from the rest of the state: what one
step does to the array of one user, up to the order of its elements. -/

namespace Privana
open BigEndian

variable {P : Platform} {m : Msg}

/-- A call that addresses lock `l` of user `u` by its id leaves `left` of it. -/
inductive LockAct (m : Msg) (o : Output P) (u : Address) (l : FundLock) :
    Call → List FundLock → Prop
  | modify {amount newExpiry nonce n : U256} {signature : Bytes} {a : Approval P}
      (approval : o.approval = some a) (signed : a.signature = signature) (owner : a.signer = u)
      (message : a.message = .modifyLock l.lockId amount newExpiry nonce)
      (later : l.expiry ≤ newExpiry) (added : n.toNat = l.amount.toNat + amount.toNat) :
      LockAct m o u l (.modifyLock l.lockId amount newExpiry nonce signature)
        [{ l with amount := n, expiry := newExpiry }]
  | unlock (expired : l.expiry ≤ m.timestamp) : LockAct m o u l (.unlockSingleLock u l.lockId) []
  | drop (empty : l.amount = 0) : LockAct m o u l (.unlockSingleLock u l.lockId) []
  | transferFrom {toAddress : Address} {amount nonce n : U256} {signature : Bytes}
      {a : Approval P} (approval : o.approval = some a) (signed : a.signature = signature)
      (service : a.signer = l.serviceId)
      (message : a.message = .transferLocked u toAddress l.lockId amount nonce l.serviceId)
      (taken : n.toNat + amount.toNat = l.amount.toNat) :
      LockAct m o u l (.transferFromLock u toAddress l.lockId amount nonce signature)
        (remainder l n)
  | transferTo {amount nonce n : U256} {signature : Bytes} {a : Approval P}
      (approval : o.approval = some a) (service : a.signer = l.serviceId)
      (message : a.message = .transferToLock u l.lockId amount nonce)
      (added : n.toNat = l.amount.toNat + amount.toNat) :
      LockAct m o u l (.transferToLock u l.lockId amount nonce signature)
        [{ l with amount := n }]
  | withdraw {toAddress : Address} {amount nonce n : U256} {signature : Bytes}
      {a : Approval P} (approval : o.approval = some a) (signed : a.signature = signature)
      (service : a.signer = l.serviceId)
      (message : a.message = .withdrawFromLock u toAddress l.lockId amount nonce)
      (taken : n.toNat + amount.toNat = l.amount.toNat) :
      LockAct m o u l (.withdrawFromLock u toAddress l.lockId amount nonce signature)
        (remainder l n)

theorem Approval.recovers {a : Approval P} {message : Message} {signature : Bytes}
    (hm : a.message = message) (hs : a.signature = signature) :
    P.recover (hashTypedDataV4 P message) signature = some a.signer := by
  rw [← hm, ← hs]
  exact a.recovered

/-- The account whose signature a `createLock` or a `modifyLock` carries. -/
def Call.signer? (P : Platform) : Call → Option Address
  | .createLock serviceAddress tokenId amount expiry nonce signature =>
    P.recover (hashTypedDataV4 P (.lock serviceAddress tokenId amount expiry nonce)) signature
  | .modifyLock lockId amount newExpiry nonce signature =>
    P.recover (hashTypedDataV4 P (.modifyLock lockId amount newExpiry nonce)) signature
  | _ => none

/-- The user and the lock id a call addresses. -/
def Call.lockTarget? (P : Platform) (call : Call) : Option (Address × U256) :=
  match call with
  | .modifyLock lockId .. => (call.signer? P).map (·, lockId)
  | .unlockSingleLock userAddress lockId => some (userAddress, lockId)
  | .transferFromLock userAddress _ lockId .. => some (userAddress, lockId)
  | .transferToLock userAddress lockId .. => some (userAddress, lockId)
  | .withdrawFromLock userAddress _ lockId .. => some (userAddress, lockId)
  | _ => none

theorem LockAct.lockTarget {o : Output P} {u : Address} {l : FundLock} {call : Call}
    {left : List FundLock} (h : LockAct m o u l call left) :
    call.lockTarget? P = some (u, l.lockId) := by
  cases h with
  | modify approval signed owner message =>
    simp only [Call.lockTarget?, Call.signer?, Approval.recovers message signed, owner,
      Option.map_some]
  | _ => rfl

/-- What a step does to the lock array of user `u`. -/
inductive LockChange (m : Msg) (call : Call) (o : Output P) (nextLockId : U256) (u : Address) :
    List FundLock → List FundLock → Prop
  | same (xs : List FundLock) : LockChange m call o nextLockId u xs xs
  | create {xs : List FundLock} {serviceAddress : Address} {tokenId : Bytes32}
      {amount expiry nonce : U256} {signature : Bytes} {a : Approval P}
      (created : call = .createLock serviceAddress tokenId amount expiry nonce signature)
      (signed : a.signature = signature) (owner : a.signer = u)
      (message : a.message = .lock serviceAddress tokenId amount expiry nonce)
      (positive : amount ≠ 0) (room : xs.length < 10) :
      LockChange m call o nextLockId u xs
        (xs ++ [⟨nextLockId, serviceAddress, tokenId, amount, expiry⟩])
  | act {xs ys locks left : List FundLock} {l : FundLock} (found : xs.Perm (l :: locks))
      (acts : LockAct m o u l call left) (kept : ys.Perm (left ++ locks)) :
      LockChange m call o nextLockId u xs ys
  | unlockAll {xs ys removed : List FundLock} (all : call = .unlockAllExpiredLocks u)
      (found : xs.Perm (removed ++ ys)) (expired : ∀ l ∈ removed, l.expiry ≤ m.timestamp)
      (rest : ∀ l ∈ ys, ¬ (l.expiry ≤ m.timestamp ∧ 0 < l.amount)) :
      LockChange m call o nextLockId u xs ys

theorem LockChange.cases {call : Call} {o : Output P} {nextLockId : U256} {u : Address}
    {xs ys : List FundLock} (h : LockChange m call o nextLockId u xs ys) :
    ys = xs ∨ (∃ l, ys = xs ++ [l] ∧ l.lockId = nextLockId) ∨
      (∃ l locks left, xs.Perm (l :: locks) ∧ LockAct m o u l call left ∧
        ys.Perm (left ++ locks)) ∨
      (call = .unlockAllExpiredLocks u ∧ ∃ removed, xs.Perm (removed ++ ys) ∧
        ∀ l ∈ removed, l.expiry ≤ m.timestamp) := by
  cases h with
  | same => exact .inl rfl
  | create => exact .inr (.inl ⟨_, rfl, rfl⟩)
  | act found acts kept => exact .inr (.inr (.inl ⟨_, _, _, found, acts, kept⟩))
  | unlockAll all found expired => exact .inr (.inr (.inr ⟨all, _, found, expired⟩))

theorem Unlock.activeLocks {u : Address} {l : FundLock} {s s' : State} (h : Unlock m u l s s') :
    (s.activeLocks u).Perm (l :: s'.activeLocks u) ∧
      ∀ w, w ≠ u → s'.activeLocks w = s.activeLocks w := by
  obtain ⟨b, locks, -, hl, rfl⟩ := h.moved
  refine ⟨by simpa using hl, fun w hw => ?_⟩
  simp [State.activeLocks_setLocks, hw]

theorem Unlocks.activeLocks {u : Address} {ls : List FundLock} {s s' : State}
    (h : Unlocks m u ls s s') :
    (s.activeLocks u).Perm (ls ++ s'.activeLocks u) ∧
      (∀ w, w ≠ u → s'.activeLocks w = s.activeLocks w) ∧ ∀ l ∈ ls, l.expiry ≤ m.timestamp := by
  induction h with
  | nil => exact ⟨List.Perm.refl _, fun _ _ => rfl, by simp⟩
  | cons first _ ih =>
    obtain ⟨hp, hw, he⟩ := ih
    refine ⟨first.activeLocks.1.trans (hp.cons _), fun w h => ?_, ?_⟩
    · rw [hw w h, first.activeLocks.2 w h]
    · rintro l (_ | ⟨_, hl⟩)
      · exact first.expired
      · exact he l hl

theorem Schedules.activeLocks {s s' : State} {userAddress toAddress : Address}
    {tokenId : Bytes32} {amount chainId : U256}
    (h : Schedules m userAddress toAddress tokenId amount chainId s s') (u : Address) :
    s'.activeLocks u = s.activeLocks u := by
  obtain ⟨_, -, rfl⟩ := h.queued
  rfl

/-- A call that addresses a lock finds it in its owner's array, acts on it, and
leaves every other lock. -/
theorem Step.lockAct {call : Call} {s s' : State} {o : Output P} (h : Step P m call s s' o)
    {u : Address} {lockId : U256}
    (ht : call.lockTarget? P = some (u, lockId)) :
    ∃ l locks left, l.lockId = lockId ∧ (s.activeLocks u).Perm (l :: locks) ∧
      LockAct m o u l call left ∧ (s'.activeLocks u).Perm (left ++ locks) ∧
      ∀ w, w ≠ u → s'.activeLocks w = s.activeLocks w := by
  have hset {t : State} {v : Address} {xs : List FundLock} (w : Address) (hw : w ≠ v) :
      (t.setLocks v xs).activeLocks w = t.activeLocks w := by
    rw [State.activeLocks_setLocks, if_neg hw]
  cases h with
  | modifyLock message signed _ found id extends_ _ _ added left =>
    simp only [Call.lockTarget?, Call.signer?, Approval.recovers message signed,
      Option.map_some] at ht
    obtain ⟨rfl, rfl⟩ := Prod.mk.inj (Option.some.inj ht)
    subst id
    exact ⟨_, _, _, rfl, found, .modify rfl signed rfl message extends_ added,
      by simpa using left, hset⟩
  | unlockSingleLock id unlock =>
    obtain ⟨rfl, rfl⟩ := Prod.mk.inj (Option.some.inj ht)
    subst id
    exact ⟨_, _, _, rfl, unlock.activeLocks.1, .unlock unlock.expired, List.Perm.refl _,
      unlock.activeLocks.2⟩
  | dropEmptyLock id empty found =>
    obtain ⟨rfl, rfl⟩ := Prod.mk.inj (Option.some.inj ht)
    subst id
    exact ⟨_, _, _, rfl, found, .drop empty, by simp, hset⟩
  | transferFromLock _ _ message signed service _ found id taken _ left =>
    obtain ⟨rfl, rfl⟩ := Prod.mk.inj (Option.some.inj ht)
    subst id
    refine ⟨_, _, _, rfl, found, .transferFrom rfl signed service message taken, ?_, fun w hw => ?_⟩
    · split_ifs <;> simpa using left
    · split_ifs <;> exact hset w hw
  | transferToLock _ message _ service _ found id _ added left =>
    obtain ⟨rfl, rfl⟩ := Prod.mk.inj (Option.some.inj ht)
    subst id
    exact ⟨_, _, _, rfl, found, .transferTo rfl service message added, by simpa using left, hset⟩
  | withdrawFromLock _ _ message signed service _ found id taken left schedules =>
    obtain ⟨rfl, rfl⟩ := Prod.mk.inj (Option.some.inj ht)
    subst id
    refine ⟨_, _, _, rfl, found, .withdraw rfl signed service message taken, ?_, fun w hw => ?_⟩
    · simpa [schedules.activeLocks] using left
    · exact (schedules.activeLocks w).trans (hset w hw)
  | _ => cases ht

/-- A step changes the locks of at most one user, in one of the listed ways. -/
theorem Step.lockChange {call : Call} {s s' : State} {o : Output P} (h : Step P m call s s' o)
    (w : Address) :
    LockChange m call o s.nextLockId w (s.activeLocks w) (s'.activeLocks w) := by
  cases ht : call.lockTarget? P with
  | some target =>
    obtain ⟨l, locks, left, -, found, acts, kept, others⟩ := h.lockAct ht
    by_cases hw : w = target.1
    · rw [hw]
      exact .act found acts kept
    · rw [others w hw]
      exact .same _
  | none =>
    cases h with
    | createLock _ positive message signed _ room =>
      simp only [State.activeLocks_appendUserCounterpartyHistory, State.activeLocks_setLocks]
      split
      · next hw =>
        subst hw
        exact .create rfl signed rfl message positive room
      · exact .same _
    | @unlockAllExpiredLocks _ _ userAddress _ _ unlocks rest =>
      obtain ⟨found, others, expired⟩ := unlocks.activeLocks
      by_cases hw : w = userAddress
      · subst hw
        exact .unlockAll rfl found expired rest
      · rw [others w hw]
        exact .same _
    | transferBalance => split_ifs <;> exact .same _
    | requestWithdrawal _ _ _ _ _ schedules =>
      rw [State.activeLocks_appendUserCounterpartyHistory, schedules.activeLocks]
      exact .same _
    | modifyLock message signed =>
      simp [Call.lockTarget?, Call.signer?, Approval.recovers message signed] at ht
    | unlockSingleLock => cases ht
    | dropEmptyLock => cases ht
    | transferFromLock => cases ht
    | transferToLock => cases ht
    | withdrawFromLock => cases ht
    | _ => exact .same _

end Privana
