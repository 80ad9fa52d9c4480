import Privana.LedgerBook
import Privana.LockStructure

/-! Who may move funds. For every call from a reachable state: a free balance goes
down only under its owner's signature, a lock only under its service's signature
or at its expiry, and users who are no party to the call keep everything. -/

namespace Privana
open BigEndian

variable {P : Platform} {m : Msg}

/-- The signed calls that may lower the signer's free balance of token `t`. -/
inductive SignedDebit (s : State) (t : Bytes32) (a : Approval P) : Call → Prop
  | createLock {serviceAddress : Address} {amount expiry nonce : U256}
      (message : a.message = .lock serviceAddress t amount expiry nonce) :
      SignedDebit s t a (.createLock serviceAddress t amount expiry nonce a.signature)
  | modifyLock {lockId amount newExpiry nonce : U256} {l : FundLock} (positive : amount ≠ 0)
      (message : a.message = .modifyLock lockId amount newExpiry nonce)
      (own : l ∈ s.activeLocks a.signer) (id : l.lockId = lockId) (token : l.tokenId = t) :
      SignedDebit s t a (.modifyLock lockId amount newExpiry nonce a.signature)
  | transferBalance {toAddress : Address} {amount nonce : U256}
      (message : a.message = .transfer toAddress t amount nonce) :
      SignedDebit s t a (.transferBalance toAddress t amount nonce a.signature)
  | requestWithdrawal {amount nonce : U256} (message : a.message = .withdraw t amount nonce) :
      SignedDebit s t a (.requestWithdrawal t amount nonce a.signature)
  | transferToLock {userAddress : Address} {lockId amount nonce : U256} {l : FundLock}
      (message : a.message = .transferToLock userAddress lockId amount nonce)
      (found : l ∈ s.activeLocks userAddress) (id : l.lockId = lockId) (token : l.tokenId = t)
      (service : l.serviceId = a.signer) :
      SignedDebit s t a (.transferToLock userAddress lockId amount nonce a.signature)

/-- The signed calls by which the service of a lock takes `amount` out of it. -/
inductive SignedTake (u : Address) (l : FundLock) (amount : U256) (a : Approval P) : Call → Prop
  | transferFromLock {toAddress : Address} {nonce : U256}
      (message : a.message = .transferLocked u toAddress l.lockId amount nonce l.serviceId) :
      SignedTake u l amount a (.transferFromLock u toAddress l.lockId amount nonce a.signature)
  | withdrawFromLock {toAddress : Address} {nonce : U256}
      (message : a.message = .withdrawFromLock u toAddress l.lockId amount nonce) :
      SignedTake u l amount a (.withdrawFromLock u toAddress l.lockId amount nonce a.signature)

/-- The calls that give expired locks of user `u` back. -/
def Call.Unlocks (call : Call) (u : Address) : Prop :=
  (∃ lockId, call = .unlockSingleLock u lockId) ∨ call = .unlockAllExpiredLocks u

/-- What may become of an active lock `l` of user `u`. -/
inductive LockFate (tx : Tx) (s' : State) (o : Output P) (u : Address) (l : FundLock) : Prop
  | kept {l' : FundLock} (mem : l' ∈ s'.activeLocks u) (same : l'.origin u = l.origin u)
      (later : l.expiry ≤ l'.expiry) (more : l.amount ≤ l'.amount)
  | taken {a : Approval P} {amount n : U256} (approval : o.approval = some a)
      (service : a.signer = l.serviceId) (signed : SignedTake u l amount a tx.call)
      (exact : n.toNat + amount.toNat = l.amount.toNat)
      (left : if n = 0 then ∀ x ∈ s'.activeLocks u, x.lockId ≠ l.lockId
        else { l with amount := n } ∈ s'.activeLocks u)
  | released (call : tx.call.Unlocks u) (expired : l.expiry ≤ tx.msg.timestamp)
      (gone : ∀ x ∈ s'.activeLocks u, x.lockId ≠ l.lockId)

/-- The users whose balances, locks or history a call may touch. -/
def Call.Party (call : Call) (signer? : Option Address) (u : Address) : Prop :=
  match call with
  | .creditDeposit beneficiary .. => u = beneficiary
  | .createLock .. => signer? = some u
  | .modifyLock .. => signer? = some u
  | .unlockSingleLock userAddress _ => u = userAddress
  | .unlockAllExpiredLocks userAddress => u = userAddress
  | .transferFromLock userAddress toAddress .. => u = userAddress ∨ u = toAddress
  | .transferToLock userAddress .. => u = userAddress ∨ signer? = some u
  | .withdrawFromLock userAddress .. => u = userAddress
  | .transferBalance toAddress .. => u = toAddress ∨ signer? = some u
  | .requestWithdrawal .. => signer? = some u
  | _ => False

/-- The funds and the history of user `u` are the same in both states. -/
structure SameFor (u : Address) (s s' : State) : Prop where
  balances : s'.balances u = s.balances u
  locks : s'.activeLocks u = s.activeLocks u
  history : s'.history u = s.history u

namespace SameFor

variable {u w : Address} {s s' s'' : State}

theorem refl (u : Address) (s : State) : SameFor u s s := ⟨rfl, rfl, rfl⟩

theorem trans (h : SameFor u s s') (h' : SameFor u s' s'') : SameFor u s s'' :=
  ⟨h'.balances.trans h.balances, h'.locks.trans h.locks, h'.history.trans h.history⟩

theorem setBalance (h : SameFor u s s') (hu : u ≠ w) (t : Bytes32) (b : U256) :
    SameFor u s (s'.setBalance w t b) where
  balances := by
    funext t'
    rw [State.setBalance_balances, Function.update_of_ne hu, h.balances]
  locks := h.locks
  history := h.history

theorem setLocks (h : SameFor u s s') (hu : u ≠ w) (locks : List FundLock) :
    SameFor u s (s'.setLocks w locks) where
  balances := h.balances
  locks := by rw [State.activeLocks_setLocks, if_neg hu, h.locks]
  history := h.history

theorem appendHistory (h : SameFor u s s') (hu : u ≠ w) (m : Msg) (kind : HistoryKind)
    (payload : Bytes) : SameFor u s (s'.appendHistory m w kind payload) where
  balances := h.balances
  locks := h.locks
  history := by rw [State.appendHistory_history, Function.update_of_ne hu, h.history]

theorem appendUserCounterpartyHistory (h : SameFor u s s') (hu : u ≠ w) (m : Msg)
    (kind : HistoryKind) (t : Bytes32) (n : U256) (c : Address) :
    SameFor u s (s'.appendUserCounterpartyHistory m w kind t n c) :=
  h.appendHistory hu _ _ _

theorem schedules {userAddress toAddress : Address} {tokenId : Bytes32} {amount chainId : U256}
    (h : SameFor u s s') (hs : Schedules m userAddress toAddress tokenId amount chainId s' s'') :
    SameFor u s s'' := by
  obtain ⟨_, -, rfl⟩ := hs.queued
  exact ⟨h.balances, h.locks, h.history⟩

theorem unlock {l : FundLock} (h : SameFor u s s') (hu : u ≠ w) (hl : Unlock m w l s' s'') :
    SameFor u s s'' := by
  obtain ⟨b, locks, -, -, rfl⟩ := hl.moved
  exact ((h.setBalance hu _ _).appendUserCounterpartyHistory hu _ _ _ _ _).setLocks hu _

theorem unlocks {ls : List FundLock} (h : SameFor u s s') (hu : u ≠ w)
    (hl : Unlocks m w ls s' s'') : SameFor u s s'' := by
  induction hl with
  | nil => exact h
  | cons first _ ih => exact ih (h.unlock hu first)

end SameFor

/-- Who is no party to a call keeps everything. -/
theorem Step.sameFor {call : Call} {s s' : State} {o : Output P} (h : Step P m call s s' o)
    {u : Address} (hu : ¬ call.Party (o.approval.map (·.signer)) u) : SameFor u s s' := by
  have hv (v : VerifierState) : SameFor u s (s.withVerifier v) := ⟨rfl, rfl, rfl⟩
  cases h with
  | @creditDeposit _ _ _ depositId =>
    have hb : SameFor u s { s with
      processedDeposits := Function.update s.processedDeposits depositId true } := ⟨rfl, rfl, rfl⟩
    exact (hb.setBalance hu _ _).appendHistory hu _ _ _
  | @createLock _ _ tokenId _ _ _ b next _ a v =>
    have hne : u ≠ a.signer := fun he => hu (congrArg some he.symm)
    have hb := (hv v).setBalance hne tokenId b
    have hn : SameFor u s
        { (s.withVerifier v).setBalance a.signer tokenId b with nextLockId := next } :=
      ⟨hb.balances, hb.locks, hb.history⟩
    exact (hn.setLocks hne _).appendUserCounterpartyHistory hne _ _ _ _ _
  | @modifyLock _ _ _ _ _ _ _ _ a =>
    have hne : u ≠ a.signer := fun he => hu (congrArg some he.symm)
    exact (((hv _).setBalance hne _ _).setLocks hne _).appendUserCounterpartyHistory hne _ _ _ _ _
  | unlockSingleLock _ unlock => exact (SameFor.refl u s).unlock hu unlock
  | dropEmptyLock => exact (SameFor.refl u s).setLocks hu _
  | unlockAllExpiredLocks unlocks => exact (SameFor.refl u s).unlocks hu unlocks
  | transferFromLock =>
    have hne := not_or.mp hu
    have ht (v b t locks) := ((hv v).setBalance hne.2 t b).setLocks hne.1 locks
    split_ifs
    · exact ((ht _ _ _ _).appendUserCounterpartyHistory hne.1 _ _ _ _
        _).appendUserCounterpartyHistory hne.2 _ _ _ _ _
    · exact (ht _ _ _ _).appendUserCounterpartyHistory hne.1 _ _ _ _ _
  | @transferToLock _ userAddress _ _ _ _ _ _ a _ l _ _ _ _ _ service =>
    have hne := not_or.mp hu
    have hs : u ≠ l.serviceId := fun he => hne.2 (congrArg some (service.trans he.symm))
    exact ((((hv _).setBalance hs _ _).setLocks hne.1 _).appendUserCounterpartyHistory hs _ _ _ _
      _).appendUserCounterpartyHistory hne.1 _ _ _ _ _
  | withdrawFromLock _ _ _ _ _ _ _ _ _ _ schedules =>
    exact (((hv _).setLocks hu _).schedules schedules).appendUserCounterpartyHistory hu _ _ _ _ _
  | @transferBalance _ _ _ _ _ _ _ _ a =>
    have hne := not_or.mp hu
    have hs : u ≠ a.signer := fun he => hne.2 (congrArg some he.symm)
    have ht (v t t' b b') := ((hv v).setBalance hs t b).setBalance hne.1 t' b'
    split_ifs
    · exact ((ht _ _ _ _ _).appendUserCounterpartyHistory hs _ _ _ _
        _).appendUserCounterpartyHistory hne.1 _ _ _ _ _
    · exact (ht _ _ _ _ _).appendUserCounterpartyHistory hs _ _ _ _ _
  | @requestWithdrawal _ _ _ _ _ _ _ _ a _ _ _ _ _ _ schedules =>
    have hne : u ≠ a.signer := fun he => hu (congrArg some he.symm)
    exact (((hv _).setBalance hne _ _).schedules schedules).appendUserCounterpartyHistory hne _ _ _
      _ _
  | _ => exact ⟨rfl, rfl, rfl⟩

/-- Crediting an account lowers no balance. -/
theorem balances_le_setBalance {s : State} {w : Address} {t : Bytes32} {b : U256}
    (h : (s.balances w t).toNat ≤ b.toNat) (u : Address) (t' : Bytes32) :
    (s.balances u t').toNat ≤ ((s.setBalance w t b).balances u t').toNat := by
  rw [State.balances_setBalance]
  split
  · next he => rwa [he.1, he.2]
  · exact Nat.le_refl _

/-- The only balance that can be lower after an update is the updated one. -/
theorem eq_of_setBalance_lt {s : State} {u w : Address} {t t' : Bytes32} {b : U256}
    (h : ((s.setBalance w t b).balances u t').toNat < (s.balances u t').toNat) :
    u = w ∧ t' = t ∧ (s.setBalance w t b).balances u t' = b := by
  rw [State.balances_setBalance] at h ⊢
  split at h
  · next he => exact ⟨he.1, he.2, if_pos he⟩
  · exact absurd h (Nat.lt_irrefl _)

theorem Unlock.balances_le {w : Address} {l : FundLock} {s s' : State} (h : Unlock m w l s s')
    (u : Address) (t : Bytes32) : (s.balances u t).toNat ≤ (s'.balances u t).toNat := by
  obtain ⟨b, locks, hb, -, rfl⟩ := h.moved
  exact balances_le_setBalance (by omega) u t

theorem Unlocks.balances_le {w : Address} {ls : List FundLock} {s s' : State}
    (h : Unlocks m w ls s s') (u : Address) (t : Bytes32) :
    (s.balances u t).toNat ≤ (s'.balances u t).toNat := by
  induction h with
  | nil => exact Nat.le_refl _
  | cons first _ ih => exact (first.balances_le u t).trans ih

theorem Schedules.balances {s s' : State} {userAddress toAddress : Address} {tokenId : Bytes32}
    {amount chainId : U256} (h : Schedules m userAddress toAddress tokenId amount chainId s s') :
    s'.balances = s.balances := by
  obtain ⟨_, -, rfl⟩ := h.queued
  rfl

/-- A free balance goes down only by a call its owner signed, by at most the
signed amount. -/
theorem Step.signedDebit {call : Call} {s s' : State} {o : Output P} (h : Step P m call s s' o)
    {u : Address} {t : Bytes32} (hlt : (s'.balances u t).toNat < (s.balances u t).toNat) :
    ∃ a, o.approval = some a ∧ a.signer = u ∧ SignedDebit s t a call ∧
      (s.balances u t).toNat ≤ (s'.balances u t).toNat + a.message.amount.toNat := by
  cases h with
  | @creditDeposit _ beneficiary tokenId depositId _ b _ _ _ _ _ balance =>
    have hle := balances_le_setBalance (s := { s with
      processedDeposits := Function.update s.processedDeposits depositId true })
      (w := beneficiary) (t := tokenId) (b := b) (Nat.le.intro balance.symm) u t
    exact absurd hlt (Nat.not_lt.mpr hle)
  | @createLock _ _ _ _ _ _ b _ _ a v _ _ message signed _ _ balance =>
    obtain ⟨rfl, rfl, hb⟩ := eq_of_setBalance_lt (s := s.withVerifier v) hlt
    subst signed
    refine ⟨a, rfl, rfl, .createLock message, ?_⟩
    change _ ≤ (((s.withVerifier v).setBalance a.signer _ b).balances _ _).toNat + _
    rw [hb, message]
    exact Nat.le_of_eq balance.symm
  | @modifyLock _ _ amount _ _ b _ _ a v _ _ _ message signed _ found id _ _ balance =>
    obtain ⟨rfl, rfl, hb⟩ := eq_of_setBalance_lt (s := s.withVerifier v) hlt
    subst signed
    have hpos : amount ≠ 0 := by
      rintro rfl
      change (((s.withVerifier v).setBalance a.signer _ b).balances _ _).toNat < _ at hlt
      rw [hb, ← balance] at hlt
      exact Nat.lt_irrefl _ hlt
    refine ⟨a, rfl, rfl, .modifyLock hpos message (found.mem_iff.mpr List.mem_cons_self) id rfl, ?_⟩
    change _ ≤ (((s.withVerifier v).setBalance a.signer _ b).balances _ _).toNat + _
    rw [hb, message]
    exact Nat.le_of_eq balance.symm
  | unlockSingleLock _ unlock => exact absurd hlt (Nat.not_lt.mpr (unlock.balances_le u t))
  | unlockAllExpiredLocks unlocks => exact absurd hlt (Nat.not_lt.mpr (unlocks.balances_le u t))
  | @transferFromLock _ _ toAddress _ _ _ b _ _ _ v l _ _ _ _ _ _ _ _ _ _ _ balance =>
    have hle := balances_le_setBalance (s := s.withVerifier v) (w := toAddress) (t := l.tokenId)
      (b := b) (Nat.le.intro balance.symm) u t
    refine absurd hlt (Nat.not_lt.mpr (hle.trans (Nat.le_of_eq ?_)))
    split_ifs <;> rfl
  | @transferToLock _ _ _ _ _ b _ _ a v l _ _ _ message signed service _ found id balance =>
    obtain ⟨rfl, rfl, hb⟩ := eq_of_setBalance_lt (s := s.withVerifier v) hlt
    subst signed
    refine ⟨a, rfl, service, .transferToLock message (found.mem_iff.mpr List.mem_cons_self) id rfl
      service.symm, ?_⟩
    change _ ≤ (((s.withVerifier v).setBalance l.serviceId _ b).balances _ _).toNat + _
    rw [hb, message]
    exact Nat.le_of_eq balance.symm
  | withdrawFromLock _ _ _ _ _ _ _ _ _ _ schedules =>
    rw [State.appendUserCounterpartyHistory_balances, schedules.balances] at hlt
    exact absurd hlt (Nat.lt_irrefl _)
  | @transferBalance _ toAddress tokenId _ _ b b' _ a v _ _ message signed _ debit credit =>
    have hle := balances_le_setBalance (s := (s.withVerifier v).setBalance a.signer tokenId b)
      (w := toAddress) (t := tokenId) (b := b') (Nat.le.intro credit.symm) u t
    have hend : ((((s.withVerifier v).setBalance a.signer tokenId b).setBalance toAddress tokenId
        b').balances u t).toNat < (s.balances u t).toNat := by
      split_ifs at hlt <;> exact hlt
    obtain ⟨rfl, rfl, hb⟩ := eq_of_setBalance_lt (s := s.withVerifier v) (hle.trans_lt hend)
    subst signed
    refine ⟨a, rfl, rfl, .transferBalance message, ?_⟩
    rw [hb] at hle
    rw [message]
    split_ifs <;> exact (Nat.le_of_eq debit.symm).trans (Nat.add_le_add_right hle _)
  | @requestWithdrawal _ _ _ _ _ b _ _ a v _ message signed _ debit schedules =>
    rw [State.appendUserCounterpartyHistory_balances, schedules.balances] at hlt
    obtain ⟨rfl, rfl, hb⟩ := eq_of_setBalance_lt (s := s.withVerifier v) hlt
    subst signed
    refine ⟨a, rfl, rfl, .requestWithdrawal message, ?_⟩
    rw [State.appendUserCounterpartyHistory_balances, schedules.balances, hb, message]
    exact Nat.le_of_eq debit.symm
  | _ => exact absurd hlt (Nat.lt_irrefl _)

theorem Unlock.balances {w : Address} {l : FundLock} {s s' : State} (h : Unlock m w l s s')
    (t : Bytes32) :
    (s'.balances w t).toNat = (s.balances w t).toNat + lockedAmount [l] t := by
  obtain ⟨b, locks, hb, -, rfl⟩ := h.moved
  change ((s.setBalance w l.tokenId b).balances w t).toNat = _
  rw [State.balances_setBalance, lockedAmount_cons, lockedAmount_nil]
  by_cases ht : t = l.tokenId
  · simp [ht, hb]
  · simp [ht, Ne.symm ht]

theorem Unlocks.balances {w : Address} {ls : List FundLock} {s s' : State}
    (h : Unlocks m w ls s s') (t : Bytes32) :
    (s'.balances w t).toNat = (s.balances w t).toNat + lockedAmount ls t := by
  induction h with
  | nil => rfl
  | @cons l ls _ _ _ first _ ih =>
    have hl : lockedAmount (l :: ls) t = lockedAmount [l] t + lockedAmount ls t :=
      lockedAmount_append [l] ls t
    rw [ih, first.balances t, hl, Nat.add_assoc]

/-- The user's expired locks come back to the free balance, each for its amount. -/
structure Released (m : Msg) (u : Address) (removed : List FundLock) (s s' : State) : Prop where
  locks : (s.activeLocks u).Perm (removed ++ s'.activeLocks u)
  expired : ∀ l ∈ removed, l.expiry ≤ m.timestamp
  grows : ∀ t, (s'.balances u t).toNat = (s.balances u t).toNat + lockedAmount removed t

theorem Step.released {call : Call} {s s' : State} {o : Output P} (h : Step P m call s s' o)
    {u : Address} (hu : call.Unlocks u) (nonzero : ∀ l ∈ s.activeLocks u, l.amount ≠ 0) :
    ∃ removed, Released m u removed s s' := by
  rcases hu with ⟨lockId, rfl⟩ | rfl
  · cases h with
    | unlockSingleLock _ unlock =>
      refine ⟨[_], unlock.activeLocks.1, ?_, unlock.balances⟩
      intro l hl
      obtain rfl := List.mem_singleton.mp hl
      exact unlock.expired
    | dropEmptyLock _ empty found =>
      exact absurd empty (nonzero _ (found.mem_iff.mpr List.mem_cons_self))
  · cases h with
    | unlockAllExpiredLocks unlocks =>
      exact ⟨_, unlocks.activeLocks.1, unlocks.activeLocks.2.2, unlocks.balances⟩

/-- With distinct ids, only one element of an array of locks has a given id. -/
theorem eq_of_lockId_eq {xs : List FundLock} (hn : (xs.map (·.lockId)).Nodup) {l l' : FundLock}
    (hl : l ∈ xs) (hl' : l' ∈ xs) (he : l'.lockId = l.lockId) : l' = l :=
  List.inj_on_of_nodup_map hn hl' hl he

theorem lockId_ne_of_perm {xs locks : List FundLock} {l : FundLock}
    (hn : (xs.map (·.lockId)).Nodup) (found : xs.Perm (l :: locks)) :
    ∀ x ∈ locks, x.lockId ≠ l.lockId := by
  intro x hx he
  have hc := ((found.map (·.lockId)).nodup_iff).mp hn
  rw [List.map_cons, List.nodup_cons] at hc
  exact hc.1 (List.mem_map.mpr ⟨x, hx, he⟩)

/-- What is left of a lock the service took from: nothing, or the rest. -/
theorem remainder_left {xs ys locks : List FundLock} {l : FundLock} {n : U256}
    (hn : (xs.map (·.lockId)).Nodup) (found : xs.Perm (l :: locks))
    (kept : ys.Perm (remainder l n ++ locks)) :
    if n = 0 then ∀ x ∈ ys, x.lockId ≠ l.lockId else { l with amount := n } ∈ ys := by
  unfold remainder at kept
  split
  · next hz =>
    rw [if_pos hz, List.nil_append] at kept
    exact fun x hx => lockId_ne_of_perm hn found x (kept.mem_iff.mp hx)
  · next hz =>
    rw [if_neg hz] at kept
    exact kept.mem_iff.mpr List.mem_cons_self

theorem LockAct.fate {tx : Tx} {s s' : State} {o : Output P} {u : Address} {l : FundLock}
    {locks left : List FundLock} (acts : LockAct tx.msg o u l tx.call left)
    (nodup : ((s.activeLocks u).map (·.lockId)).Nodup)
    (found : (s.activeLocks u).Perm (l :: locks))
    (kept : (s'.activeLocks u).Perm (left ++ locks)) (nonzero : l.amount ≠ 0) :
    LockFate tx s' o u l := by
  have more {x y z : U256} (h : x.toNat = y.toNat + z.toNat) : y ≤ x :=
    BitVec.le_def.mpr (Nat.le.intro h.symm)
  generalize hc : tx.call = call at acts
  cases acts with
  | modify _ _ _ _ later added =>
    exact .kept (kept.mem_iff.mpr List.mem_cons_self) rfl later (more added)
  | unlock expired =>
    exact .released (.inl ⟨_, hc⟩) expired fun x hx =>
      lockId_ne_of_perm nodup found x (kept.mem_iff.mp hx)
  | drop empty => exact absurd empty nonzero
  | transferFrom approval signed service message taken =>
    subst signed
    refine .taken approval service ?_ taken (remainder_left nodup found kept)
    rw [hc]
    exact .transferFromLock message
  | transferTo _ _ _ added =>
    exact .kept (kept.mem_iff.mpr List.mem_cons_self) rfl (BitVec.le_refl _) (more added)
  | withdraw approval signed service message taken =>
    subst signed
    refine .taken approval service ?_ taken (remainder_left nodup found kept)
    rw [hc]
    exact .withdrawFromLock message

theorem LockChange.fate {tx : Tx} {s s' : State} {o : Output P} {u : Address} {nextLockId : U256}
    (h : LockChange tx.msg tx.call o nextLockId u (s.activeLocks u) (s'.activeLocks u))
    (nodup : ((s.activeLocks u).map (·.lockId)).Nodup)
    (nonzero : ∀ l ∈ s.activeLocks u, l.amount ≠ 0) {l : FundLock} (hl : l ∈ s.activeLocks u) :
    LockFate tx s' o u l := by
  have stays (hl' : l ∈ s'.activeLocks u) : LockFate tx s' o u l :=
    .kept hl' rfl (BitVec.le_refl _) (BitVec.le_refl _)
  rcases h.cases with he | ⟨_, he, -⟩ | ⟨_, _, _, found, acts, kept⟩ |
    ⟨all, removed, found, expired⟩
  · exact stays (he ▸ hl)
  · exact stays (he ▸ List.mem_append_left _ hl)
  · rcases List.mem_cons.mp (found.mem_iff.mp hl) with rfl | hl'
    · exact acts.fate nodup found kept (nonzero l hl)
    · exact stays (kept.mem_iff.mpr (List.mem_append_right _ hl'))
  · rcases List.mem_append.mp (found.mem_iff.mp hl) with hr | hl'
    · refine .released (.inr all) (expired l hr) fun x hx he => ?_
      have hn := ((found.map (·.lockId)).nodup_iff).mp nodup
      rw [List.map_append] at hn
      exact (List.nodup_append.mp hn).2.2 _ (List.mem_map_of_mem hr) _ (List.mem_map_of_mem hx)
        he.symm
    · exact stays hl'

/-- A lock that is active before and after is the same lock, no shorter. -/
theorem LockChange.fixed {call : Call} {o : Output P} {nextLockId : U256} {u : Address}
    {xs ys : List FundLock} (h : LockChange m call o nextLockId u xs ys)
    (nodup : (xs.map (·.lockId)).Nodup) (fresh : ∀ l ∈ xs, l.lockId ≠ nextLockId)
    {l l' : FundLock} (hl : l ∈ xs) (hl' : l' ∈ ys) (he : l'.lockId = l.lockId) :
    l'.origin u = l.origin u ∧ l.expiry ≤ l'.expiry := by
  have stays (hx : l' ∈ xs) : l'.origin u = l.origin u ∧ l.expiry ≤ l'.expiry := by
    obtain rfl := eq_of_lockId_eq nodup hl hx he
    exact ⟨rfl, BitVec.le_refl _⟩
  rcases h.cases with rfl | ⟨x, rfl, hid⟩ | ⟨l₀, locks, left, found, acts, kept⟩ |
    ⟨-, removed, found, -⟩
  · exact stays hl'
  · rcases List.mem_append.mp hl' with hx | hx
    · exact stays hx
    · obtain rfl := List.mem_singleton.mp hx
      exact absurd (he.symm.trans hid) (fresh l hl)
  · rcases List.mem_append.mp (kept.mem_iff.mp hl') with hx | hx
    · rcases acts.left_cases with rfl | ⟨l₁, rfl, hsame, later, -⟩
      · cases hx
      · obtain rfl := List.mem_singleton.mp hx
        have hid : l'.lockId = l₀.lockId := congrArg Creation.lockId hsame
        obtain rfl := eq_of_lockId_eq nodup hl (found.mem_iff.mpr List.mem_cons_self)
          (hid.symm.trans he)
        exact ⟨hsame, later⟩
    · exact stays (found.mem_iff.mpr (List.mem_cons_of_mem _ hx))
  · exact stays (found.mem_iff.mpr (List.mem_append_right _ hl'))

/-- What a successful call may do to funds. -/
structure FundAuthority (tx : Tx) (s s' : State) (o : Output P) : Prop where
  debit : ∀ u t, (s'.balances u t).toNat < (s.balances u t).toNat →
    ∃ a, o.approval = some a ∧ a.signer = u ∧ SignedDebit s t a tx.call ∧
      (s.balances u t).toNat ≤ (s'.balances u t).toNat + a.message.amount.toNat
  fate : ∀ u, ∀ l ∈ s.activeLocks u, LockFate tx s' o u l
  fixed : ∀ u, ∀ l ∈ s.activeLocks u, ∀ l' ∈ s'.activeLocks u, l'.lockId = l.lockId →
    l'.serviceId = l.serviceId ∧ l'.tokenId = l.tokenId ∧ l.expiry ≤ l'.expiry
  released : ∀ u, tx.call.Unlocks u → ∃ removed, Released tx.msg u removed s s'
  frame : ∀ u, ¬ tx.call.Party (o.approval.map (·.signer)) u → SameFor u s s'

theorem Step.fundAuthority {log : List (Receipt P)} {tx : Tx} {s s' : State} {o : Output P}
    (hi : LockInvariant log s) (h : Step P tx.msg tx.call s s' o) : FundAuthority tx s s' o where
  debit u t hlt := h.signedDebit hlt
  fate u l hl := (h.lockChange u).fate (hi.nodup u) (hi.nonzero u) hl
  fixed u l hl l' hl' he := by
    obtain ⟨hsame, later⟩ := (h.lockChange u).fixed (hi.nodup u) (hi.fresh u) hl hl' he
    exact ⟨congrArg Creation.serviceId hsame, congrArg Creation.tokenId hsame, later⟩
  released u hu := h.released hu (hi.nonzero u)
  frame u hu := h.sameFor hu

/-- Authority over funds: from every reachable state, a call that succeeds moves
funds only as its signatures and the expiries allow, and a call that reverts moves
nothing. -/
theorem fund_authority (P : Platform) (evm gasTank : Address × Bytes32) (txs : List Tx)
    (tx : Tx) :
    let s := (accounting P).run (accountingInit evm gasTank) txs
    match execute P tx.msg tx.call s with
    | .ok (s', o) => (accounting P).step s tx = s' ∧ FundAuthority tx s s' o
    | .error _ => (accounting P).step s tx = s := by
  intro s
  have hi : LockInvariant ((accounting P).log (accountingInit evm gasTank) txs) s :=
    lockInvariant_run evm gasTank txs
  cases hx : execute P tx.msg tx.call s with
  | ok r => exact ⟨(accounting P).step_of_ok hx, (execute_step hx).fundAuthority hi⟩
  | error e => exact (accounting P).step_of_error hx

end Privana
