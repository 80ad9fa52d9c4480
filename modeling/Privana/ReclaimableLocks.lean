import Mathlib.Algebra.Order.BigOperators.Group.Finset
import Privana.LedgerConservation
import Privana.LockStructure

/-! Expired locks are always reclaimable. What a user holds free and locked of one token
is part of what was ever credited of it, so giving a lock back cannot overflow; lock ids
are distinct, so the scan finds the very lock; and a user has ten locks at most. -/

namespace Privana
open BigEndian CheckedArithmetic SwapPop

variable {P : Platform} {m : Msg}

/-- All that the user holds of a token, free or locked, fits into a word. -/
def HoldingsFit (s : State) (u : Address) : Prop :=
  ∀ t, (s.balances u t).toNat + lockedAmount (s.activeLocks u) t < 2 ^ 256

def Expired (m : Msg) (l : FundLock) : Prop := l.expiry ≤ m.timestamp

instance (m : Msg) (l : FundLock) : Decidable (Expired m l) :=
  inferInstanceAs (Decidable (l.expiry ≤ m.timestamp))

/-- The same for what the user holds free or can get back. -/
def ExpiredFit (m : Msg) (s : State) (u : Address) : Prop :=
  ∀ t, (s.balances u t).toNat + lockedAmount ((s.activeLocks u).filter (Expired m)) t < 2 ^ 256

theorem le_lockedAmount {locks : List FundLock} {l : FundLock} (h : l ∈ locks) :
    l.amount.toNat ≤ lockedAmount locks l.tokenId := by
  obtain ⟨xs, ys, rfl⟩ := List.append_of_mem h
  rw [lockedAmount_append, lockedAmount_cons, if_pos rfl]
  omega

theorem HoldingsFit.expired {s : State} {u : Address} (fits : HoldingsFit s u) :
    ExpiredFit m s u := by
  intro t
  have all := lockedAmount_perm (List.filter_append_perm (fun l => decide (Expired m l))
    (s.activeLocks u)) t
  rw [lockedAmount_append] at all
  have held := fits t
  omega

/-- A part of the ledger is at most what was credited. -/
theorem holdings_le_creditedTotal (evm gasTank : Address × Bytes32) (txs : List Tx) (u : Address)
    (t : Bytes32) :
    let s := (accounting P).run (accountingInit evm gasTank) txs
    (s.balances u t).toNat + lockedAmount (s.activeLocks u) t ≤
      creditedTotal ((accounting P).log (accountingInit evm gasTank) txs) t := by
  intro s
  rw [← (ledgerInvariant_run evm gasTank txs).total t, sum_book]
  have free : (s.balances u t).toNat ≤ ∑ u, (s.balances u t).toNat :=
    Finset.single_le_sum (f := fun u => (s.balances u t).toNat) (fun _ _ => Nat.zero_le _)
      (Finset.mem_univ u)
  have locked : lockedAmount (s.activeLocks u) t ≤ ∑ u, lockedAmount (s.activeLocks u) t :=
    Finset.single_le_sum (f := fun u => lockedAmount (s.activeLocks u) t)
      (fun _ _ => Nat.zero_le _) (Finset.mem_univ u)
  exact (Nat.add_le_add free locked).trans (Nat.le_add_right _ _)

theorem holdingsFit_run (evm gasTank : Address × Bytes32) (txs : List Tx) (u : Address)
    (credited : ∀ t, creditedTotal ((accounting P).log (accountingInit evm gasTank) txs) t <
      2 ^ 256) : HoldingsFit ((accounting P).run (accountingInit evm gasTank) txs) u :=
  fun t => (holdings_le_creditedTotal evm gasTank txs u t).trans_lt (credited t)

theorem addBalance_fits {s : State} {u : Address} {t : Bytes32} {a : U256}
    (fits : (s.balances u t).toNat + a.toNat < 2 ^ 256) :
    ∃ b : U256, b.toNat = (s.balances u t).toNat + a.toNat ∧
      s.addBalance u t a = .ok (s.setBalance u t b) := by
  have sum : (s.balances u t + a).toNat = (s.balances u t).toNat + a.toNat := by
    rw [BitVec.toNat_add, Nat.mod_eq_of_lt fits]
  exact ⟨_, sum, addBalance_eq_ok.mpr ⟨_, sum, rfl⟩⟩

/-- Giving a lock back moves its amount from locked to free. -/
theorem ExpiredFit.unlock {s s' : State} {u : Address} {l : FundLock} (fits : ExpiredFit m s u)
    (unlock : Unlock m u l s s') : ExpiredFit m s' u := by
  intro t
  have held := fits t
  have expired : Expired m l := unlock.expired
  obtain ⟨b, locks, balance, found, rfl⟩ := unlock.moved
  have split := lockedAmount_perm (found.filter fun l => decide (Expired m l)) t
  rw [List.filter_cons_of_pos (by simpa using expired), lockedAmount_cons] at split
  simp only [State.setLocks_balances, State.appendUserCounterpartyHistory_balances,
    State.balances_setBalance, State.activeLocks_setLocks_self, true_and]
  by_cases ht : l.tokenId = t
  · subst ht
    rw [if_pos rfl] at split ⊢
    omega
  · rw [if_neg ht] at split
    rw [if_neg (Ne.symm ht)]
    omega

theorem ExpiredFit.room {s : State} {u : Address} {l : FundLock} (fits : ExpiredFit m s u)
    (hl : l ∈ s.activeLocks u) (expired : Expired m l) :
    (s.balances u l.tokenId).toNat + l.amount.toNat < 2 ^ 256 := by
  have back : l ∈ (s.activeLocks u).filter (Expired m) :=
    List.mem_filter.mpr ⟨hl, decide_eq_true expired⟩
  have held := le_lockedAmount back
  have room := fits l.tokenId
  omega

theorem unlock_of_slot {s : State} {u : Address} {i : ℕ} (hi : i < (s.activeLocks u).length)
    (expired : (s.activeLocks u)[i].expiry ≤ m.timestamp)
    (positive : (s.activeLocks u)[i].amount ≠ 0) {b : U256}
    (balance : b.toNat = (s.balances u (s.activeLocks u)[i].tokenId).toNat +
      (s.activeLocks u)[i].amount.toNat) :
    Unlock m u (s.activeLocks u)[i] s
      (((s.setBalance u (s.activeLocks u)[i].tokenId b).appendUserCounterpartyHistory m u
        .UnlockLock (s.activeLocks u)[i].tokenId (s.activeLocks u)[i].amount
        (s.activeLocks u)[i].serviceId).setLocks u (swapPop (s.activeLocks u) i)) :=
  ⟨expired, positive, b, _, balance, (List.getElem_cons_eraseIdx_perm hi).symm.trans
    ((swapPop_perm hi).symm.cons _), rfl⟩

/-- The backward loop runs through: no balance overflows, no slot is missing. -/
theorem unlockAllExpiredLocksLoop_returns {u : Address} (i : ℕ) {s : State} {c : U256}
    (fits : ExpiredFit m s u) (slots : i ≤ (s.activeLocks u).length)
    (counts : c.toNat + i < 2 ^ 256) :
    ∃ r, unlockAllExpiredLocksLoop m u i s c = .ok r := by
  induction i generalizing s c with
  | zero => exact ⟨_, rfl⟩
  | succ i ih =>
    have hi : i < (s.activeLocks u).length := slots
    rw [unlockAllExpiredLocksLoop, List.getElem?_eq_getElem hi]
    dsimp only
    split
    · next expired =>
      obtain ⟨b, balance, added⟩ := addBalance_fits (fits.room (List.getElem_mem hi) expired.1)
      have unlock := unlock_of_slot (m := m) hi expired.1
        (fun h => by simp [h] at expired) balance
      have next : checkedAdd Error.panic c 1 = .ok (c + 1) := by
        refine if_pos ?_
        have one : (1 : U256).toNat = 1 := rfl
        omega
      have shorter : (swapPop (s.activeLocks u) i).length = (s.activeLocks u).length - 1 := by
        rw [(swapPop_perm hi).length_eq, List.length_eraseIdx_of_lt hi]
      refine exists_bind_eq_ok added (exists_bind_eq_ok next (ih (fits.unlock unlock) ?_ ?_))
      · rw [State.activeLocks_setLocks_self, shorter]
        omega
      · rw [checkedAdd_eq_ok.mp next]
        have one : (1 : U256).toNat = 1 := rfl
        omega
    · exact ih fits hi.le (by omega)

/-- Distinct ids: the scan for a lock's id ends at that lock. -/
theorem findLockIndex_returns {locks : List FundLock} {l : FundLock}
    (distinct : (locks.map (·.lockId)).Nodup) (h : l ∈ locks) :
    ∃ (i : ℕ) (hi : i < locks.length), findLockIndex locks l.lockId = .ok ⟨i, hi⟩ ∧
      locks[i] = l := by
  cases hf : locks.findFinIdx? fun x => x.lockId = l.lockId with
  | none =>
    have absent := List.findFinIdx?_eq_none_iff.mp hf l h
    simp at absent
  | some i =>
    refine ⟨i, i.isLt, by simp [findLockIndex, hf], ?_⟩
    have same : locks[i].lockId = l.lockId := by
      simpa using (List.findFinIdx?_eq_some_iff.mp hf).1
    exact List.inj_on_of_nodup_map distinct (List.getElem_mem i.isLt) h same

theorem Unlock.balances_eq {u : Address} {l : FundLock} {s s' : State} (h : Unlock m u l s s')
    (v : Address) (t : Bytes32) : (s'.balances v t).toNat = (s.balances v t).toNat +
      if v = u ∧ t = l.tokenId then l.amount.toNat else 0 := by
  obtain ⟨b, locks, balance, -, rfl⟩ := h.moved
  simp only [State.setLocks_balances, State.appendUserCounterpartyHistory_balances,
    State.balances_setBalance]
  split
  · next same =>
    obtain ⟨rfl, rfl⟩ := same
    exact balance
  · rfl

theorem Unlocks.balances_eq {u : Address} {ls : List FundLock} {s s' : State}
    (h : Unlocks m u ls s s') (v : Address) (t : Bytes32) :
    (s'.balances v t).toNat = (s.balances v t).toNat + if v = u then lockedAmount ls t else 0 := by
  induction h with
  | nil => simp
  | @cons l ls s₁ s₂ s₃ first rest ih =>
    rw [ih, first.balances_eq, lockedAmount_cons]
    by_cases hv : v = u
    · by_cases ht : t = l.tokenId
      · simp only [hv, ht, and_self, if_true]
        omega
      · simp only [hv, ht, Ne.symm ht, and_false, if_true, if_false, Nat.add_zero, Nat.zero_add]
    · simp [hv]

/-- What a user gets back of the locks that have expired. -/
structure Reclaimable (P : Platform) (m : Msg) (s : State) (u : Address) : Prop where
  single : ∀ l ∈ s.activeLocks u, Expired m l →
    ∃ s' o, execute P m (.unlockSingleLock u l.lockId) s = .ok (s', o) ∧
      (s.activeLocks u).Perm (l :: s'.activeLocks u) ∧
      ∀ v t, (s'.balances v t).toNat = (s.balances v t).toNat +
        if v = u ∧ t = l.tokenId then l.amount.toNat else 0
  all : ∃ s' o, execute P m (.unlockAllExpiredLocks u) s = .ok (s', o) ∧
    (∀ l ∈ s'.activeLocks u, ¬ Expired m l) ∧
    ∀ v t, (s'.balances v t).toNat = (s.balances v t).toNat +
      if v = u then lockedAmount ((s.activeLocks u).filter (Expired m)) t else 0

theorem reclaims_single {s : State} {u : Address}
    (distinct : ((s.activeLocks u).map (·.lockId)).Nodup)
    (fits : ExpiredFit m s u) {l : FundLock} (hl : l ∈ s.activeLocks u) (positive : l.amount ≠ 0)
    (expired : Expired m l) :
    ∃ s' o, execute P m (.unlockSingleLock u l.lockId) s = .ok (s', o) ∧ Unlock m u l s s' := by
  obtain ⟨i, hi, found, rfl⟩ := findLockIndex_returns distinct hl
  obtain ⟨b, balance, added⟩ := addBalance_fits (fits.room hl expired)
  refine ⟨_, {}, ?_, unlock_of_slot hi expired positive balance⟩
  refine bind_eq_ok.mpr ⟨⟨i, hi⟩, found, (if_pos positive).trans ?_⟩
  exact bind_eq_ok.mpr ⟨(), revertIf_eq_ok.mpr (BitVec.not_lt.mpr expired),
    bind_eq_ok.mpr ⟨_, added, rfl⟩⟩

/-- A bulk unlock that runs through has given back the expired locks, and no other. -/
theorem unlockAll_unlocks {log : List (Receipt P)} {s s' : State} (locks : LockInvariant log s)
    {u : Address} {o : Output P}
    (ran : execute P m (.unlockAllExpiredLocks u) s = .ok (s', o)) :
    ∃ ls, Unlocks m u ls s s' ∧ ls.Perm ((s.activeLocks u).filter (Expired m)) ∧
      o.unlockedCount.toNat = ls.length ∧ ∀ l ∈ s'.activeLocks u, ¬ Expired m l := by
  have step : Step P m _ s s' o := execute_step ran
  cases step with
  | @unlockAllExpiredLocks _ _ _ ls _ unlocks rest counted =>
    obtain ⟨found, -, expired⟩ := unlocks.activeLocks
    have after : ∀ l ∈ s'.activeLocks u, ¬ Expired m l := by
      intro l hl he
      have nonzero := locks.nonzero u l (found.mem_iff.mpr (List.mem_append_right _ hl))
      exact rest l hl ⟨he, (BitVec.pos_iff_ne_zero _).mpr nonzero⟩
    have released := (found.filter fun l => decide (Expired m l)).symm
    have all : ls.filter (fun l => decide (Expired m l)) = ls :=
      List.filter_eq_self.mpr fun l hl => decide_eq_true (expired l hl)
    have none : (s'.activeLocks u).filter (fun l => decide (Expired m l)) = [] :=
      List.filter_eq_nil_iff.mpr fun l hl => by simpa using after l hl
    rw [List.filter_append, all, none, List.append_nil] at released
    exact ⟨ls, unlocks, released, counted, after⟩

theorem reclaims_all {log : List (Receipt P)} {s : State} (locks : LockInvariant log s)
    {u : Address} (fits : ExpiredFit m s u) :
    ∃ s' o, execute P m (.unlockAllExpiredLocks u) s = .ok (s', o) := by
  obtain ⟨⟨s₁, count⟩, hloop⟩ := unlockAllExpiredLocksLoop_returns (m := m) (u := u)
    (s.activeLocks u).length (s := s) (c := 0) fits (Nat.le_refl _) (by
      have := locks.atMostTen u
      have zero : (0 : U256).toNat = 0 := rfl
      omega)
  exact ⟨s₁, { unlockedCount := count }, bind_eq_ok.mpr ⟨_, hloop, rfl⟩⟩

/-- Expired locks are always reclaimable: whatever led to the state, if less than 2 ^ 256
of each token was ever credited, anyone can give every expired lock back to its owner. -/
theorem locks_reclaimable (P : Platform) (evm gasTank : Address × Bytes32) (txs : List Tx)
    (credited : ∀ t, creditedTotal ((accounting P).log (accountingInit evm gasTank) txs) t <
      2 ^ 256) (m : Msg) (u : Address) :
    Reclaimable P m ((accounting P).run (accountingInit evm gasTank) txs) u := by
  have locks := lockInvariant_run (P := P) evm gasTank txs
  have fits := holdingsFit_run evm gasTank txs u credited
  refine ⟨fun l hl expired => ?_, ?_⟩
  · obtain ⟨s', o, ran, unlock⟩ := reclaims_single (P := P) (locks.nodup u) fits.expired hl
      (locks.nonzero u l hl) expired
    exact ⟨s', o, ran, unlock.activeLocks.1, unlock.balances_eq⟩
  · obtain ⟨s', o, ran⟩ := reclaims_all (m := m) locks fits.expired
    obtain ⟨ls, unlocks, released, -, after⟩ := unlockAll_unlocks locks ran
    refine ⟨s', o, ran, after, fun v t => ?_⟩
    rw [unlocks.balances_eq, lockedAmount_perm released]

/-- The platform of the sample run, with the values of a signed lock. -/
def sampleLockPlatform : Platform :=
  { samplePlatform with
    keccak256 := fun bs => ((sampleKeccak ++
      [(abiEncode (sampleTypehash .lock :: sampleLockMessage.words), sampleLockStructHash),
        ([0x19, 0x01] ++ word sampleDomain ++ word sampleLockStructHash, sampleLockDigest)]
      ).lookup bs).getD 0
    recover := fun digest signature =>
      if digest = sampleLockDigest ∧ signature = sampleLockSignature then some sampleUser else none }

/-- A deposit is credited, and part of it locked for a service. -/
def sampleLockTxs : List Tx :=
  let rofl (blockNumber : U256) : Msg := ⟨sampleUser, true, blockNumber, 1700000000⟩
  [⟨rofl 1, .setTokenInfo sampleToken⟩, ⟨rofl 2, .creditDeposit sampleUser sampleTokenId 10 7⟩,
    ⟨rofl 3, .createLock 0xd41c057fd1c78805aac12b0a94a405c0461a6fbb sampleTokenId 6 1700000100 0
      sampleLockSignature⟩]

theorem creditedTotal_sampleLockTxs (t : Bytes32) :
    creditedTotal ((accounting sampleLockPlatform).log (accountingInit sampleEvm sampleGasTank)
      sampleLockTxs) t < 2 ^ 256 := by
  by_cases ht : t = sampleTokenId
  · subst ht
    decide +kernel
  · rw [creditedTotal, List.sum_eq_zero]
    · decide
    · intro n hn
      obtain ⟨e, he, rfl⟩ := List.mem_map.mp hn
      have input := (accounting sampleLockPlatform).input_mem_of_mem_log he
      simp only [sampleLockTxs, List.mem_cons, List.not_mem_nil, or_false] at input
      rcases input with input | input | input <;> simp [input, Call.credited, Ne.symm ht]

/-- Anyone gives the lock back, a hundred seconds later. -/
def sampleReclaim : Msg := ⟨0xd41c057fd1c78805aac12b0a94a405c0461a6fbb, false, 9, 1700000100⟩

theorem locks_reclaimable_sample :
    let s := (accounting sampleLockPlatform).run (accountingInit sampleEvm sampleGasTank)
      sampleLockTxs
    Reclaimable sampleLockPlatform sampleReclaim s sampleUser ∧
      (s.activeLocks sampleUser).any (Expired sampleReclaim) = true :=
  ⟨locks_reclaimable sampleLockPlatform sampleEvm sampleGasTank sampleLockTxs
    creditedTotal_sampleLockTxs sampleReclaim sampleUser, by decide +kernel⟩

end Privana
