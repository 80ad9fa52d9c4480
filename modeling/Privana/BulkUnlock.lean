import Privana.ReclaimableLocks

/-! Bulk unlock equals single unlocks. The bulk loop and the single calls, in any order, give
back the same locks, and both run through exactly if what the user gets back fits into the
balances; what they leave behind differs in the order of locks and history entries only. -/

namespace Privana
open BigEndian CheckedArithmetic

variable {P : Platform} {m m' : Msg} {u : Address} {l : FundLock} {ls ls' : List FundLock}
  {s s' s₁ s₂ : State}

/-- `unlockSingleLock` for one lock after the other. -/
def unlockEach (P : Platform) (u : Address) : List (Msg × U256) → State → Except Error State
  | [], s => .ok s
  | (m, lockId) :: calls, s => do
    let (s, _) ← execute P m (.unlockSingleLock u lockId) s
    unlockEach P u calls s

/-- The same state up to the order of lock arrays and histories. -/
structure SameUpToOrder (s s' : State) : Prop where
  balances : s'.balances = s.balances
  locks : ∀ w, (s'.activeLocks w).Perm (s.activeLocks w)
  history : ∀ w, (s'.history w).Perm (s.history w)
  rest : s' = { s with balances := s'.balances, userInfo := s'.userInfo, history := s'.history }

def unlockEntry (m : Msg) (l : FundLock) : HistoryEntry :=
  ⟨.UnlockLock, m.timestamp.setWidth 64, word l.tokenId ++ word l.amount ++
    packedAddress l.serviceId⟩

theorem Unlock.of_timestamp (h : Unlock m' u l s s') (same : m'.timestamp = m.timestamp) :
    Unlock m u l s s' where
  expired := same ▸ h.expired
  positive := h.positive
  moved := by
    obtain ⟨b, locks, balance, found, rfl⟩ := h.moved
    refine ⟨b, locks, balance, found, ?_⟩
    simp only [State.appendUserCounterpartyHistory, State.appendHistory, same]

theorem Unlock.history (h : Unlock m u l s s') (w : Address) :
    s'.history w = s.history w ++ if w = u then [unlockEntry m l] else [] := by
  obtain ⟨b, locks, -, -, rfl⟩ := h.moved
  by_cases hw : w = u
  · subst hw
    simp [State.appendUserCounterpartyHistory, State.appendHistory, State.setLocks,
      State.setBalance, unlockEntry]
  · simp [State.appendUserCounterpartyHistory, State.appendHistory, State.setLocks,
      State.setBalance, hw]

theorem Unlocks.history (h : Unlocks m u ls s s') (w : Address) :
    s'.history w = s.history w ++ if w = u then ls.map (unlockEntry m) else [] := by
  induction h with
  | nil => simp
  | cons first rest ih =>
    rw [ih, first.history, List.append_assoc]
    by_cases hw : w = u
    · simp only [hw, if_true, List.map_cons, List.singleton_append]
    · simp only [hw, if_false, List.append_nil]

/-- What was given back fits into the balances. -/
theorem Unlocks.fits (h : Unlocks m u ls s s')
    (all : ls.Perm ((s.activeLocks u).filter (Expired m))) : ExpiredFit m s u := by
  intro t
  have balance := h.balances_eq u t
  rw [if_pos rfl, lockedAmount_perm all] at balance
  exact balance ▸ (s'.balances u t).isLt

/-- The order in which the locks are given back does not matter. -/
theorem Unlocks.sameUpToOrder (h₁ : Unlocks m u ls s s₁) (h₂ : Unlocks m u ls' s s₂)
    (perm : ls'.Perm ls) : SameUpToOrder s₁ s₂ where
  balances := by
    funext v t
    apply BitVec.eq_of_toNat_eq
    rw [h₁.balances_eq, h₂.balances_eq, lockedAmount_perm perm]
  locks w := by
    obtain ⟨found₁, others₁, -⟩ := h₁.activeLocks
    obtain ⟨found₂, others₂, -⟩ := h₂.activeLocks
    by_cases hw : w = u
    · subst hw
      have both := (found₂.symm.trans found₁).trans (perm.symm.append_right _)
      exact (List.perm_append_left_iff ls').mp both
    · rw [others₁ w hw, others₂ w hw]
  history w := by
    rw [h₁.history, h₂.history]
    refine List.Perm.append_left _ ?_
    split
    · exact perm.map _
    · exact .refl _
  rest := by
    obtain ⟨_, _, _, rfl⟩ := h₁.frame
    obtain ⟨_, _, _, rfl⟩ := h₂.frame
    rfl

theorem expired_of_unlock (unlock : Unlock m u l s s') :
    ((s.activeLocks u).filter (Expired m)).Perm
      (l :: (s'.activeLocks u).filter (Expired m)) := by
  have expired : Expired m l := unlock.expired
  have found := unlock.activeLocks.1.filter fun l => decide (Expired m l)
  rwa [List.filter_cons_of_pos (by simpa using expired)] at found

theorem ExpiredFit.of_timestamp (fits : ExpiredFit m s u) (same : m'.timestamp = m.timestamp) :
    ExpiredFit m' s u := by
  have expired : (fun l => decide (Expired m' l)) = fun l => decide (Expired m l) :=
    funext fun l => decide_eq_decide.mpr (by rw [Expired, Expired, same])
  intro t
  rw [expired]
  exact fits t

/-- What the scan by lock id relies on. -/
structure LocksWellFormed (s : State) (u : Address) : Prop where
  distinct : ((s.activeLocks u).map (·.lockId)).Nodup
  positive : ∀ l ∈ s.activeLocks u, l.amount ≠ 0

theorem LocksWellFormed.unlock (h : LocksWellFormed s u) (unlock : Unlock m u l s s') :
    LocksWellFormed s' u := by
  have found := unlock.activeLocks.1
  refine ⟨?_, fun l' hl' => h.positive l' (found.mem_iff.mpr (List.mem_cons_of_mem _ hl'))⟩
  have distinct := (found.map FundLock.lockId).nodup_iff.mp h.distinct
  exact (List.nodup_cons.mp distinct).2

theorem unlockEach_unlocks {calls : List (Msg × U256)} (wellFormed : LocksWellFormed s u)
    (ids : (calls.map Prod.snd).Perm (((s.activeLocks u).filter (Expired m)).map (·.lockId)))
    (block : ∀ c ∈ calls, c.1.timestamp = m.timestamp) (ran : unlockEach P u calls s = .ok s') :
    ∃ ls, Unlocks m u ls s s' ∧ ls.Perm ((s.activeLocks u).filter (Expired m)) := by
  induction calls generalizing s with
  | nil =>
    obtain rfl := Except.ok.inj ran
    have none := List.map_eq_nil_iff.mp (List.nil_perm.mp ids)
    exact ⟨[], .nil s, none ▸ .refl _⟩
  | cons c calls ih =>
    obtain ⟨⟨t, o⟩, first, ran⟩ := bind_eq_ok.mp ran
    have step : Step P c.1 _ s t o := execute_step first
    cases step with
    | @unlockSingleLock _ _ _ _ l id unlock =>
      have unlock := unlock.of_timestamp (block c List.mem_cons_self)
      have expired := expired_of_unlock unlock
      have left := ids.trans (expired.map _)
      rw [List.map_cons, List.map_cons, id] at left
      obtain ⟨ls, unlocks, all⟩ := ih (wellFormed.unlock unlock) left.cons_inv
        (fun c hc => block c (List.mem_cons_of_mem _ hc)) ran
      exact ⟨l :: ls, .cons unlock unlocks, (all.cons l).trans expired.symm⟩
    | dropEmptyLock _ empty found =>
      exact absurd empty (wellFormed.positive _ (found.mem_iff.mpr List.mem_cons_self))

theorem unlockEach_returns {calls : List (Msg × U256)} (wellFormed : LocksWellFormed s u)
    (fits : ExpiredFit m s u)
    (ids : (calls.map Prod.snd).Perm (((s.activeLocks u).filter (Expired m)).map (·.lockId)))
    (block : ∀ c ∈ calls, c.1.timestamp = m.timestamp) :
    ∃ s', unlockEach P u calls s = .ok s' := by
  induction calls generalizing s with
  | nil => exact ⟨s, rfl⟩
  | cons c calls ih =>
    have named : c.2 ∈ ((s.activeLocks u).filter (Expired m)).map (·.lockId) :=
      ids.mem_iff.mp List.mem_cons_self
    obtain ⟨l, hl, id⟩ := List.mem_map.mp named
    obtain ⟨hl, expired⟩ := List.mem_filter.mp hl
    have expired : Expired m l := of_decide_eq_true expired
    have same := block c List.mem_cons_self
    have again : Expired c.1 l := show l.expiry ≤ c.1.timestamp from same ▸ expired
    obtain ⟨t, o, first, unlock⟩ := reclaims_single (P := P) wellFormed.distinct
      (fits.of_timestamp same) hl (wellFormed.positive l hl) again
    have unlock := unlock.of_timestamp same
    have left := ids.trans ((expired_of_unlock unlock).map _)
    rw [List.map_cons, List.map_cons, ← id] at left
    rw [id] at first
    exact exists_bind_eq_ok first (ih (wellFormed.unlock unlock) (fits.unlock unlock)
      left.cons_inv fun c hc => block c (List.mem_cons_of_mem _ hc))

/-- Where nothing has expired the loop changes nothing. -/
theorem unlockAllExpiredLocksLoop_idle {i : ℕ} {count : U256}
    (slots : i ≤ (s.activeLocks u).length) (idle : ∀ l ∈ s.activeLocks u, ¬ Expired m l) :
    unlockAllExpiredLocksLoop m u i s count = .ok (s, count) := by
  induction i with
  | zero => rfl
  | succ i ih =>
    have hi : i < (s.activeLocks u).length := slots
    rw [unlockAllExpiredLocksLoop, List.getElem?_eq_getElem hi]
    dsimp only
    rw [if_neg fun expired => idle _ (List.getElem_mem hi) expired.1]
    exact ih hi.le

/-- What a bulk unlock of the user's locks does, compared with single unlocks. -/
structure BulkUnlock (P : Platform) (m : Msg) (u : Address) (s : State) : Prop where
  /-- It reverts only where a balance cannot hold what is given back. -/
  returns : (∃ r, execute P m (.unlockAllExpiredLocks u) s = .ok r) ↔ ExpiredFit m s u
  /-- The single calls, in any order, run through with it and lead to the same. -/
  single : ∀ calls : List (Msg × U256),
    (calls.map Prod.snd).Perm (((s.activeLocks u).filter (Expired m)).map (·.lockId)) →
    (∀ c ∈ calls, c.1.timestamp = m.timestamp) →
      ((∃ s₂, unlockEach P u calls s = .ok s₂) ↔ ExpiredFit m s u) ∧
      ∀ s₁ o s₂, execute P m (.unlockAllExpiredLocks u) s = .ok (s₁, o) →
        unlockEach P u calls s = .ok s₂ → SameUpToOrder s₁ s₂
  count : ∀ s₁ o, execute P m (.unlockAllExpiredLocks u) s = .ok (s₁, o) →
    o.unlockedCount.toNat = ((s.activeLocks u).filter (Expired m)).length
  kept : ∀ s₁ o, execute P m (.unlockAllExpiredLocks u) s = .ok (s₁, o) →
    (s₁.activeLocks u).Perm ((s.activeLocks u).filter fun l => ¬ Expired m l)
  again : ∀ s₁ o, execute P m (.unlockAllExpiredLocks u) s = .ok (s₁, o) →
    ∀ m' : Msg, m'.timestamp = m.timestamp →
      execute P m' (.unlockAllExpiredLocks u) s₁ = .ok (s₁, { unlockedCount := 0 })

/-- In every reachable state the bulk unlock is the single unlocks. -/
theorem bulk_unlock_equals_single_unlocks (P : Platform) (evm gasTank : Address × Bytes32)
    (txs : List Tx) (m : Msg) (u : Address) :
    BulkUnlock P m u ((accounting P).run (accountingInit evm gasTank) txs) := by
  have locks := lockInvariant_run (P := P) evm gasTank txs
  generalize (accounting P).run (accountingInit evm gasTank) txs = s at locks
  have wellFormed : LocksWellFormed s u := ⟨locks.nodup u, locks.nonzero u⟩
  refine ⟨⟨?_, ?_⟩, fun calls ids block => ⟨⟨?_, ?_⟩, ?_⟩, ?_, ?_, ?_⟩
  · rintro ⟨⟨s₁, o⟩, ran⟩
    obtain ⟨ls, unlocks, all, -⟩ := unlockAll_unlocks locks ran
    exact unlocks.fits all
  · intro fits
    obtain ⟨s₁, o, ran⟩ := reclaims_all (m := m) locks fits
    exact ⟨_, ran⟩
  · rintro ⟨s₂, ran⟩
    obtain ⟨ls, unlocks, all⟩ := unlockEach_unlocks wellFormed ids block ran
    exact unlocks.fits all
  · exact fun fits => unlockEach_returns wellFormed fits ids block
  · intro s₁ o s₂ bulk each
    obtain ⟨ls, unlocks, all, -⟩ := unlockAll_unlocks locks bulk
    obtain ⟨ls', unlocks', all'⟩ := unlockEach_unlocks wellFormed ids block each
    exact unlocks.sameUpToOrder unlocks' (all'.trans all.symm)
  · intro s₁ o ran
    obtain ⟨ls, -, all, counted, -⟩ := unlockAll_unlocks locks ran
    rw [counted, all.length_eq]
  · intro s₁ o ran
    obtain ⟨ls, unlocks, all, -, after⟩ := unlockAll_unlocks locks ran
    obtain ⟨found, -, expired⟩ := unlocks.activeLocks
    have live := found.filter fun l => decide (¬ Expired m l)
    have gone : ls.filter (fun l => decide (¬ Expired m l)) = [] :=
      List.filter_eq_nil_iff.mpr fun l hl live => of_decide_eq_true live (expired l hl)
    have rest : (s₁.activeLocks u).filter (fun l => decide (¬ Expired m l)) =
        s₁.activeLocks u :=
      List.filter_eq_self.mpr fun l hl => decide_eq_true (after l hl)
    rw [List.filter_append, gone, rest, List.nil_append] at live
    exact live.symm
  · intro s₁ o ran m' same
    obtain ⟨ls, -, -, -, after⟩ := unlockAll_unlocks locks ran
    have idle : ∀ l ∈ s₁.activeLocks u, ¬ Expired m' l := fun l hl expired =>
      after l hl (show l.expiry ≤ m.timestamp from same ▸ expired)
    exact bind_eq_ok.mpr ⟨_, unlockAllExpiredLocksLoop_idle (Nat.le_refl _) idle, rfl⟩

theorem bulk_unlock_sample :
    let s := (accounting sampleLockPlatform).run (accountingInit sampleEvm sampleGasTank)
      sampleLockTxs
    ∃ s₁ o s₂, execute sampleLockPlatform sampleReclaim (.unlockAllExpiredLocks sampleUser) s =
        .ok (s₁, o) ∧ o.unlockedCount = 1 ∧
      unlockEach sampleLockPlatform sampleUser [(sampleReclaim, 1)] s = .ok s₂ ∧
      SameUpToOrder s₁ s₂ := by
  intro s
  have bulk : BulkUnlock sampleLockPlatform sampleReclaim sampleUser s :=
    bulk_unlock_equals_single_unlocks sampleLockPlatform sampleEvm sampleGasTank sampleLockTxs
      sampleReclaim sampleUser
  have ids : ((s.activeLocks sampleUser).filter (Expired sampleReclaim)).map (·.lockId) = [1] := by
    decide +kernel
  have holdings : HoldingsFit s sampleUser :=
    holdingsFit_run sampleEvm sampleGasTank sampleLockTxs sampleUser creditedTotal_sampleLockTxs
  clear_value s
  have fits : ExpiredFit sampleReclaim s sampleUser := holdings.expired
  obtain ⟨⟨s₁, o⟩, ran⟩ := bulk.returns.mpr fits
  obtain ⟨each, same⟩ := bulk.single [(sampleReclaim, 1)] (ids ▸ .refl _) (by simp)
  obtain ⟨s₂, ranEach⟩ := each.mpr fits
  refine ⟨s₁, o, s₂, ran, BitVec.eq_of_toNat_eq ?_, ranEach, same s₁ o s₂ ran ranEach⟩
  rw [bulk.count s₁ o ran, ← List.length_map (f := FundLock.lockId), ids]
  rfl

end Privana
