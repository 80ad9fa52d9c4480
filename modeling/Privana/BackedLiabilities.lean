import Privana.SweepSolvency

/-! The liabilities of the contract and the funds behind them, together. The contract owes what
its books hold: balances, locks and the withdrawals it has queued. What it ever credited came
from sweeps that the source chains mined, and both sides are followed through one run. -/

namespace Privana
open BigEndian SweepOp DoubleEntry

variable {P : Platform} {settings : SweepSettings} {m : Msg} {w v : SweepWorld P}

/-- What the contract owes of a token: to its users, and to the withdrawals it ever queued. -/
def State.liabilities (s : State) (t : Bytes32) : ℕ :=
  ∑ u, (s.balances u t).toNat + ∑ u, lockedAmount (s.activeLocks u) t +
    queuedAmount s.withdrawals t

theorem liabilities_init (evm gasTank : Address × Bytes32) (t : Bytes32) :
    (accountingInit evm gasTank).liabilities t = 0 := by
  simp [State.liabilities, accountingInit, State.activeLocks, queuedAmount]

/-- A call adds to what is owed what it credits, and nothing else. -/
theorem Step.liabilities {call : Call} {s s' : State} {o : Output P} (h : Step P m call s s' o)
    (t : Bytes32) : s'.liabilities t = s.liabilities t + call.credited t := by
  obtain ⟨j, issued, retired⟩ := h.journaled
  have total := j.posts.total t
  rw [issued, retired, sum_book, sum_book] at total
  simpa [State.liabilities] using total

theorem credited_of_depositId? {call : Call} (none : call.depositId? = none) (t : Bytes32) :
    call.credited t = 0 := by
  cases call <;> first | rfl | cases none

/-- What the contract owes is what the engine has credited. -/
def SweepWorld.Balanced (w : SweepWorld P) : Prop :=
  ∀ t, w.accounting.liabilities t = w.creditedAmount t

theorem creditedAmount_concat (credits : List SweepRecord) (k : SweepRecord) (t : Bytes32) :
    (((credits ++ [k]).filter fun r => r.tokenId = t).map fun r => r.amount.toNat).sum =
      ((credits.filter fun r => r.tokenId = t).map fun r => r.amount.toNat).sum +
        if k.tokenId = t then k.amount.toNat else 0 := by
  rw [List.filter_append, List.map_append, List.sum_append, List.filter_singleton]
  split <;> simp_all

theorem SweepWorld.Balanced.credit (h : w.Balanced) (record : SweepRecord) (msg : Msg) :
    (w.credit record msg).Balanced := by
  intro t
  unfold SweepWorld.credit
  split
  · next s o executed =>
    have owed := (execute_step executed).liabilities t
    simp only [SweepWorld.setAccounting, SweepWorld.creditedAmount, creditedAmount_concat]
    rw [owed, h t]
    rfl
  · exact h t

theorem SweepWorld.Balanced.move {e : SweepMove} (h : w.Balanced)
    (moved : sweepMove P w e = some v) : v.Balanced := by
  cases e with
  | transact tx =>
    simp only [sweepMove] at moved
    split at moved
    · next none =>
      split at moved
      · next s o executed =>
        obtain rfl := Option.some.inj moved
        intro t
        have owed := (execute_step executed).liabilities t
        rw [credited_of_depositId? none, Nat.add_zero] at owed
        exact owed.trans (h t)
      · cases moved
    · cases moved
  | credit submission msg =>
    obtain ⟨record, -, rfl⟩ := Option.map_eq_some_iff.mp moved
    exact h.credit record msg
  | accept broadcast =>
    obtain ⟨b, -, rfl⟩ := Option.map_eq_some_iff.mp moved
    exact h
  | mine accepted succeeded fee =>
    obtain ⟨b, -, moved⟩ := Option.bind_eq_some_iff.mp moved
    obtain ⟨l, -, moved⟩ := Option.bind_eq_some_iff.mp moved
    obtain rfl := Option.some.inj moved
    exact h
  | receive | stopRecovery =>
    obtain rfl := Option.some.inj moved
    exact h
  | foreignSpend =>
    obtain ⟨l, -, rfl⟩ := Option.map_eq_some_iff.mp moved
    exact h

theorem SweepWorld.Balanced.of_restarted (h : w.Balanced) (same : v.restarted = w.restarted) :
    v.Balanced := by
  have accounting := congrArg SweepWorld.accounting same
  have credits := congrArg SweepWorld.credits same
  simp only [SweepWorld.restarted] at accounting credits
  intro t
  rw [accounting, SweepWorld.creditedAmount, credits]
  exact h t

/-- Only the contract changes what is owed, and only the engine's credits raise it. -/
theorem SweepStep.balanced {e : SweepEvent} {o : Option (SweepOp P)} (step : SweepStep w e v o)
    (h : w.Balanced) : v.Balanced := by
  cases step with
  | performed _ effect =>
    cases effect with
    | kept same => exact h.of_restarted same
    | posted | submitted | saved | deleted => exact h
    | failed d e =>
      rcases persistError_cases w d e with same | ⟨_, -, -, same⟩ <;> rw [same] <;> exact h
    | retried d =>
      rcases retryCleanup_cases w d with same | ⟨_, -, -, same⟩ <;> rw [same] <;> exact h
  | moved move => exact h.move move
  | kept same => exact h.of_restarted same

/-- In every run of claims, sweeps, recovery, restarts and calls of the contract where no node
accepts one transaction for two deposits, at every point: all that the contract owes of a token,
with all the withdrawals it ever queued, was paid into the hot wallet by mined transactions. -/
theorem liabilities_backed (P : Platform) (settings : SweepSettings)
    (evm gasTank : Address × Bytes32) (balances : U256 → Option Address → Address → ℕ)
    (nonces : U256 → Address → ℕ) (es : List SweepEvent)
    (own : ∀ e ∈ (sweepSystem P settings).machine.log (sweepStart P evm gasTank balances nonces) es,
      OwnAcceptance e) :
    ∀ js, js <+: es → ∀ t,
      let w := ((sweepSystem P settings).machine.run
        (sweepStart P evm gasTank balances nonces) js).world
      ∑ u, (w.accounting.balances u t).toNat + ∑ u, lockedAmount (w.accounting.activeLocks u) t +
        queuedAmount w.accounting.withdrawals t ≤ w.movedToHotWallet t := by
  intro js hjs t
  obtain ⟨holds, wire, balanced⟩ := sweepRun_invariant (C := OwnAcceptance)
    (I := fun w => OwnSweeps w ∧ w.Balanced)
    ⟨fun _ h => (List.not_mem_nil h).elim, liabilities_init evm gasTank⟩
    (fun e he => own e ((sweepSystem P settings).machine.mem_log_of_prefix hjs he))
    fun s t e o _ _ step own h => ⟨h.1.step rfl step own, step.balanced h.2⟩
  exact (balanced t).le.trans ((solvent_of_ownSweeps holds.valid wire).covered t)

/-- The two deposits, swept and credited: their dollars are owed, and are in the hot wallet. -/
theorem liabilities_backed_pair :
    let w := ((sweepSystem sampleSweepPlatform sampleSweepSettings).machine.run
      sampleSweepStart SampleSweep.pair).world
    ∑ u, (w.accounting.balances u sampleTokenId).toNat +
      ∑ u, lockedAmount (w.accounting.activeLocks u) sampleTokenId +
        queuedAmount w.accounting.withdrawals sampleTokenId ≤
      w.movedToHotWallet sampleTokenId := by
  have backed : ∀ js, js <+: SampleSweep.pair → ∀ t,
      let w := ((sweepSystem sampleSweepPlatform sampleSweepSettings).machine.run
        sampleSweepStart js).world
      ∑ u, (w.accounting.balances u t).toNat + ∑ u, lockedAmount (w.accounting.activeLocks u) t +
        queuedAmount w.accounting.withdrawals t ≤ w.movedToHotWallet t :=
    liabilities_backed sampleSweepPlatform sampleSweepSettings sampleEvm sampleGasTank _ _
      SampleSweep.pair fun e he =>
        ownAcceptance_of_acceptsNewHash (List.all_eq_true.mp samplePair_acceptsNewHash e he)
  exact backed SampleSweep.pair List.prefix_rfl sampleTokenId

end Privana
