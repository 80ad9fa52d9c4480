import Mathlib.Algebra.BigOperators.Fin
import Mathlib.Data.Fintype.BigOperators
import Mathlib.Data.Fintype.Option
import Mathlib.Data.Fintype.Sum
import Privana.Journal

/-! Ledger conservation. The book of the contract is summed over all addresses;
journals change the total only by deposit credits, and a deposit id is credited
at most once. -/

namespace Privana
open DoubleEntry

variable {P : Platform} {m : Msg}

instance instFintypeWord (n : ℕ) : Fintype (BitVec n) :=
  Fintype.ofEquiv (Fin (2 ^ n)) ⟨BitVec.ofFin, BitVec.toFin, fun _ => rfl, fun _ => rfl⟩

/-- The accounts: the queue, or a user's free or locked account. -/
def Account.equiv : Option (Address ⊕ Address) ≃ Account where
  toFun
    | none => .queued
    | some (.inl u) => .free u
    | some (.inr u) => .locked u
  invFun
    | .queued => none
    | .free u => some (.inl u)
    | .locked u => some (.inr u)
  left_inv := by rintro (_ | _ | _) <;> rfl
  right_inv := by rintro (_ | _ | _) <;> rfl

instance : Fintype Account := Fintype.ofEquiv _ Account.equiv

theorem sum_book (s : State) (t : Bytes32) :
    ∑ a, s.book a t = ∑ u, (s.balances u t).toNat + ∑ u, lockedAmount (s.activeLocks u) t +
      queuedAmount s.withdrawals t := by
  rw [← Account.equiv.sum_comp, Fintype.sum_option, Fintype.sum_sum_type, Nat.add_comm]
  rfl

/-- The deposit id of a deposit credit. -/
def Call.depositId? : Call → Option Bytes32
  | .creditDeposit _ _ _ depositId => some depositId
  | _ => none

def creditedTotal (log : List (Receipt P)) (t : Bytes32) : ℕ :=
  (log.map fun e => e.input.call.credited t).sum

def creditedIds (log : List (Receipt P)) : List Bytes32 :=
  log.filterMap fun e => e.input.call.depositId?

/-- A deposit id is marked by its credit and by nothing else. -/
theorem Step.processedDeposits {call : Call} {s s' : State} {o : Output P}
    (h : Step P m call s s' o) (d : Bytes32) :
    s'.processedDeposits d = true ↔ s.processedDeposits d = true ∨ call.depositId? = some d := by
  cases h with
  | @creditDeposit _ _ _ depositId =>
    by_cases hd : d = depositId
    · simp [hd, Call.depositId?]
    · simp [hd, Call.depositId?, Ne.symm hd]
  | unlockSingleLock _ unlock =>
    obtain ⟨_, _, _, _, rfl⟩ := unlock.moved
    simp [Call.depositId?]
  | unlockAllExpiredLocks unlocks =>
    obtain ⟨_, _, _, rfl⟩ := unlocks.frame
    simp [Call.depositId?]
  | withdrawFromLock _ _ _ _ _ _ _ _ _ _ schedules =>
    obtain ⟨_, _, rfl⟩ := schedules.queued
    simp [Call.depositId?]
  | requestWithdrawal _ _ _ _ _ schedules =>
    obtain ⟨_, _, rfl⟩ := schedules.queued
    simp [Call.depositId?]
  | transferFromLock => split_ifs <;> simp [Call.depositId?]
  | transferBalance => split_ifs <;> simp [Call.depositId?]
  | _ => simp [Call.depositId?]

theorem Step.depositId_fresh {call : Call} {s s' : State} {o : Output P} {d : Bytes32}
    (h : Step P m call s s' o) (hd : call.depositId? = some d) :
    s.processedDeposits d = false := by
  cases h <;> simp_all [Call.depositId?]

theorem creditedIds_concat (log : List (Receipt P)) (e : Receipt P) :
    creditedIds (log ++ [e]) = creditedIds log ++ e.input.call.depositId?.toList := by
  cases h : e.input.call.depositId? <;> simp [creditedIds, h]

/-- The books balance against the deposit credits, and every credited deposit id
is marked as processed. -/
structure LedgerInvariant (log : List (Receipt P)) (s : State) : Prop where
  total : ∀ t, ∑ a, s.book a t = creditedTotal log t
  nodup : (creditedIds log).Nodup
  processed : ∀ d ∈ creditedIds log, s.processedDeposits d = true

theorem ledgerInvariant_init (evm gasTank : Address × Bytes32) :
    LedgerInvariant (P := P) [] (accountingInit evm gasTank) where
  total t := by simp [sum_book, accountingInit, State.activeLocks, queuedAmount, creditedTotal]
  nodup := List.nodup_nil
  processed := by simp [creditedIds]

theorem ledgerInvariant_step {log : List (Receipt P)} {s s' : State} {tx : Tx} {o : Output P}
    (h : LedgerInvariant log s) (hx : execute P tx.msg tx.call s = .ok (s', o)) :
    LedgerInvariant (log ++ [⟨s, tx, o, s'⟩]) s' := by
  have hs := execute_step hx
  refine ⟨fun t => ?_, ?_, fun d hd => ?_⟩
  · obtain ⟨j, hin, hout⟩ := hs.journaled
    have ht := j.posts.total t
    rw [hin, hout, h.total] at ht
    simpa [creditedTotal] using ht
  · rw [creditedIds_concat]
    cases hd : tx.call.depositId? with
    | none => simpa using h.nodup
    | some d =>
      refine List.nodup_append.mpr ⟨h.nodup, List.nodup_singleton d, fun x hx y hy hxy => ?_⟩
      have hy : y = d := by simpa using hy
      have hfresh := hs.depositId_fresh hd
      rw [← hy, ← hxy, h.processed x hx] at hfresh
      cases hfresh
  · rw [creditedIds_concat, List.mem_append] at hd
    refine (hs.processedDeposits d).mpr (hd.imp (h.processed d) fun hd => ?_)
    simpa using hd

theorem ledgerInvariant_run (evm gasTank : Address × Bytes32) (txs : List Tx) :
    LedgerInvariant ((accounting P).log (accountingInit evm gasTank) txs)
      ((accounting P).run (accountingInit evm gasTank) txs) :=
  (accounting P).run_induction (I := LedgerInvariant) (ledgerInvariant_init evm gasTank)
    (fun _ _ _ _ _ => ledgerInvariant_step) txs

/-- Ledger conservation: at every point of every run, the balances of all users,
their active locks and the withdrawal queue hold exactly what the successful
deposit credits brought in, and no deposit was credited twice. -/
theorem ledger_conservation (P : Platform) (evm gasTank : Address × Bytes32) (txs : List Tx)
    (t : Bytes32) :
    let s := (accounting P).run (accountingInit evm gasTank) txs
    let log := (accounting P).log (accountingInit evm gasTank) txs
    ∑ u, (s.balances u t).toNat + ∑ u, lockedAmount (s.activeLocks u) t +
      queuedAmount s.withdrawals t = creditedTotal log t ∧ (creditedIds log).Nodup := by
  have h := ledgerInvariant_run (P := P) evm gasTank txs
  exact ⟨by rw [← sum_book, h.total], h.nodup⟩

end Privana
