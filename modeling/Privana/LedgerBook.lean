import Privana.AccountingStep
import Privana.DoubleEntry

/-! The Accounting contract as a ledger. Value sits in three kinds of accounts:
the free balance of a user, the active locks of a user, and the withdrawal queue.
Each update of the state is a posting on this book. -/

namespace Privana
open DoubleEntry

inductive Account where
  | free (u : Address)
  | locked (u : Address)
  | queued
  deriving DecidableEq

def lockedAmount (locks : List FundLock) (t : Bytes32) : ℕ :=
  (locks.map fun l => if l.tokenId = t then l.amount.toNat else 0).sum

def queuedAmount (withdrawals : List WithdrawalRequest) (t : Bytes32) : ℕ :=
  (withdrawals.map fun w => if w.tokenId = t then w.amount.toNat else 0).sum

def State.book (s : State) : Account → Bytes32 → ℕ
  | .free u, t => (s.balances u t).toNat
  | .locked u, t => lockedAmount (s.activeLocks u) t
  | .queued, t => queuedAmount s.withdrawals t

@[simp] theorem lockedAmount_nil (t : Bytes32) : lockedAmount [] t = 0 := rfl

@[simp] theorem lockedAmount_cons (l : FundLock) (ls : List FundLock) (t : Bytes32) :
    lockedAmount (l :: ls) t = (if l.tokenId = t then l.amount.toNat else 0) + lockedAmount ls t := by
  simp [lockedAmount]

theorem lockedAmount_append (ls ls' : List FundLock) (t : Bytes32) :
    lockedAmount (ls ++ ls') t = lockedAmount ls t + lockedAmount ls' t := by
  simp [lockedAmount]

theorem lockedAmount_concat (ls : List FundLock) (l : FundLock) (t : Bytes32) :
    lockedAmount (ls ++ [l]) t =
      lockedAmount ls t + if l.tokenId = t then l.amount.toNat else 0 := by
  simp [lockedAmount_append]

theorem lockedAmount_perm {ls ls' : List FundLock} (h : ls.Perm ls') (t : Bytes32) :
    lockedAmount ls t = lockedAmount ls' t :=
  (h.map _).sum_nat

/-- Marking an entry as resolved leaves what is queued. -/
theorem queuedAmount_setResolved {ws : List WithdrawalRequest} {i : ℕ} {w : WithdrawalRequest}
    (h : ws[i]? = some w) (t : Bytes32) :
    queuedAmount (ws.set i { w with resolved := true }) t = queuedAmount ws t := by
  obtain ⟨hlt, rfl⟩ := List.getElem?_eq_some_iff.mp h
  unfold queuedAmount
  rw [List.map_set]
  congr 1
  apply List.ext_getElem (by simp)
  intro k hk hk'
  rw [List.getElem_set]
  split
  · next hik =>
    subst hik
    simp
  · rfl

@[simp] theorem book_appendHistory (s : State) (m : Msg) (u : Address) (kind : HistoryKind)
    (payload : List UInt8) : (s.appendHistory m u kind payload).book = s.book := by
  funext a t
  cases a <;> rfl

@[simp] theorem book_appendUserCounterpartyHistory (s : State) (m : Msg) (u c : Address)
    (kind : HistoryKind) (t : Bytes32) (amount : U256) :
    (s.appendUserCounterpartyHistory m u kind t amount c).book = s.book :=
  book_appendHistory _ _ _ _ _

@[simp] theorem book_withVerifier (s : State) (v : VerifierState) :
    (s.withVerifier v).book = s.book := by
  funext a t
  cases a <;> rfl

theorem book_setLocks {s : State} {u : Address} {locks : List FundLock}
    (h : ∀ t, lockedAmount locks t = lockedAmount (s.activeLocks u) t) :
    (s.setLocks u locks).book = s.book := by
  funext a t
  cases a with
  | free w => rfl
  | locked w =>
    simp only [State.book, State.activeLocks_setLocks]
    split
    · next hw => rw [h, hw]
    · rfl
  | queued => rfl

theorem book_setResolved {s : State} {i : ℕ} {w : WithdrawalRequest}
    (h : s.withdrawals[i]? = some w) :
    State.book { s with withdrawals := s.withdrawals.set i { w with resolved := true } } =
      s.book := by
  funext a t
  cases a with
  | free u => rfl
  | locked u => rfl
  | queued => exact queuedAmount_setResolved h t

theorem posts_credit {s : State} {u : Address} {t : Bytes32} {b amount : U256}
    (h : b.toNat = (s.balances u t).toNat + amount.toNat) :
    Posts [⟨none, some (.free u), t, amount.toNat⟩] s.book (s.setBalance u t b).book := by
  intro a t'
  cases a with
  | free w =>
    simp only [State.book, State.balances_setBalance, outflow, inflow, flow_cons, flow_nil]
    by_cases hw : u = w ∧ t = t'
    · obtain ⟨rfl, rfl⟩ := hw
      simpa using h
    · simp [hw, eq_comm]
  | locked w => simp [State.book]
  | queued => simp [State.book]

theorem posts_debit {s : State} {u : Address} {t : Bytes32} {b amount : U256}
    (h : b.toNat + amount.toNat = (s.balances u t).toNat) :
    Posts [⟨some (.free u), none, t, amount.toNat⟩] s.book (s.setBalance u t b).book := by
  intro a t'
  cases a with
  | free w =>
    simp only [State.book, State.balances_setBalance, outflow, inflow, flow_cons, flow_nil]
    by_cases hw : u = w ∧ t = t'
    · obtain ⟨rfl, rfl⟩ := hw
      simpa using h
    · simp [hw, eq_comm]
  | locked w => simp [State.book]
  | queued => simp [State.book]

theorem posts_lockDebit {s : State} {u : Address} {locks : List FundLock} {t : Bytes32} {n : ℕ}
    (h : ∀ t', lockedAmount locks t' + (if t = t' then n else 0) =
      lockedAmount (s.activeLocks u) t') :
    Posts [⟨some (.locked u), none, t, n⟩] s.book (s.setLocks u locks).book := by
  intro a t'
  cases a with
  | free w => simp [State.book]
  | locked w =>
    simp only [State.book, State.activeLocks_setLocks]
    by_cases hw : u = w
    · subst hw
      simpa using h t'
    · simp [hw, Ne.symm hw]
  | queued => simp [State.book]

theorem posts_lockCredit {s : State} {u : Address} {locks : List FundLock} {t : Bytes32} {n : ℕ}
    (h : ∀ t', lockedAmount locks t' =
      lockedAmount (s.activeLocks u) t' + if t = t' then n else 0) :
    Posts [⟨none, some (.locked u), t, n⟩] s.book (s.setLocks u locks).book := by
  intro a t'
  cases a with
  | free w => simp [State.book]
  | locked w =>
    simp only [State.book, State.activeLocks_setLocks]
    by_cases hw : u = w
    · subst hw
      simpa using h t'
    · simp [hw, Ne.symm hw]
  | queued => simp [State.book]

/-- Taking `amount` out of a lock, which is dropped when nothing is left. -/
theorem lockedAmount_remainder {xs ys locks : List FundLock} {l : FundLock} {n amount : U256}
    (before : xs.Perm (l :: locks)) (after : ys.Perm (remainder l n ++ locks))
    (h : n.toNat + amount.toNat = l.amount.toNat) (t : Bytes32) :
    lockedAmount ys t + (if l.tokenId = t then amount.toNat else 0) = lockedAmount xs t := by
  rw [lockedAmount_perm before, lockedAmount_perm after, lockedAmount_append, lockedAmount_cons]
  have hr : lockedAmount (remainder l n) t = if l.tokenId = t then n.toNat else 0 := by
    unfold remainder
    split
    · next hz => simp [hz]
    · simp
  rw [hr]
  split <;> omega

/-- Adding `amount` to a lock. -/
theorem lockedAmount_resized {xs ys locks : List FundLock} {l l' : FundLock} {amount : U256}
    (before : xs.Perm (l :: locks)) (after : ys.Perm (l' :: locks)) (token : l'.tokenId = l.tokenId)
    (h : l'.amount.toNat = l.amount.toNat + amount.toNat) (t : Bytes32) :
    lockedAmount ys t = lockedAmount xs t + if l.tokenId = t then amount.toNat else 0 := by
  rw [lockedAmount_perm before, lockedAmount_perm after, lockedAmount_cons, lockedAmount_cons,
    token]
  split <;> omega

theorem posts_queue {s s' : State} {m : Msg} {userAddress toAddress : Address} {tokenId : Bytes32}
    {amount chainId : U256} (h : Schedules m userAddress toAddress tokenId amount chainId s s') :
    Posts [⟨none, some .queued, tokenId, amount.toNat⟩] s.book s'.book := by
  obtain ⟨next, -, rfl⟩ := h.queued
  intro a t'
  cases a with
  | free w => simp [State.book]
  | locked w => simp [State.book, State.activeLocks]
  | queued => simp [State.book, queuedAmount]

end Privana
