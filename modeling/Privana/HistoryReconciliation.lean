import Privana.Journal

/-! The history of a user accounts for the user's wealth. A journal adds to both
sides of the equation the same, so it holds along every run. -/

namespace Privana
open BigEndian

variable {P : Platform}

structure HistoryInvariant (s : State) : Prop where
  wealth : ∀ u t, s.wealth u t + outgoingSum u t (s.history u) = incomingSum t (s.history u)
  readable : ∀ u, ∀ e ∈ s.history u, ∃ d, decodeHistoryPayload e.kind e.payload = .ok d

namespace HistoryInvariant

theorem init (evm gasTank : Address × Bytes32) :
    HistoryInvariant (accountingInit evm gasTank) where
  wealth u t := rfl
  readable u := by simp [accountingInit]

theorem journal {s s' : State} (h : HistoryInvariant s) (j : Journal s s') :
    HistoryInvariant s' where
  wealth u t := by
    have hw := h.wealth u t
    have hj := j.wealth u t
    rw [j.appended, outgoingSum_append, incomingSum_append]
    omega
  readable u e he := by
    rw [j.appended, List.mem_append] at he
    rcases he with he | he
    · exact h.readable u e he
    · obtain ⟨y, hy, rfl⟩ := List.mem_map.mp he
      obtain ⟨x, -, -, d, hd, -⟩ := j.backed y (List.mem_of_mem_filter hy)
      exact ⟨d, hd⟩

end HistoryInvariant

/-- History reconciliation: in every reachable state the balance and the active
locks of a user are what the user's decoded history says came in, less what it
says went out, and every call of the run wrote the matching entries for each user
whose value it moved. -/
theorem history_reconciliation (P : Platform) (evm gasTank : Address × Bytes32)
    (txs : List Tx) :
    let s := (accounting P).run (accountingInit evm gasTank) txs
    let log := (accounting P).log (accountingInit evm gasTank) txs
    (∀ u t, ((s.balances u t).toNat : ℤ) + lockedAmount (s.activeLocks u) t =
      incomingSum t (s.history u) - outgoingSum u t (s.history u)) ∧
    (∀ u, ∀ e ∈ s.history u, ∃ d, decodeHistoryPayload e.kind e.payload = .ok d) ∧
    ∀ e ∈ log, Journaled e.input.call.credited e.before e.after := by
  have h := (accounting P).run_induction
    (I := fun log s => HistoryInvariant s ∧
      ∀ e ∈ log, Journaled e.input.call.credited e.before e.after)
    (s := accountingInit evm gasTank) ⟨.init evm gasTank, by simp⟩
    (fun log s tx s' o ⟨hi, hl⟩ hx => by
      have hs : Step P tx.msg tx.call s s' o := execute_step hx
      have hj := hs.journaled
      refine ⟨hj.elim fun j _ => hi.journal j, fun e he => ?_⟩
      rcases List.mem_append.mp he with he | he
      · exact hl e he
      · obtain rfl := List.mem_singleton.mp he
        exact hj) txs
  refine ⟨fun u t => ?_, h.1.readable, h.2⟩
  have hw := h.1.wealth u t
  simp only [State.wealth, State.book] at hw
  omega

end Privana
