import Privana.SweepSafety

/-! What one step of the pool does to the durable part of the sweep world: an operation
writes one thing, the outside moves leave the wire and the records alone, and nothing
else matters. Over a run, all that was sent, accepted, mined or processed stays. -/

namespace Privana
open BigEndian SweepOp

variable {P : Platform} {settings : SweepSettings}

abbrev SweepPool (P : Platform) := TaskPool (SweepWorld P) (SweepOp P) SweepOp.Reply SweepError
abbrev SweepEvent := TaskEvent SweepAnswer SweepMove SweepTask
abbrev SweepEntry (P : Platform) :=
  TransactionMachine.Entry (SweepPool P) SweepEvent (Option (SweepOp P))

/-- The process at its start, with a freshly deployed contract and no record files. -/
def sweepStart (P : Platform) (evm gasTank : Address × Bytes32)
    (balances : U256 → Option Address → Address → ℕ) (nonces : U256 → Address → ℕ) :
    SweepPool P :=
  ⟨{ accounting := accountingInit evm gasTank, ledger := ⟨balances, nonces, []⟩ }, []⟩

section Restarted
variable {w v : SweepWorld P} (same : v.restarted = w.restarted)
include same

theorem wire_of_restarted : v.wire = w.wire := by
  have h := congrArg SweepWorld.wire same
  exact h

theorem accepted_of_restarted : v.accepted = w.accepted := by
  have h := congrArg SweepWorld.accepted same
  exact h

theorem records_of_restarted : v.records = w.records := by
  have h := congrArg SweepWorld.records same
  exact h

end Restarted

/-- What a performed operation writes. -/
inductive SweepEffect (w : SweepWorld P) : SweepOp P → SweepWorld P → Prop
  | kept {op : SweepOp P} {v : SweepWorld P} (same : v.restarted = w.restarted) :
      SweepEffect w op v
  | posted (b : Broadcast P) :
      SweepEffect w (.postRawTransaction b) { w with wire := w.wire ++ [b] }
  | submitted (r : SweepRecord) :
      SweepEffect w (.submitCredit r) { w with submissions := w.submissions ++ [r] }
  | saved (r : SweepRecord) : SweepEffect w (.saveRecord r) (w.saveRecord r)
  | deleted (d : Bytes32) : SweepEffect w (.deleteRecord d) (w.deleteRecord d)
  | failed (d : Bytes32) (e : SweepError) :
      SweepEffect w (.persistError d e) (w.persistError d e)
  | retried (d : Bytes32) : SweepEffect w (.retryCleanup d) (w.retryCleanup d)

theorem localAccess_effect {w v : SweepWorld P} {task : ℕ} {answer : SweepAnswer}
    {op : SweepOp P} {a : op.Reply} (h : localAccess P task w answer op = some (a, v)) :
    SweepEffect w op v := by
  cases op with
  | acquireAddressLock a c =>
    simp only [localAccess] at h
    split at h
    · obtain ⟨-, rfl⟩ := Prod.mk.inj (Option.some.inj h)
      exact .kept rfl
    · cases h
  | acquireGasTankLock =>
    simp only [localAccess] at h
    split at h
    · obtain ⟨-, rfl⟩ := Prod.mk.inj (Option.some.inj h)
      exact .kept rfl
    · cases h
  | estimateL1DataFee chainId isErc20 =>
    simp only [localAccess] at h
    split at h <;> obtain ⟨-, rfl⟩ := Prod.mk.inj (Option.some.inj h) <;> exact .kept rfl
  | deadlinePassed =>
    simp only [localAccess] at h
    split at h
    · obtain ⟨-, rfl⟩ := Prod.mk.inj (Option.some.inj h)
      exact .kept rfl
    · cases h
  | saveRecord r =>
    obtain ⟨-, rfl⟩ := Prod.mk.inj (Option.some.inj h)
    exact .saved r
  | deleteRecord d =>
    obtain ⟨-, rfl⟩ := Prod.mk.inj (Option.some.inj h)
    exact .deleted d
  | persistError d e =>
    obtain ⟨-, rfl⟩ := Prod.mk.inj (Option.some.inj h)
    exact .failed d e
  | retryCleanup d =>
    obtain ⟨-, rfl⟩ := Prod.mk.inj (Option.some.inj h)
    exact .retried d
  | releaseAddressLock | releaseGasTankLock | loadIncompleteSweeps | rememberGasFunding
  | isGasFunding | isRecoveryRunning =>
    obtain ⟨-, rfl⟩ := Prod.mk.inj (Option.some.inj h)
    exact .kept rfl
  | _ => cases h

theorem remoteWrites_effect {w v : SweepWorld P} {answer : SweepAnswer} {op : SweepOp P}
    {r : Except SweepError op.Reply} (h : remoteWrites P w op answer = some (r, v)) :
    SweepEffect w op v := by
  unfold remoteWrites at h
  split at h
  · obtain ⟨-, rfl⟩ := Prod.mk.inj (Option.some.inj h)
    exact .posted _
  · split at h
    · obtain ⟨-, rfl⟩ := Prod.mk.inj (Option.some.inj h)
      exact .kept rfl
    · cases h
  · obtain ⟨-, rfl⟩ := Prod.mk.inj (Option.some.inj h)
    exact .submitted _
  · split at h
    · split at h
      · obtain ⟨-, rfl⟩ := Prod.mk.inj (Option.some.inj h)
        exact .kept rfl
      · cases h
    · cases h
  · cases h

theorem sweepPerform_effect {w v : SweepWorld P} {task : ℕ} {op : SweepOp P}
    {answer : SweepAnswer} {r : Except SweepError op.Reply}
    (h : sweepPerform P settings task op answer w = some (r, v)) : SweepEffect w op v := by
  unfold sweepPerform at h
  split at h
  · obtain ⟨⟨a, u⟩, hm, he⟩ := Option.map_eq_some_iff.mp h
    obtain ⟨rfl, rfl⟩ := Prod.mk.inj he
    exact localAccess_effect hm
  · split at h
    · obtain ⟨-, rfl⟩ := Prod.mk.inj (Option.some.inj h)
      exact .kept rfl
    · obtain ⟨x, -, he⟩ := Option.map_eq_some_iff.mp h
      obtain ⟨-, rfl⟩ := Prod.mk.inj he
      exact .kept rfl
    · simp only [Option.orElse_eq_orElse, Option.orElse_eq_or, Option.or_eq_some_iff] at h
      rcases h with h | ⟨-, h⟩
      · obtain ⟨x, -, he⟩ := Option.map_eq_some_iff.mp h
        obtain ⟨-, rfl⟩ := Prod.mk.inj he
        exact .kept rfl
      · exact remoteWrites_effect h

/-- What a step does to the world. -/
inductive SweepStep (w : SweepWorld P) : SweepEvent → SweepWorld P → Option (SweepOp P) → Prop
  | performed {task : ℕ} {answer : SweepAnswer} {op : SweepOp P} {v : SweepWorld P}
      (pre : sweepPre op w) (effect : SweepEffect w op v) :
      SweepStep w (.run task answer) v (some op)
  | moved {m : SweepMove} {v : SweepWorld P} (move : sweepMove P w m = some v) :
      SweepStep w (.move m) v none
  | kept {e : SweepEvent} {v : SweepWorld P} (same : v.restarted = w.restarted)
      (still : ∀ m, e ≠ .move m) : SweepStep w e v none

theorem sweepStep_of_step {s t : SweepPool P} {e : SweepEvent} {o : Option (SweepOp P)}
    (holds : (sweepDiscipline P).Holds s)
    (step : TaskSystem.Step (sweepSystem P settings) s e t o) :
    SweepStep s.world e t.world o := by
  cases step with
  | run task performed =>
    exact .performed (TaskSystem.pre_of_task holds task) (sweepPerform_effect performed)
  | move moved => exact .moved moved
  | @start p w started =>
    refine .kept ?_ (fun _ => by simp)
    cases p with
    | recovery passes =>
      simp only [sweepSystem] at started
      split at started
      · cases started
      · obtain rfl := Option.some.inj started
        rfl
    | deposit | resume =>
      obtain rfl := Option.some.inj started
      rfl
  | cancel => exact .kept rfl (fun _ => by simp)
  | restart => exact .kept rfl (fun _ => by simp)

/-- An outside move changes neither the wire nor the records, and at most accepts. -/
theorem sweepMove_frame {w v : SweepWorld P} {m : SweepMove} (h : sweepMove P w m = some v) :
    v.wire = w.wire ∧ v.records = w.records ∧
      (v.accepted = w.accepted ∨ ∃ i b, m = .accept i ∧ w.wire[i]? = some b ∧
        v.accepted = w.accepted ++ [b]) := by
  cases m with
  | transact tx =>
    simp only [sweepMove] at h
    split at h
    · split at h
      · obtain rfl := Option.some.inj h
        exact ⟨rfl, rfl, .inl rfl⟩
      · cases h
    · cases h
  | credit i msg =>
    obtain ⟨record, -, rfl⟩ := Option.map_eq_some_iff.mp h
    unfold SweepWorld.credit
    split <;> exact ⟨rfl, rfl, .inl rfl⟩
  | accept i =>
    obtain ⟨b, hb, rfl⟩ := Option.map_eq_some_iff.mp h
    exact ⟨rfl, rfl, .inr ⟨i, b, rfl, hb, rfl⟩⟩
  | mine i succeeded fee =>
    obtain ⟨b, -, h⟩ := Option.bind_eq_some_iff.mp h
    obtain ⟨l, -, h⟩ := Option.bind_eq_some_iff.mp h
    obtain rfl := Option.some.inj h
    exact ⟨rfl, rfl, .inl rfl⟩
  | receive =>
    obtain rfl := Option.some.inj h
    exact ⟨rfl, rfl, .inl rfl⟩
  | foreignSpend =>
    obtain ⟨l, -, rfl⟩ := Option.map_eq_some_iff.mp h
    exact ⟨rfl, rfl, .inl rfl⟩
  | stopRecovery =>
    obtain rfl := Option.some.inj h
    exact ⟨rfl, rfl, .inl rfl⟩

theorem retryCleanup_records (w : SweepWorld P) (d : Bytes32) :
    (w.retryCleanup d).wire = w.wire ∧ (w.retryCleanup d).accepted = w.accepted := by
  rcases retryCleanup_cases w d with he | ⟨_, -, -, he⟩ <;> rw [he] <;> exact ⟨rfl, rfl⟩

theorem persistError_records (w : SweepWorld P) (d : Bytes32) (e : SweepError) :
    (w.persistError d e).wire = w.wire ∧ (w.persistError d e).accepted = w.accepted := by
  rcases persistError_cases w d e with he | ⟨_, -, -, he⟩ <;> rw [he] <;> exact ⟨rfl, rfl⟩

/-- The wire only grows by what an operation posts. -/
theorem SweepStep.wire {w v : SweepWorld P} {e : SweepEvent} {o : Option (SweepOp P)}
    (h : SweepStep w e v o) :
    v.wire = w.wire ∨ ∃ b, o = some (.postRawTransaction b) ∧ v.wire = w.wire ++ [b] := by
  cases h with
  | performed _ effect =>
    cases effect with
    | kept same => exact .inl (wire_of_restarted same)
    | posted b => exact .inr ⟨b, rfl, rfl⟩
    | failed d e => exact .inl (persistError_records w d e).1
    | retried d => exact .inl (retryCleanup_records w d).1
    | submitted | saved | deleted => exact .inl rfl
  | moved move => exact .inl (sweepMove_frame move).1
  | kept same => exact .inl (wire_of_restarted same)

/-- Nodes accept only in the moves that say so. -/
theorem SweepStep.accepted {w v : SweepWorld P} {e : SweepEvent} {o : Option (SweepOp P)}
    (h : SweepStep w e v o) :
    v.accepted = w.accepted ∨ ∃ i b, e = .move (.accept i) ∧ w.wire[i]? = some b ∧
      v.accepted = w.accepted ++ [b] := by
  cases h with
  | performed _ effect =>
    cases effect with
    | kept same => exact .inl (accepted_of_restarted same)
    | failed d e => exact .inl (persistError_records w d e).2
    | retried d => exact .inl (retryCleanup_records w d).2
    | posted | submitted | saved | deleted => exact .inl rfl
  | moved move =>
    rcases (sweepMove_frame move).2.2 with he | ⟨i, b, rfl, hb, he⟩
    · exact .inl he
    · exact .inr ⟨i, b, rfl, hb, he⟩
  | kept same => exact .inl (accepted_of_restarted same)

theorem step_grows {s t : SweepPool P} {e : SweepEvent} {o : Option (SweepOp P)}
    (holds : (sweepDiscipline P).Holds s)
    (step : TaskSystem.Step (sweepSystem P settings) s e t o) :
    SweepGrows s.world t.world := by
  have keeps := sweepSystem_keeps P settings
  cases step with
  | run task performed =>
    exact (keeps.perform holds.valid (TaskSystem.pre_of_task holds task) performed).2.1
  | move moved => exact (keeps.move trivial holds.valid moved).2
  | start started => exact (keeps.start holds.valid started).2.1
  | cancel => exact (keeps.leave holds.valid).2
  | restart => exact .frame rfl

theorem sweepStart_holds (evm gasTank : Address × Bytes32)
    (balances : U256 → Option Address → Address → ℕ) (nonces : U256 → Address → ℕ) :
    (sweepDiscipline P).Holds (sweepStart P evm gasTank balances nonces) where
  valid :=
    { pastKeys := fun _ h => (List.not_mem_nil h).elim
      pastMined := fun _ h => (List.not_mem_nil h).elim
      records := fun _ h => (List.not_mem_nil h).elim
      wire := fun _ h => (List.not_mem_nil h).elim
      accepted := List.Subset.refl _
      mined := fun _ h => (List.not_mem_nil h).elim
      minedOnce := List.nodup_nil
      submissions := fun _ h => (List.not_mem_nil h).elim
      credits := fun _ h => (List.not_mem_nil h).elim
      creditedOnce := List.nodup_nil
      processed := fun d => by simp [SweepWorld.Processed, sweepStart, accountingInit]
      replies := fun _ h => (List.not_mem_nil h).elim }
  tasks _ h := (List.not_mem_nil h).elim

/-- What a step of a run leaves behind is there at the end. -/
theorem sweepRun_grows {evm gasTank : Address × Bytes32}
    {balances : U256 → Option Address → Address → ℕ} {nonces : U256 → Address → ℕ}
    {es : List SweepEvent} {e : SweepEntry P} (he : e ∈ (sweepSystem P settings).machine.log
      (sweepStart P evm gasTank balances nonces) es) :
    SweepGrows e.after.world ((sweepSystem P settings).machine.run
      (sweepStart P evm gasTank balances nonces) es).world := by
  have all := (sweepSystem P settings).machine.run_induction
    (I := fun log s => (sweepDiscipline P).Holds s ∧
      ∀ e ∈ log, SweepGrows e.after.world s.world)
    ⟨sweepStart_holds evm gasTank balances nonces, fun _ h => (List.not_mem_nil h).elim⟩
    (fun log s x t o before executed => by
      have step := TaskSystem.exec_step executed
      have grows := step_grows before.1 step
      refine ⟨step.holds (sweepSystem_keeps P settings) before.1 fun _ _ => trivial,
        fun e he => ?_⟩
      rcases List.mem_append.mp he with he | he
      · exact (before.2 e he).trans grows
      · obtain rfl := List.mem_singleton.mp he
        exact .frame rfl) es
  exact all.2 e he

section Rule
variable {evm gasTank : Address × Bytes32} {balances : U256 → Option Address → Address → ℕ}
  {nonces : U256 → Address → ℕ} {I : SweepWorld P → Prop} {C : SweepEntry P → Prop}
  {es : List SweepEvent}
  (init : I (sweepStart P evm gasTank balances nonces).world)
  (condition : ∀ e ∈ (sweepSystem P settings).machine.log
    (sweepStart P evm gasTank balances nonces) es, C e)
  (step : ∀ (s t : SweepPool P) (e : SweepEvent) (o : Option (SweepOp P)),
    SweepValid s.world → SweepGrows s.world t.world → SweepStep s.world e t.world o →
    C ⟨s, e, o, t⟩ → I s.world → I t.world)
include init condition step

/-- The invariant rule for runs of the sweep system whose steps meet a condition. -/
theorem sweepRun_invariant :
    (sweepDiscipline P).Holds ((sweepSystem P settings).machine.run
        (sweepStart P evm gasTank balances nonces) es) ∧
      I ((sweepSystem P settings).machine.run (sweepStart P evm gasTank balances nonces) es).world :=
  (sweepSystem P settings).machine.run_invariant_where (C := C)
    (I := fun s => (sweepDiscipline P).Holds s ∧ I s.world)
    ⟨sweepStart_holds evm gasTank balances nonces, init⟩ (fun s e t o hs hx hc => by
      have hstep := TaskSystem.exec_step hx
      refine ⟨hstep.holds (sweepSystem_keeps P settings) hs.1 fun _ _ => trivial, ?_⟩
      exact step s t e o hs.1.valid (step_grows hs.1 hstep) (sweepStep_of_step hs.1 hstep) hc hs.2)
    es condition

/-- Every step of such a run is taken in a valid world that satisfies the invariant. -/
theorem sweepRun_entry {e : SweepEntry P} (he : e ∈ (sweepSystem P settings).machine.log
      (sweepStart P evm gasTank balances nonces) es) :
    SweepValid e.before.world ∧ I e.before.world ∧ SweepValid e.after.world ∧
      I e.after.world ∧ SweepGrows e.before.world e.after.world ∧
      SweepStep e.before.world e.input e.after.world e.output := by
  obtain ⟨js, ks, hes, hb, hx⟩ := (sweepSystem P settings).machine.exists_prefix_of_mem_log he
  have hjs : js <+: es := ⟨e.input :: ks, by simp [hes]⟩
  obtain ⟨holds, inv⟩ := sweepRun_invariant init
    (fun e he => condition e ((sweepSystem P settings).machine.mem_log_of_prefix hjs he)) step
  rw [← hb] at holds inv
  have hstep := TaskSystem.exec_step hx
  have grows := step_grows holds hstep
  have world := sweepStep_of_step holds hstep
  have valid := (hstep.holds (sweepSystem_keeps P settings) holds fun _ _ => trivial).valid
  exact ⟨holds.valid, inv, valid, step _ _ _ _ holds.valid grows world (condition e he) inv, grows,
    world⟩

end Rule

end Privana
