import Privana.SweptFunds

/-! The durable trace of a broadcast sweep. The record of a deposit names a sweep only
after the node's reply, so from the moment a node accepts the first sweep of an
unprocessed deposit until the record is saved, no file names it; a crash in between
leaves a record that looks as if nothing had been broadcast. -/

namespace Privana
open BigEndian SweepOp

variable {P : Platform} {settings : SweepSettings}

namespace SweepWorld

/-- Every accepted sweep of a deposit that is not yet processed is named by its record. -/
def Traced (w : SweepWorld P) : Prop :=
  ∀ b ∈ w.accepted, ∀ d, b.depositId? = some d → w.Processed d ∨ w.Named d b.tx.hash

/-- Only sweeps of processed deposits were accepted. -/
def AcceptedProcessed (w : SweepWorld P) : Prop :=
  ∀ b ∈ w.accepted, ∀ d, b.depositId? = some d → w.Processed d

end SweepWorld

/-- In every state of the run each accepted sweep has its record, and a hash once named
stays named until its deposit is processed. -/
structure DurableTrace (S : TransactionMachine (SweepPool P) SweepEvent (Option (SweepOp P)) Unit)
    (start : SweepPool P) (es : List SweepEvent) : Prop where
  traced : ∀ js, js <+: es → (S.run start js).world.Traced
  kept : ∀ e ∈ S.log start es, ∀ d h, e.before.world.Named d h →
    e.after.world.Named d h ∨ e.after.world.Processed d

/-- A node accepts a sweep only of a deposit that is processed already, or again. -/
def AcceptsProcessed (e : SweepEntry P) : Prop :=
  ∀ i b d, e.input = .move (.accept i) → e.before.world.wire[i]? = some b →
    b.depositId? = some d → e.before.world.Processed d ∨
      ∃ a ∈ e.before.world.accepted, a.depositId? = some d ∧ a.tx.hash = b.tx.hash

theorem SweepWorld.AcceptedProcessed.step {s t : SweepPool P} {e : SweepEvent}
    {o : Option (SweepOp P)} (all : s.world.AcceptedProcessed)
    (grows : SweepGrows s.world t.world) (step : SweepStep s.world e t.world o)
    (accepts : AcceptsProcessed ⟨s, e, o, t⟩) : t.world.AcceptedProcessed := by
  intro a ha d hd
  refine grows.processed d ?_
  rcases step.accepted with same | ⟨i, b, rfl, hb, accepted⟩
  · exact all a (same ▸ ha) d hd
  · rw [accepted, List.mem_append, List.mem_singleton] at ha
    rcases ha with ha | rfl
    · exact all a ha d hd
    · rcases accepts i a d rfl hb hd with processed | ⟨b, hb, hd', -⟩
      · exact processed
      · exact all b hb d hd'

theorem sweepStep_accept {w v : SweepWorld P} {i : ℕ} {b : Broadcast P} {o : Option (SweepOp P)}
    (step : SweepStep w (.move (.accept i)) v o) (hb : w.wire[i]? = some b) :
    v = { w with accepted := w.accepted ++ [b] } := by
  cases step with
  | moved move =>
    simp only [sweepMove, hb, Option.map_some] at move
    exact (Option.some.inj move).symm
  | kept _ still => exact absurd rfl (still _)

/-- The trace is durable in exactly the runs in which no node ever accepts the first
sweep of an unprocessed deposit. -/
theorem durable_trace (P : Platform) (settings : SweepSettings) (evm gasTank : Address × Bytes32)
    (balances : U256 → Option Address → Address → ℕ) (nonces : U256 → Address → ℕ)
    (es : List SweepEvent) :
    DurableTrace (sweepSystem P settings).machine (sweepStart P evm gasTank balances nonces) es ↔
      ∀ e ∈ (sweepSystem P settings).machine.log (sweepStart P evm gasTank balances nonces) es,
        AcceptsProcessed e := by
  have init : (sweepStart P evm gasTank balances nonces).world.AcceptedProcessed :=
    fun _ h => (List.not_mem_nil h).elim
  have keeps : ∀ (s t : SweepPool P) (e : SweepEvent) (o : Option (SweepOp P)),
      SweepValid s.world → SweepGrows s.world t.world → SweepStep s.world e t.world o →
      AcceptsProcessed ⟨s, e, o, t⟩ → s.world.AcceptedProcessed → t.world.AcceptedProcessed :=
    fun _ _ _ _ _ grows step accepts all => all.step grows step accepts
  constructor
  · rintro ⟨traced, -⟩ e he i b d hi hb hd
    obtain ⟨valid, -, -, -, -, step⟩ := sweepRun_entry (I := fun _ => True) (C := fun _ => True)
      trivial (fun _ _ => trivial) (fun _ _ _ _ _ _ _ _ _ => trivial) he
    obtain ⟨js, ks, rfl, before, hx⟩ :=
      (sweepSystem P settings).machine.exists_prefix_of_mem_log he
    have after := traced (js ++ [e.input]) ⟨ks, by simp⟩
    rw [TransactionMachine.run_concat, ← before, TransactionMachine.step_of_ok _ hx] at after
    have accepted := sweepStep_accept (hi ▸ step) hb
    rw [accepted] at after
    exact (after b (by simp) d hd).imp_right valid.accepted_of_named
  · intro accepts
    refine ⟨fun js hjs b hb d hd => ?_, fun e he d h named => ?_⟩
    · have prefixed := fun e he =>
        accepts e ((sweepSystem P settings).machine.mem_log_of_prefix hjs he)
      exact .inl ((sweepRun_invariant init prefixed keeps).2 b hb d hd)
    · obtain ⟨valid, all, -, -, grows, -⟩ := sweepRun_entry init accepts keeps he
      obtain ⟨b, hb, hd, -⟩ := valid.accepted_of_named named
      exact .inr (grows.processed d (all b hb d hd))

namespace SampleSweep

/-- The process crashes after a node accepted the sweep, before its hash is saved. -/
def crashed : List SweepEvent :=
  setup ++ [arrives] ++ claim 0 false ++ fund 0 0 ++
    runs 0 [.number 100000000, .number 100000000, node, node, ok, ok] ++
    [.move (.accept 1), .restart]

end SampleSweep

/-- After the crash the record is there, but it names no sweep. -/
theorem sampleCrashed_record :
    let w := ((sweepSystem sampleSweepPlatform sampleSweepSettings).machine.run sampleSweepStart
      SampleSweep.crashed).world
    (w.record (sampleDepositId false)).map (fun r => (r.state, r.sweepTxHash)) =
        some (.GAS_FUNDED, none) ∧
      w.accounting.processedDeposits (sampleDepositId false) = false ∧
      w.accepted.any fun b => b.depositId? = some (sampleDepositId false) := by
  decide +kernel

theorem not_traced_of_unnamed {w : SweepWorld P} {d : Bytes32} {state : SweepState}
    (record : (w.record d).map (fun r => (r.state, r.sweepTxHash)) = some (state, none))
    (unprocessed : w.accounting.processedDeposits d = false)
    (accepted : (w.accepted.any fun b => b.depositId? = some d) = true) : ¬ w.Traced := by
  intro traced
  obtain ⟨b, hb, hd⟩ := List.any_eq_true.mp accepted
  rcases traced b hb d (of_decide_eq_true hd) with processed | named
  · rw [SweepWorld.Processed, unprocessed] at processed
    cases processed
  · obtain ⟨r, hr, hash⟩ := Option.bind_eq_some_iff.mp named
    rw [hr, Option.map_some, Option.some.injEq, Prod.mk.injEq] at record
    rw [record.2] at hash
    cases hash

theorem durable_trace_crashed : ¬ DurableTrace
    (sweepSystem sampleSweepPlatform sampleSweepSettings).machine sampleSweepStart
    SampleSweep.crashed := by
  intro durable
  obtain ⟨record, unprocessed, accepted⟩ := sampleCrashed_record
  exact not_traced_of_unnamed record unprocessed accepted
    (durable.traced _ (List.prefix_refl _))

end Privana
