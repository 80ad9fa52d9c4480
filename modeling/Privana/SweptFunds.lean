import Privana.SweepSolvency

/-! No swept-but-uncredited funds. The engine checks that a deposit is not yet processed
only when the address is empty, so a duplicate claim that waited for the lock sweeps
what arrived for another deposit, and then discards its record because its credit is
refused. As long as no deposit is attempted anew after a sweep of it has left the process
that a node accepts, every deposit has one sweep, and its record stays until that sweep
is credited. -/

namespace Privana
open BigEndian SweepOp

variable {P : Platform} {settings : SweepSettings}

namespace SweepWorld

variable (w : SweepWorld P) (d h : Bytes32)

/-- A sweep of the deposit has left the process under this hash. -/
def Sent : Prop := ∃ b ∈ w.wire, b.depositId? = some d ∧ b.tx.hash = h

def MinedSweep : Prop := w.Sent d h ∧ ∃ m ∈ w.ledger.mined, m.tx.hash = h

/-- The record file of the deposit names the hash. -/
def Named : Prop := (w.record d).bind SweepRecord.sweepTxHash = some h

/-- The deposit was credited for the sweep of this hash. -/
def CreditedBy : Prop := ∃ k ∈ w.credits, k.depositId = d ∧ k.sweepTxHash = some h

instance : Decidable (w.Sent d h) :=
  inferInstanceAs (Decidable (∃ b ∈ w.wire, b.depositId? = some d ∧ b.tx.hash = h))

instance : Decidable (w.MinedSweep d h) :=
  inferInstanceAs (Decidable (w.Sent d h ∧ ∃ m ∈ w.ledger.mined, m.tx.hash = h))

instance : Decidable (w.Named d h) :=
  inferInstanceAs (Decidable ((w.record d).bind SweepRecord.sweepTxHash = some h))

instance : Decidable (w.CreditedBy d h) :=
  inferInstanceAs (Decidable (∃ k ∈ w.credits, k.depositId = d ∧ k.sweepTxHash = some h))

end SweepWorld

/-- The records stop tracking a sweep: they no longer name it, or the record of its
deposit is gone. -/
structure Dropped (w v : SweepWorld P) (d h : Bytes32) : Prop where
  sent : w.Sent d h
  gone : (w.Named d h ∧ ¬ v.Named d h) ∨ ((w.record d).isSome ∧ v.record d = none)

/-- What the records make of the mined sweeps, in a run that ends in `w`. -/
structure NoStrandedSweep (log : List (SweepEntry P)) (w : SweepWorld P) : Prop where
  once : ∀ d h h', w.MinedSweep d h → w.MinedSweep d h' → h = h'
  dropped : ∀ e ∈ log, ∀ d h, w.MinedSweep d h → Dropped e.before.world e.after.world d h →
    e.after.world.CreditedBy d h

/-- A node has accepted a transaction of this hash. -/
def SweepWorld.AcceptedHash (w : SweepWorld P) (h : Bytes32) : Prop :=
  ∃ a ∈ w.accepted, a.tx.hash = h

/-- A deposit is not attempted anew, by the broadcast of another transaction, by a record
that names no sweep or by the cleanup for a retry, once a sweep of it has left the process
that a node accepts in the run that ends in `w`; its record may still be cleared when it is
processed. -/
def FirstAttempt (w : SweepWorld P) (e : SweepEntry P) : Prop :=
  match e.output with
  | some (.postRawTransaction b) =>
    ∀ d h, b.depositId? = some d → e.before.world.Sent d h → w.AcceptedHash h → h = b.tx.hash
  | some (.saveRecord r) =>
    r.sweepTxHash = none → ∀ h, e.before.world.Sent r.depositId h → w.AcceptedHash h →
      e.before.world.Processed r.depositId
  | some (.retryCleanup d) =>
    (e.before.world.record d).any SweepRecord.isRetryable = true →
      ∀ h, e.before.world.Sent d h → w.AcceptedHash h → e.before.world.Processed d
  | _ => True

/-- Of the sweeps that left for a deposit, the nodes accept one at most. -/
def OneSweep (w v : SweepWorld P) : Prop :=
  ∀ d h h', v.Sent d h → v.Sent d h' → w.AcceptedHash h → w.AcceptedHash h' → h = h'

theorem OneSweep.step {w : SweepWorld P} {s t : SweepPool P} {e : SweepEvent}
    {o : Option (SweepOp P)} (one : OneSweep w s.world) (step : SweepStep s.world e t.world o)
    (first : FirstAttempt w ⟨s, e, o, t⟩) : OneSweep w t.world := by
  rcases step.wire with same | ⟨b, rfl, posted⟩
  · simpa only [OneSweep, SweepWorld.Sent, same] using one
  · have sent : ∀ d h, t.world.Sent d h →
        s.world.Sent d h ∨ (b.depositId? = some d ∧ b.tx.hash = h) := by
      rintro d h ⟨a, ha, hd, rfl⟩
      rw [posted, List.mem_append, List.mem_singleton] at ha
      rcases ha with ha | rfl
      · exact .inl ⟨a, ha, hd, rfl⟩
      · exact .inr ⟨hd, rfl⟩
    intro d h h' hs hs' taken taken'
    rcases sent d h hs with hs | ⟨hd, rfl⟩ <;> rcases sent d h' hs' with hs' | ⟨hd', rfl⟩
    · exact one d h h' hs hs' taken taken'
    · exact first d h hd' hs taken
    · exact (first d h' hd hs' taken').symm
    · rfl

section Records
variable (w : SweepWorld P) {v : SweepWorld P} (d : Bytes32)

theorem record_of_records (same : v.records = w.records) : v.record d = w.record d := by
  simp only [SweepWorld.record, same]

theorem record_deleteRecord (d' : Bytes32) :
    (w.deleteRecord d').record d = if d' = d then none else w.record d := by
  simp only [SweepWorld.record, SweepWorld.deleteRecord, List.find?_filter]
  split
  · next hd =>
    subst hd
    refine List.find?_eq_none.mpr fun r _ => ?_
    simp
  · next hd =>
    congr 1
    funext r
    by_cases hr : r.depositId = d
    · simp [hr, Ne.symm hd]
    · simp [hr]

theorem record_saveRecord (r : SweepRecord) :
    (w.saveRecord r).record d = if r.depositId = d then some r else w.record d := by
  by_cases hd : r.depositId = d
  · simp [SweepWorld.record, SweepWorld.saveRecord, hd]
  · have kept := record_deleteRecord w d r.depositId
    rw [if_neg hd] at kept
    simpa [SweepWorld.record, SweepWorld.saveRecord, hd] using kept

end Records

/-- A named hash was accepted, for the deposit of the record. -/
theorem SweepValid.accepted_of_named {w : SweepWorld P} (valid : SweepValid w) {d h : Bytes32}
    (named : w.Named d h) : ∃ b ∈ w.accepted, b.depositId? = some d ∧ b.tx.hash = h := by
  obtain ⟨r, hr, hash⟩ := Option.bind_eq_some_iff.mp named
  obtain ⟨hmem, rfl⟩ := mem_of_record hr
  obtain ⟨b, hb, purpose, hb'⟩ := (valid.records r hmem).named h hash
  exact ⟨b, hb, depositId?_of_purpose purpose, hb'⟩

theorem SweepGrows.sent {w v : SweepWorld P} (g : SweepGrows w v) {d h : Bytes32}
    (sent : w.Sent d h) : v.Sent d h := by
  obtain ⟨b, hb, hp⟩ := sent
  exact ⟨b, g.wire hb, hp⟩

/-- A processed deposit was credited for a sweep of it, so for the only one accepted. -/
theorem SweepValid.creditedBy {w v : SweepWorld P} (valid : SweepValid v) (one : OneSweep w v)
    (later : v.accepted ⊆ w.accepted) {d h : Bytes32} (sent : v.Sent d h)
    (taken : w.AcceptedHash h) (processed : v.Processed d) : v.CreditedBy d h := by
  obtain ⟨k, hk, rfl⟩ := (valid.processed d).mp processed
  obtain ⟨tracked, swept⟩ := valid.credits k hk
  obtain ⟨h', hash, -⟩ := tracked.swept swept
  obtain ⟨b, hb, purpose, hb'⟩ := tracked.named h' hash
  have sent' : v.Sent k.depositId h' :=
    ⟨b, valid.accepted hb, depositId?_of_purpose purpose, hb'⟩
  exact ⟨k, hk, rfl, by rw [hash, one _ h h' sent sent' taken ⟨b, later hb, hb'⟩]⟩

section Step
variable {w : SweepWorld P} {s t : SweepPool P} {e : SweepEvent} {o : Option (SweepOp P)}
  (valid : SweepValid s.world) (one : OneSweep w s.world) (later : s.world.accepted ⊆ w.accepted)
  (step : SweepStep s.world e t.world o) (first : FirstAttempt w ⟨s, e, o, t⟩) {d h : Bytes32}
  (taken : w.AcceptedHash h)
include valid one later step first taken

/-- The record of a deposit with a sweep that a node accepts only changes once it is
processed, or to a record that names the sweep. -/
theorem record_step (sent : s.world.Sent d h) :
    s.world.Processed d ∨ t.world.Named d h ∨ t.world.record d = s.world.record d ∨
      ∃ r e, s.world.record d = some r ∧ r.sweepTxHash = none ∧
        t.world.record d = some { r with error := some e } := by
  generalize hv : t.world = v at step
  cases step with
  | performed pre effect =>
    cases effect with
    | kept same => exact .inr (.inr (.inl (record_of_records _ d (records_of_restarted same))))
    | posted | submitted => exact .inr (.inr (.inl (record_of_records _ d rfl)))
    | saved r =>
      rw [SweepWorld.Named, record_saveRecord]
      by_cases hd : r.depositId = d
      · subst hd
        cases hr : r.sweepTxHash with
        | none => exact .inl (first hr h sent taken)
        | some h' =>
          obtain ⟨b, hb, purpose, hb'⟩ := pre.named h' hr
          have sent' : s.world.Sent r.depositId h' :=
            ⟨b, valid.accepted hb, depositId?_of_purpose purpose, hb'⟩
          refine .inr (.inl ?_)
          rw [if_pos rfl, Option.bind_some, hr,
            one _ h h' sent sent' taken ⟨b, later hb, hb'⟩]
      · exact .inr (.inr (.inl (if_neg hd)))
    | deleted d' =>
      by_cases hd : d' = d
      · exact .inl (hd ▸ pre)
      · exact .inr (.inr (.inl (by rw [record_deleteRecord, if_neg hd])))
    | failed d' e =>
      rcases persistError_cases s.world d' e with same | ⟨r, hr, unsent, he⟩
      · exact .inr (.inr (.inl (by rw [same])))
      · obtain ⟨-, rfl⟩ := mem_of_record hr
        by_cases hd : r.depositId = d
        · subst hd
          exact .inr (.inr (.inr ⟨r, e, hr, unsent, by rw [he, record_saveRecord, if_pos rfl]⟩))
        · exact .inr (.inr (.inl (by rw [he, record_saveRecord, if_neg hd])))
    | retried d' =>
      rcases retryCleanup_cases s.world d' with same | ⟨r, hr, retryable, he⟩
      · exact .inr (.inr (.inl (by rw [same])))
      · by_cases hd : d' = d
        · subst hd
          exact .inl (first (by simp [hr, retryable]) h sent taken)
        · exact .inr (.inr (.inl (by rw [he, record_deleteRecord, if_neg hd])))
  | moved move => exact .inr (.inr (.inl (record_of_records _ d (sweepMove_frame move).2.1)))
  | kept same => exact .inr (.inr (.inl (record_of_records _ d (records_of_restarted same))))

theorem processed_of_dropped (dropped : Dropped s.world t.world d h) : s.world.Processed d := by
  obtain ⟨sent, gone⟩ := dropped
  rcases record_step valid one later step first taken sent with
    processed | named | same | ⟨r, x, hr, unsent, ht⟩
  · exact processed
  · rcases gone with ⟨-, lost⟩ | ⟨-, lost⟩
    · exact absurd named lost
    · simp [SweepWorld.Named, lost] at named
  · rcases gone with ⟨named, lost⟩ | ⟨found, lost⟩
    · exact absurd (by rw [SweepWorld.Named, same]; exact named) lost
    · simp [← same, lost] at found
  · rcases gone with ⟨named, -⟩ | ⟨-, lost⟩
    · simp [SweepWorld.Named, hr, unsent] at named
    · simp [ht] at lost

end Step

theorem oneSweep_start (w : SweepWorld P) (evm gasTank : Address × Bytes32)
    (balances : U256 → Option Address → Address → ℕ) (nonces : U256 → Address → ℕ) :
    OneSweep w (sweepStart P evm gasTank balances nonces).world :=
  fun _ _ _ ⟨_, h, _⟩ => (List.not_mem_nil h).elim

theorem oneSweep_step (w : SweepWorld P) (s t : SweepPool P) (e : SweepEvent)
    (o : Option (SweepOp P)) (_ : SweepValid s.world) (_ : SweepGrows s.world t.world)
    (step : SweepStep s.world e t.world o) (first : FirstAttempt w ⟨s, e, o, t⟩)
    (one : OneSweep w s.world) : OneSweep w t.world := one.step step first

/-- In every run that attempts no deposit anew, each deposit has one mined sweep at most,
and the records drop it only when it was credited for that sweep. -/
theorem no_stranded_sweep (P : Platform) (settings : SweepSettings)
    (evm gasTank : Address × Bytes32) (balances : U256 → Option Address → Address → ℕ)
    (nonces : U256 → Address → ℕ) (es : List SweepEvent)
    (first : ∀ e ∈ (sweepSystem P settings).machine.log
      (sweepStart P evm gasTank balances nonces) es,
      FirstAttempt ((sweepSystem P settings).machine.run
        (sweepStart P evm gasTank balances nonces) es).world e) :
    NoStrandedSweep
      ((sweepSystem P settings).machine.log (sweepStart P evm gasTank balances nonces) es)
      ((sweepSystem P settings).machine.run (sweepStart P evm gasTank balances nonces) es).world := by
  have init := oneSweep_start ((sweepSystem P settings).machine.run
    (sweepStart P evm gasTank balances nonces) es).world evm gasTank balances nonces
  obtain ⟨holds, one⟩ := sweepRun_invariant init first (oneSweep_step _)
  have taken : ∀ d h, ((sweepSystem P settings).machine.run
      (sweepStart P evm gasTank balances nonces) es).world.MinedSweep d h →
      ((sweepSystem P settings).machine.run
        (sweepStart P evm gasTank balances nonces) es).world.AcceptedHash h := by
    rintro d h ⟨-, m, hm, rfl⟩
    obtain ⟨a, ha, same⟩ := holds.valid.mined m hm
    exact ⟨a, ha, congrArg SignedTx.hash same⟩
  refine ⟨fun d h h' hm hm' => ?_, fun e he d h hm dropped => ?_⟩
  · exact one d h h' hm.1 hm'.1 (taken d h hm) (taken d h' hm')
  · obtain ⟨valid, one, validAfter, oneAfter, grows, step⟩ :=
      sweepRun_entry init first (oneSweep_step _) he
    have later := (sweepRun_grows he).accepted
    have processed := processed_of_dropped valid one (List.Subset.trans grows.accepted later) step
      (first e he) (taken d h hm) dropped
    exact validAfter.creditedBy oneAfter later (grows.sent dropped.sent) (taken d h hm)
      (grows.processed d processed)

/-- In every run that attempts no deposit anew, a hash that a record names stays named until
its deposit is processed. -/
theorem names_kept (P : Platform) (settings : SweepSettings) (evm gasTank : Address × Bytes32)
    (balances : U256 → Option Address → Address → ℕ) (nonces : U256 → Address → ℕ)
    (es : List SweepEvent)
    (first : ∀ e ∈ (sweepSystem P settings).machine.log
      (sweepStart P evm gasTank balances nonces) es,
      FirstAttempt ((sweepSystem P settings).machine.run
        (sweepStart P evm gasTank balances nonces) es).world e) :
    ∀ e ∈ (sweepSystem P settings).machine.log (sweepStart P evm gasTank balances nonces) es,
      ∀ d h, e.before.world.Named d h → e.after.world.Named d h ∨ e.after.world.Processed d := by
  intro e he d h named
  obtain ⟨valid, one, -, -, grows, step⟩ :=
    sweepRun_entry (oneSweep_start _ evm gasTank balances nonces) first (oneSweep_step _) he
  have later := List.Subset.trans grows.accepted (sweepRun_grows he).accepted
  obtain ⟨b, hb, hd, hash⟩ := valid.accepted_of_named named
  rcases record_step valid one later step (first e he) ⟨b, later hb, hash⟩
      ⟨b, valid.accepted hb, hd, hash⟩ with processed | still | same | ⟨r, x, hr, unsent, -⟩
  · exact .inr (grows.processed d processed)
  · exact .inl still
  · exact .inl (by rwa [SweepWorld.Named, same])
  · simp [SweepWorld.Named, hr, unsent] at named

namespace SampleSweep

/-- The same deposit is claimed twice; the second claim waits for the lock, and sweeps
what arrived for another deposit meanwhile. -/
def duplicate : List SweepEvent :=
  setup ++ [arrives] ++ claim 0 false ++ claim 1 false ++ fund 0 0 ++ broadcast 0 1 ++
    [.move (.mine 1 true 5000000000000)] ++ finish 0 0 ++
    [arrives] ++ fund 1 2 ++ broadcast 1 3 ++ [.move (.mine 3 true 5000000000000)] ++ finish 1 1

end SampleSweep

def sampleFirstSweep : Bytes32 :=
  0xa27018cc43e878d5bd7cd6f56514bf5ef10cb88a67a9e74f320019a41db7e63e

/-- The second sweep from the address, which the records drop without a credit for it when it is
of the same deposit. -/
def sampleSecondSweep : Bytes32 :=
  0x684e79edb0012d338197f133640e6ddf89a2970c94a83fc99c5b84c650ab2c55

theorem sampleDuplicate_drops :
    ∃ e ∈ (sweepSystem sampleSweepPlatform sampleSweepSettings).machine.log sampleSweepStart
        SampleSweep.duplicate,
      (e.before.world.Sent (sampleDepositId false) sampleSecondSweep ∧
        e.before.world.Named (sampleDepositId false) sampleSecondSweep ∧
        ¬ e.after.world.Named (sampleDepositId false) sampleSecondSweep) ∧
      ¬ e.after.world.CreditedBy (sampleDepositId false) sampleSecondSweep := by
  decide +kernel

theorem sampleDuplicate_mined :
    ((sweepSystem sampleSweepPlatform sampleSweepSettings).machine.run sampleSweepStart
      SampleSweep.duplicate).world.MinedSweep (sampleDepositId false) sampleSecondSweep := by
  decide +kernel

theorem no_stranded_sweep_duplicate : ¬ NoStrandedSweep
    ((sweepSystem sampleSweepPlatform sampleSweepSettings).machine.log sampleSweepStart
      SampleSweep.duplicate)
    ((sweepSystem sampleSweepPlatform sampleSweepSettings).machine.run sampleSweepStart
      SampleSweep.duplicate).world := by
  intro none
  obtain ⟨e, he, ⟨sent, named, lost⟩, uncredited⟩ := sampleDuplicate_drops
  exact uncredited (none.dropped e he _ _ sampleDuplicate_mined ⟨sent, .inl ⟨named, lost⟩⟩)

/-- No sweep of the deposit of this step has left the process before, or it is processed. -/
def attemptsFirst (e : SweepEntry P) : Bool :=
  let unsent (d : Bytes32) := e.before.world.wire.all fun b => b.depositId? ≠ some d
  match e.output with
  | some (.postRawTransaction b) => b.depositId?.all unsent
  | some (.saveRecord r) => r.sweepTxHash.isSome || unsent r.depositId
  | some (.retryCleanup d) => unsent d
  | _ => true

theorem not_sent_of_all {w : SweepWorld P} {d : Bytes32}
    (unsent : (w.wire.all fun b => b.depositId? ≠ some d) = true) (h : Bytes32) :
    ¬ w.Sent d h := by
  rintro ⟨b, hb, hd, -⟩
  have := List.all_eq_true.mp unsent b hb
  simp [hd] at this

theorem firstAttempt_of_attemptsFirst (w : SweepWorld P) {e : SweepEntry P}
    (first : attemptsFirst e = true) : FirstAttempt w e := by
  unfold attemptsFirst at first
  unfold FirstAttempt
  split <;> simp only [*] at first
  · next b _ =>
    intro d h hd sent
    rw [hd] at first
    exact absurd sent (not_sent_of_all first h)
  · next r _ =>
    intro unnamed h sent
    rw [unnamed] at first
    exact absurd sent (not_sent_of_all first h)
  · exact fun _ h sent => absurd sent (not_sent_of_all first h)
  · trivial

theorem samplePair_attemptsFirst :
    ((sweepSystem sampleSweepPlatform sampleSweepSettings).machine.log sampleSweepStart
      SampleSweep.pair).all attemptsFirst = true := by
  decide +kernel

theorem samplePair_mined :
    let w := ((sweepSystem sampleSweepPlatform sampleSweepSettings).machine.run sampleSweepStart
      SampleSweep.pair).world
    w.MinedSweep (sampleDepositId false) sampleFirstSweep ∧
      w.MinedSweep (sampleDepositId true) sampleSecondSweep ∧ w.records = [] := by
  decide +kernel

/-- Each of the two deposits has its mined sweep, and both records are gone. -/
theorem no_stranded_sweep_pair :
    let w := ((sweepSystem sampleSweepPlatform sampleSweepSettings).machine.run sampleSweepStart
      SampleSweep.pair).world
    NoStrandedSweep ((sweepSystem sampleSweepPlatform sampleSweepSettings).machine.log
      sampleSweepStart SampleSweep.pair) w ∧
      w.MinedSweep (sampleDepositId false) sampleFirstSweep ∧
      w.MinedSweep (sampleDepositId true) sampleSecondSweep ∧ w.records = [] :=
  ⟨no_stranded_sweep sampleSweepPlatform sampleSweepSettings sampleEvm sampleGasTank _ _
    SampleSweep.pair fun e he =>
      firstAttempt_of_attemptsFirst _ (List.all_eq_true.mp samplePair_attemptsFirst e he),
    samplePair_mined⟩

end Privana
