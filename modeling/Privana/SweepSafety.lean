import Privana.SweepDiscipline

/-! The tasks of the sweep engine keep the discipline. A sweep names in its record the
hash that a node accepted for its own call, promotes the record when that hash was
mined with success, and deletes it once the deposit is processed; recovery does the
same with the records it loaded. -/

namespace Privana
open BigEndian Coroutine SweepOp

variable {P : Platform} {settings : SweepSettings} {w : SweepWorld P}

theorem getSafeGasPrice_quiet (chainId : U256) :
    (getSafeGasPrice settings chainId).Quiet (sweepDiscipline P) := by
  refine .bind (.await fun _ => trivial) fun baseFee => .bind (.await fun _ => trivial) fun price => ?_
  split
  · exact .raise _
  · split
    · exact .result _
    · exact .raise _

theorem sendRawTransaction_safe {b : Broadcast P} (pre : sweepPre (.postRawTransaction b) w) :
    (sendRawTransaction b).Safe (sweepDiscipline P)
      (fun h v => h = b.tx.hash ∧ ∃ a ∈ v.accepted, a.purpose = b.purpose ∧ a.tx.hash = h) w := by
  refine Safe.await (fun v g _ => g.sweepsWire pre) fun _ v _ _ _ => ?_
  refine Safe.reply (fun _ _ _ => trivial) fun h v u told g _ => ?_
  obtain ⟨a, ha, hp⟩ := told.2
  exact ⟨told.1, a, g.accepted ha, hp⟩

theorem pollReceipt_safe (chainId : U256) (hash : Bytes32) (valid : SweepValid w) :
    (pollReceipt chainId hash).Safe (sweepDiscipline P)
      (fun receipt v => receipt = some true → v.Mined chainId hash) w := by
  refine Safe.except valid (Safe.await (fun _ _ _ => trivial) fun status v _ _ told => ?_)
    fun e v _ hv => ?_
  · exact Safe.result fun u g _ hs => g.mines (told (Option.some.inj hs))
  · split
    · exact Safe.result fun _ _ _ hs => by cases hs
    · exact Safe.raise _

theorem waitForReceipt_safe (chainId : U256) (hash : Bytes32) (polls : ℕ) (valid : SweepValid w) :
    (waitForReceipt chainId hash polls).Safe (sweepDiscipline P)
      (fun status v => status = true → v.Mined chainId hash) w := by
  induction polls generalizing w with
  | zero => exact Safe.raise _
  | succ polls ih =>
    refine Safe.await (fun _ _ _ => trivial) fun late v _ hv _ => ?_
    split
    · exact Safe.raise _
    refine Safe.bind hv (pollReceipt_safe chainId hash hv) fun receipt v _ hv hr => ?_
    cases receipt with
    | none => exact ih hv
    | some status => exact Safe.result fun u g _ hs => g.mines (hr (hs ▸ rfl))

theorem idempotentCredit_safe {record : SweepRecord} (creditable : w.Creditable record) :
    (idempotentCredit record).Safe (sweepDiscipline P)
      (fun _ v => v.Processed record.depositId) w := by
  refine Safe.await (fun v g _ => g.creditable creditable) fun _ v _ _ _ => ?_
  refine Safe.await (fun _ _ _ => trivial) fun reply v _ _ told => ?_
  split
  · exact Safe.result fun u g _ => g.processed _ (told (.inl rfl))
  · exact Safe.result fun u g _ => g.processed _ (told (.inr rfl))
  · exact Safe.raise _

/-- A record of an attempt whose sweep is not broadcast yet. -/
theorem SweepWorld.Routed.tracked {r : SweepRecord} (h : w.Routed r.toSweepCall)
    (unnamed : r.sweepTxHash = none) (open_ : r.state ≠ .SWEPT) : w.Tracked r where
  routed := h
  named k hk := by simp [unnamed] at hk
  swept hs := absurd hs open_

theorem fundGas_safe {record : SweepRecord} {gasPrice : ℕ} (routed : w.Routed record.toSweepCall)
    (unnamed : record.sweepTxHash = none) :
    (fundGas settings record gasPrice).Safe (sweepDiscipline P)
      (fun r _ => r.toSweepCall = record.toSweepCall ∧ r.state = .GAS_FUNDED) w := by
  refine Safe.await (fun _ _ _ => trivial) fun l1DataFee w₁ g₁ hw₁ _ => ?_
  split
  · exact Safe.raise _
  refine Safe.await (fun _ _ _ => trivial) fun _ w₂ g₂ hw₂ _ => ?_
  refine Safe.ensure hw₂ ?_ fun v _ hv => Quiet.await (fun _ => trivial) v hv
  refine Safe.await (fun _ _ _ => trivial) fun gasTank w₃ g₃ _ _ => ?_
  refine Safe.await (fun _ _ _ => trivial) fun gasTankNonce w₄ g₄ _ _ => ?_
  refine Safe.await (fun _ _ _ => trivial) fun gasTx w₅ g₅ _ _ => ?_
  refine Safe.await (fun _ _ _ => trivial) fun _ w₆ g₆ hw₆ _ => ?_
  refine Safe.bind hw₆ (sendRawTransaction_safe fun _ hp => by cases hp) fun gasTxHash w₇ g₇ _ _ => ?_
  refine Safe.await (fun _ _ _ => trivial) fun _ w₈ g₈ _ _ => ?_
  have since : SweepGrows w w₈ :=
    g₁.trans (g₂.trans (g₃.trans (g₄.trans (g₅.trans (g₆.trans (g₇.trans g₈))))))
  refine Safe.await (fun v g _ => ?_) fun _ w₉ g₉ hw₉ _ => ?_
  · exact SweepWorld.Routed.tracked ((since.trans g).routed routed) unnamed (by simp)
  refine Safe.bind hw₉ (waitForReceipt_safe _ _ _ hw₉) fun status v _ _ _ => ?_
  split
  · exact Safe.result fun _ _ _ => ⟨rfl, rfl⟩
  · exact Safe.raise _

theorem broadcastSweep_safe {record : SweepRecord} (valid : SweepValid w)
    (routed : w.Routed record.toSweepCall) (open_ : record.state ≠ .SWEPT) :
    (broadcastSweep settings record).Safe (sweepDiscipline P)
      (fun r v => r.toSweepCall = record.toSweepCall ∧ v.Creditable r) w := by
  refine Safe.bind valid (getSafeGasPrice_quiet _ w valid) fun gasPrice w₁ g₁ _ _ => ?_
  refine Safe.await (fun _ _ _ => trivial) fun nonce w₂ g₂ _ _ => ?_
  refine Safe.await (fun _ _ _ => trivial) fun signedTx w₃ g₃ _ told => ?_
  refine Safe.await (fun _ _ _ => trivial) fun _ w₄ g₄ hw₄ _ => ?_
  have routed₃ : w₃.Routed record.toSweepCall := (g₁.trans (g₂.trans g₃)).routed routed
  have routed₄ : w₄.Routed record.toSweepCall := g₄.routed routed₃
  have sweeps : w₄.Sweeps record.toSweepCall signedTx := g₄.sweeps (told routed₃)
  refine Safe.bind hw₄ (sendRawTransaction_safe ?_) fun txHash w₅ g₅ _ sent => ?_
  · rintro _ ⟨⟩
    exact ⟨routed₄, sweeps⟩
  obtain ⟨-, a, ha, hp, hh⟩ := sent
  have accepted : w₅.Accepted record.toSweepCall txHash := ⟨a, ha, hp, hh⟩
  have tracked : w₅.Tracked { record with sweepTxHash := some txHash } :=
    ⟨g₅.routed routed₄, fun h hh => Option.some.inj hh ▸ accepted, fun hs => absurd hs open_⟩
  refine Safe.await (fun v g _ => g.tracked tracked) fun _ w₆ g₆ hw₆ _ => ?_
  refine Safe.bind hw₆ (waitForReceipt_safe _ _ _ hw₆) fun status w₇ g₇ _ mined => ?_
  split
  · next hs =>
    have creditable : w₇.Creditable
        { record with sweepTxHash := some txHash, state := .SWEPT } :=
      ⟨⟨((g₆.trans g₇).tracked tracked).routed, ((g₆.trans g₇).tracked tracked).named,
        fun _ => ⟨txHash, rfl, mined hs⟩⟩, rfl⟩
    refine Safe.await (fun _ _ _ => trivial) fun _ w₈ g₈ _ _ => ?_
    refine Safe.await (fun v g _ => (g₈.trans g).tracked creditable.tracked) fun _ w₉ g₉ _ _ => ?_
    exact Safe.result fun u g _ => ⟨rfl, (g₈.trans (g₉.trans g)).creditable creditable⟩
  · exact Safe.raise _

theorem sweepLocked_safe {call : SweepCall} (routed : w.Routed call) :
    (sweepLocked settings call).Safe (sweepDiscipline P) (fun _ _ => True) w := by
  refine Safe.await (fun _ _ _ => trivial) fun _ w₁ g₁ _ _ => ?_
  refine Safe.await (fun _ _ _ => trivial) fun held w₂ g₂ hw₂ _ => ?_
  split
  · refine Safe.await (fun _ _ _ => trivial) fun processed v _ _ _ => ?_
    split
    · exact Safe.result fun _ _ _ => trivial
    · exact Safe.raise _
  split
  · exact Safe.raise _
  refine Safe.bind hw₂ (getSafeGasPrice_quiet _ w₂ hw₂) fun gasPrice w₃ g₃ _ _ => ?_
  have routed₃ : w₃.Routed call := (g₁.trans (g₂.trans g₃)).routed routed
  refine Safe.await (fun v g _ => ?_) fun _ w₄ g₄ hw₄ _ => ?_
  · exact SweepWorld.Routed.tracked (g.routed routed₃) rfl (by simp)
  refine Safe.bind hw₄ (@fundGas_safe P settings w₄ { call with } gasPrice (g₄.routed routed₃) rfl)
    fun funded w₅ g₅ hw₅ ⟨same, state⟩ => ?_
  refine Safe.bind hw₅ (broadcastSweep_safe hw₅ (same ▸ (g₄.trans g₅).routed routed₃)
    (by simp [state])) fun swept w₆ g₆ hw₆ ⟨_, creditable⟩ => ?_
  refine Safe.bind hw₆ (Safe.except hw₆ (idempotentCredit_safe creditable) fun _ _ _ _ =>
    Safe.raise _) fun _ w₇ g₇ _ processed => ?_
  exact Safe.reply (fun v g _ => g.processed _ processed) fun _ _ _ _ _ _ => trivial

theorem sweep_safe {call : SweepCall} (routed : w.Routed call) :
    (sweep settings call).Safe (sweepDiscipline P) (fun _ _ => True) w :=
  Safe.await (fun _ _ _ => trivial) fun _ _ g hv _ =>
    Safe.ensure hv (sweepLocked_safe (g.routed routed)) fun v _ hv =>
      Quiet.await (fun _ => trivial) v hv

/-- A call is swept as what its token says it is. -/
theorem sweepByToken_safe {call : SweepCall} (routed : w.Routed call) :
    (match call.tokenAddress with
      | none => sweepNative settings call
      | some tokenAddress => sweepErc20 settings call tokenAddress : Sweep P Unit).Safe
      (sweepDiscipline P) (fun _ _ => True) w := by
  obtain ⟨_, _, _, _, _, token, _, _, _⟩ := call
  cases token <;> exact sweep_safe routed

theorem reconcileSweepTx_safe {record : SweepRecord} (valid : SweepValid w)
    (tracked : w.Tracked record) :
    (reconcileSweepTx record).Safe (sweepDiscipline P) (fun r v => v.Tracked r) w := by
  have untouched (v : SweepWorld P) (g : SweepGrows w v) :
      (pure record : Sweep P SweepRecord).Safe (sweepDiscipline P) (fun r v => v.Tracked r) v :=
    Safe.result fun u g' _ => (g.trans g').tracked tracked
  unfold reconcileSweepTx
  split
  · exact untouched w (.refl w)
  split
  · exact untouched w (.refl w)
  next hash named =>
  have looked : (except (do
      await (requireServed record.chainId)
      let status : Bool ← await (transactionReceipt record.chainId hash)
      await (requireServed record.chainId)
      return some status) fun _ => pure none : Sweep P (Option Bool)).Safe (sweepDiscipline P)
      (fun receipt v => receipt = some true → v.Mined record.chainId hash) w := by
    refine Safe.except valid (Safe.await (fun _ _ _ => trivial) fun _ v₁ _ _ _ => ?_)
      fun _ _ _ _ => Safe.result fun _ _ _ hs => by cases hs
    refine Safe.await (fun _ _ _ => trivial) fun status v₂ _ _ told => ?_
    refine Safe.await (fun _ _ _ => trivial) fun _ v₃ g₃ _ _ => ?_
    exact Safe.result fun u g _ hs => (g₃.trans g).mines (told (Option.some.inj hs))
  refine Safe.bind valid looked fun receipt v g _ mined => ?_
  split
  · have promoted : v.Tracked { record with state := .SWEPT } :=
      ⟨(g.tracked tracked).routed, (g.tracked tracked).named, fun _ => ⟨hash, named, mined rfl⟩⟩
    refine Safe.await (fun u g' _ => g'.tracked promoted) fun _ u g' _ _ => ?_
    exact Safe.result fun t g'' _ => (g'.trans g'').tracked promoted
  · exact untouched v g

theorem creditSwept_safe {record : SweepRecord} (valid : SweepValid w)
    (creditable : w.Creditable record) :
    (creditSwept record).Safe (sweepDiscipline P) (fun _ _ => True) w :=
  Safe.bind valid (idempotentCredit_safe creditable) fun _ _ _ _ processed =>
    Safe.reply (fun _ g _ => g.processed _ processed) fun _ _ _ _ _ _ => trivial

theorem onResumeError_quiet (record : SweepRecord) (e : SweepError) :
    (onResumeError record e).Quiet (sweepDiscipline P) := by
  cases e with
  | sweepCreditPending => exact .result _
  | _ => exact .await fun _ => trivial

theorem loadedRecords_safe {β : Type} {post : β → SweepWorld P → Prop}
    {f : List SweepRecord → Sweep P β}
    (next : ∀ records v, SweepValid v → (∀ r ∈ records, v.Tracked r) →
      (f records).Safe (sweepDiscipline P) post v) :
    (do
      let records : List SweepRecord ← await SweepOp.loadIncompleteSweeps
      let records ← mapEach reconcileSweepTx records
      f records : Sweep P β).Safe (sweepDiscipline P) post w := by
  refine Safe.await (fun _ _ _ => trivial) fun records v _ hv told => ?_
  have loaded : ∀ r ∈ records, v.Tracked r := told
  have keep : ∀ (r : SweepRecord) (v u : SweepWorld P), SweepGrows v u → v.Tracked r →
      u.Tracked r := fun _ _ _ g => g.tracked
  have reconciled := Safe.mapEach (I := fun r v => v.Tracked r) (J := fun r v => v.Tracked r) hv
    loaded keep keep fun r v hv tracked => reconcileSweepTx_safe hv tracked
  exact Safe.bind hv reconciled fun records v _ hv tracked => next records v hv tracked

theorem resumeIncompleteSweeps_quiet :
    (resumeIncompleteSweeps settings).Quiet (sweepDiscipline P) := by
  refine fun w _ => loadedRecords_safe fun records v hv tracked => ?_
  refine Safe.forEach (I := fun r v => v.Tracked r) hv tracked (fun _ _ _ g => g.tracked)
    fun record v hv tracked => ?_
  refine Safe.except hv ?_ fun e v _ hv => onResumeError_quiet record e v hv
  split
  · next swept => exact creditSwept_safe hv ⟨tracked, swept⟩
  split
  · exact sweepByToken_safe tracked.routed
  · exact Safe.result fun _ _ _ => trivial

theorem recoveryPass_quiet : (recoveryPass settings).Quiet (sweepDiscipline P) := by
  refine fun w _ => loadedRecords_safe fun records v hv tracked => ?_
  refine Safe.bind hv (Safe.forEach (I := fun r v => v.Tracked r) hv
    (fun r hr => tracked r (List.mem_of_mem_filter hr)) (fun _ _ _ g => g.tracked)
    fun record v hv tracked => ?_) fun _ v' g hv' _ => ?_
  · exact Safe.except hv (sweepByToken_safe tracked.routed) fun e v _ hv =>
      onResumeError_quiet record e v hv
  · refine Safe.forEach (I := fun r v => v.Creditable r) hv' (fun r hr => ?_)
      (fun _ _ _ g => g.creditable) fun record v hv creditable => ?_
    · obtain ⟨hr, hs⟩ := List.mem_filter.mp hr
      exact ⟨g.tracked (tracked r hr), by simpa using hs⟩
    · exact Safe.except hv (creditSwept_safe hv creditable) fun _ _ _ _ =>
        Safe.result fun _ _ _ => trivial

theorem runRecoveryLoop_quiet (passes : ℕ) :
    (runRecoveryLoop settings passes).Quiet (sweepDiscipline P) := by
  induction passes with
  | zero => exact .result _
  | succ passes ih =>
    refine .bind (.await fun _ => trivial) fun running => ?_
    split
    · refine .bind (.await fun _ => trivial) fun running => ?_
      split
      · exact .bind recoveryPass_quiet fun _ => ih
      · exact .result _
    · exact .result _

/-- The sweep that a deposit claim starts goes where the contract says. -/
theorem processDeposit_safe (request : DepositRequest) :
    (processDeposit settings request).Safe (sweepDiscipline P)
      (fun p v => ∀ call, p.2 = some call → v.Routed call) w := by
  have idle {response : DepositResponse} (v : SweepWorld P) :
      (pure (response, none) : Sweep P (DepositResponse × Option SweepCall)).Safe
        (sweepDiscipline P) (fun p v => ∀ call, p.2 = some call → v.Routed call) v :=
    Safe.result fun _ _ _ _ hc => by cases hc
  unfold processDeposit
  split
  · exact Safe.raise _
  refine Safe.await (fun _ _ _ => trivial) fun funding w₁ g₁ _ _ => ?_
  split
  · exact Safe.raise _
  refine Safe.await (fun _ _ _ => trivial) fun depositAddress w₂ g₂ _ address => ?_
  refine Safe.await (fun _ _ _ => trivial) fun verified w₃ g₃ _ _ => ?_
  split
  · exact Safe.raise _
  refine Safe.await (fun _ _ _ => trivial) fun tokenId w₄ g₄ _ token => ?_
  refine Safe.await (fun _ _ _ => trivial) fun registered w₅ g₅ _ _ => ?_
  split
  · exact Safe.raise _
  refine Safe.await (fun _ _ _ => trivial) fun processed w₆ g₆ _ _ => ?_
  split
  · exact idle w₆
  refine Safe.await (fun _ _ _ => trivial) fun existing w₇ g₇ _ _ => ?_
  split
  · exact idle w₇
  refine Safe.result fun u g _ => ?_
  rintro call ⟨⟩
  have since : SweepGrows w₂ u := g₃.trans (g₄.trans (g₅.trans (g₆.trans (g₇.trans g))))
  exact ⟨(congrArg Prod.fst (since.keys.derive _ _ _)).symm.trans address, token⟩

theorem depositTask_quiet (request : DepositRequest) :
    (depositTask settings request).Quiet (sweepDiscipline P) := by
  intro w hw
  refine Safe.bind hw (processDeposit_safe request) fun started v _ hv routed => ?_
  obtain ⟨response, background⟩ := started
  cases background with
  | none => exact Safe.result fun _ _ _ => trivial
  | some call =>
    refine Safe.except hv (sweepByToken_safe (routed call rfl)) fun e v _ hv => ?_
    cases e with
    | sweepCreditPending => exact Safe.result fun _ _ _ => trivial
    | _ => exact Quiet.await (fun _ => trivial) v hv

theorem sweepSystem_keeps (P : Platform) (settings : SweepSettings) :
    (sweepSystem P settings).Keeps (sweepDiscipline P) fun _ => True where
  perform valid pre h := sweepPerform_keeps valid pre h
  move _ valid h := sweepMove_keeps valid h
  start {p w v} valid h := by
    cases p with
    | deposit request =>
      obtain rfl := Option.some.inj h
      exact ⟨valid, .refl w, depositTask_quiet request w valid⟩
    | resume =>
      obtain rfl := Option.some.inj h
      exact ⟨valid, .refl w, resumeIncompleteSweeps_quiet w valid⟩
    | recovery passes =>
      simp only [sweepSystem] at h
      split at h
      · cases h
      · obtain rfl := Option.some.inj h
        have hv : SweepValid { w with recoveryRunning := true } :=
          SweepValid.frame valid rfl (List.Subset.refl _)
        exact ⟨hv, .frame rfl, runRecoveryLoop_quiet passes _ hv⟩
  leave valid := ⟨SweepValid.frame valid rfl (List.Subset.refl _), .frame rfl⟩
  restart valid := SweepValid.frame valid rfl (List.nil_subset _)
  cancelled _ := trivial

end Privana
