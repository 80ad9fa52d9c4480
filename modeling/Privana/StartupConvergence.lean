import Privana.StartupSync
import Privana.SweepSolvency
import Privana.SoloRun

/-! A start whose calls are answered comes to serve, and brings the contract in line on the way. One
that finds it in line sends the encryption key only. -/

namespace Privana
open BigEndian CheckedArithmetic Coroutine StartupOp

variable {P : Platform} {keys : RoflKeys} {d : Deployment} {m : Msg} {w v : StartupWorld}

/-- Settings that can be brought about: the numbers fit, and no price is zero. -/
structure StartupSettings.Settable (settings : StartupSettings) : Prop where
  tokens : ∀ entry ∈ settings.tokenInfos, 0 ≤ entry.1 ∧ entry.1 < 2 ^ 256
  prices : ∀ entry ∈ settings.gasPricesWei, (0 ≤ entry.1 ∧ entry.1 < 2 ^ 256) ∧
    0 < entry.2 ∧ entry.2 < 2 ^ 256

section Prompt
variable (P keys m)

/-- A submission is executed at once. -/
def thenExecuted (w v : StartupWorld) : StartupOp → Option StartupWorld
  | .submit _ => startupMove P v (.execute w.submissions.length m)
  | _ => some v

/-- Every call is answered, by a node that is not behind. -/
def promptly (op : StartupOp) (w : StartupWorld) :
    Option (Except StartupError op.Reply × StartupWorld) := do
  let (r, v) ← startupPerform P keys op (.node 0) w
  let u ← thenExecuted P m w v op
  some (r, u)

end Prompt

/-- What a start keeps while it is under way. -/
structure UnderWay (P : Platform) (keys : RoflKeys) (d : Deployment) (w v : StartupWorld) :
    Prop where
  valid : StartupValid P keys d v
  grows : StartupGrows keys d w v
  givenUp : v.givenUp = w.givenUp
  served : v.served = w.served

theorem UnderWay.refl (valid : StartupValid P keys d w) : UnderWay P keys d w w :=
  ⟨valid, .refl w, rfl, rfl⟩

theorem UnderWay.trans {u : StartupWorld} (h : UnderWay P keys d w v) (h' : UnderWay P keys d v u) :
    UnderWay P keys d w u :=
  ⟨h'.valid, h.grows.trans h'.grows, h'.givenUp.trans h.givenUp, h'.served.trans h.served⟩

theorem read_promptly {op : StartupOp} {reply : op.Reply} (quiet : startupWrites w op = none)
    (submits : ∀ v, thenExecuted P m w v op = some v)
    (read : startupReads P keys w.contract op = some reply) :
    promptly P keys m op w = some (.ok reply, w) := by
  have node : (w.contract :: w.past)[0]? = some w.contract := rfl
  simp only [promptly, startupPerform, quiet, node, Option.bind_eq_bind, Option.bind_some, read,
    submits]

/-- A submission that cannot revert. -/
def Submission.Executable : Submission → Prop
  | .setRoflSignerAddress newSigner => newSigner ≠ 0
  | .setGasPrice _ gasPrice => gasPrice ≠ 0
  | _ => True

theorem executeSubmission_succeeds (P : Platform) (m : Msg) (w : StartupWorld) {x : Submission}
    (executable : x.Executable) : ∃ v, executeSubmission P m w x = some v := by
  have rofl : onlyROFL { m with roflOrigin := true } = .ok () := onlyROFL_eq_ok.mpr rfl
  cases x with
  | setAuthTokenEncKey newKey => exact ⟨_, rfl⟩
  | setTokenInfo info => exact ⟨_, rfl⟩
  | setRoflSignerAddress newSigner =>
    have accepted : revertIf (newSigner = 0) Error.InvalidAddress = .ok () := if_neg executable
    simp only [executeSubmission, executeSubmission.call, execute, setRoflSignerAddress, rofl,
      accepted]
    exact ⟨_, rfl⟩
  | setGasPrice chainId gasPrice =>
    have accepted : revertIf (gasPrice = 0) Error.InvalidGasPrice = .ok () := if_neg executable
    simp only [executeSubmission, executeSubmission.call, execute, setGasPrice, rofl, accepted]
    exact ⟨_, rfl⟩

theorem StartupValid.fresh (valid : StartupValid P keys d w) :
    w.submissions.length ∉ w.executed ++ w.reverted := by
  intro mem
  rcases List.mem_append.mp mem with mem | mem
  · obtain ⟨x, sent, -⟩ := valid.executed _ mem
    simp at sent
  · exact absurd (valid.reverted _ mem) (lt_irrefl _)

theorem submit_promptly (valid : StartupValid P keys d w) {x : Submission}
    (proper : x.Proper keys d) (version : requiredAccountingVersion ≤ w.version)
    (executable : x.Executable) :
    ∃ v, promptly P keys m (.submit x) w = some (.ok w.submissions.length, v) ∧
      UnderWay P keys d w v ∧ v.submissions = w.submissions ++ [x] ∧
      w.submissions.length ∈ v.executed ∧ x.Done P v := by
  set sent : StartupWorld := { w with submissions := w.submissions ++ [x] } with hsent
  have written : startupWrites w (.submit x) = some (.ok w.submissions.length, sent) := rfl
  obtain ⟨validSent, growsSent, -⟩ :=
    startupWrites_keeps valid (show startupPre P keys d (.submit x) w from ⟨proper, version⟩) written
  obtain ⟨v, executed⟩ := executeSubmission_succeeds P m sent executable
  have stands : sent.submissions[w.submissions.length]? = some x := List.getElem?_concat_length
  have moved : startupMove P sent (.execute w.submissions.length m) =
      some { v with executed := w.submissions.length :: v.executed } := by
    have fresh : w.submissions.length ∉ sent.executed ++ sent.reverted := valid.fresh
    simp only [startupMove, stands, if_neg fresh, executed]
  obtain ⟨validMoved, growsMoved⟩ :=
    startupMove_keeps validSent (e := .execute w.submissions.length m) trivial moved
  obtain ⟨-, growsDone, done⟩ := executeSubmission_keeps validSent proper executed
  obtain ⟨accounting, authTokenEncKey, past, rfl⟩ := executeSubmission_frame executed
  refine ⟨_, ?_, ⟨validMoved, growsSent.trans growsMoved, rfl, rfl⟩, rfl, List.mem_cons_self, ?_⟩
  · simp only [promptly, startupPerform, written, thenExecuted, Option.bind_eq_bind,
      Option.bind_some, moved]
  · cases x <;> exact done

theorem roflSubmitTx_promptly (valid : StartupValid P keys d w) {x : Submission}
    (proper : x.Proper keys d) (version : requiredAccountingVersion ≤ w.version)
    (executable : x.Executable) :
    (roflSubmitTx x).Succeeds (promptly P keys m) w fun _ v =>
      UnderWay P keys d w v ∧ v.submissions = w.submissions ++ [x] ∧ x.Done P v := by
  obtain ⟨v, sent, underWay, submissions, executed, done⟩ :=
    submit_promptly (m := m) valid proper version executable
  refine .bind (R := fun ticket u => ticket = w.submissions.length ∧ u = v)
    (.await sent ⟨rfl, rfl⟩) fun ticket u same => ?_
  obtain ⟨rfl, rfl⟩ := same
  have replied : promptly P keys m (.submitReply w.submissions.length) u = some (.ok (), u) := by
    simp only [promptly, startupPerform, startupWrites, if_pos executed, thenExecuted,
      Option.bind_eq_bind, Option.bind_some]
  exact .await replied ⟨underWay, submissions, done⟩

theorem uint256_promptly {x : ℤ} (range : 0 ≤ x ∧ x < 2 ^ 256) :
    (uint256 x).Succeeds (promptly P keys m) w fun y v =>
      y = BitVec.ofInt 256 x ∧ (y.toNat : ℤ) = x ∧ v = w := by
  rw [uint256, if_pos range]
  refine .result ⟨rfl, ?_, rfl⟩
  rw [BitVec.toNat_ofInt, Int.toNat_of_nonneg (Int.emod_nonneg _ (by decide))]
  exact Int.emod_eq_of_lt range.1 range.2

/-- The first attempt that succeeds is the last. -/
theorem attempts_promptly {body giveUp : Startup Unit} {post : Unit → StartupWorld → Prop} (n : ℕ)
    (h : body.Succeeds (promptly P keys m) w post) :
    (attempts body giveUp (n + 1)).Succeeds (promptly P keys m) w post :=
  .except h

/-- One call that changes nothing. -/
theorem read_succeeds {op : StartupOp} {reply : op.Reply} (quiet : startupWrites w op = none)
    (submits : ∀ v, thenExecuted P m w v op = some v)
    (read : startupReads P keys w.contract op = some reply) :
    (Coroutine.await op : Startup op.Reply).Succeeds (promptly P keys m) w fun a v =>
      a = reply ∧ v = w :=
  .await (read_promptly quiet submits read) ⟨rfl, rfl⟩

theorem getTokenDataAndId_promptly {entry : ℤ × Option Address}
    (range : 0 ≤ entry.1 ∧ entry.1 < 2 ^ 256) :
    (getTokenDataAndId entry.1 entry.2).Succeeds (promptly P keys m) w fun r v =>
      (∃ chainId : U256, (chainId.toNat : ℤ) = entry.1 ∧ r.1 = tokenInfoAt chainId entry.2) ∧
        r.2 = getTokenId P r.1 ∧ v = w := by
  refine .bind (uint256_promptly range) fun chainId v chain => ?_
  obtain ⟨-, chain, rfl⟩ := chain
  refine .bind (read_succeeds rfl (fun _ => rfl) rfl) fun data u same => ?_
  obtain ⟨rfl, rfl⟩ := same
  refine .bind (read_succeeds rfl (fun _ => rfl) rfl) fun id t same => ?_
  obtain ⟨rfl, rfl⟩ := same
  refine .result ⟨⟨chainId, chain, ?_⟩, rfl, rfl⟩
  cases entry.2 <;> rfl

theorem registerToken_promptly (valid : StartupValid P keys d w)
    (version : requiredAccountingVersion ≤ w.version) {entry : ℤ × Option Address}
    (range : 0 ≤ entry.1 ∧ entry.1 < 2 ^ 256) :
    (registerToken entry).Succeeds (promptly P keys m) w fun _ v => UnderWay P keys d w v := by
  refine attempts_promptly 4 (.bind (getTokenDataAndId_promptly range) fun r v told => ?_)
  obtain ⟨⟨chainId, -, info⟩, -, rfl⟩ := told
  refine .bind (read_succeeds rfl (fun _ => rfl) rfl) fun stored u same => ?_
  obtain ⟨rfl, rfl⟩ := same
  split
  · exact .result (.refl valid)
  · exact (roflSubmitTx_promptly valid (x := .setTokenInfo r.1) ⟨chainId, entry.2, info⟩ version
      trivial).imp fun _ _ done => done.1

/-- A token that is registered is left alone. -/
theorem registerToken_published {entry : ℤ × Option Address}
    (range : 0 ≤ entry.1 ∧ entry.1 < 2 ^ 256) (published : TokenPublished P w.accounting entry) :
    (registerToken entry).Succeeds (promptly P keys m) w fun _ v => v = w := by
  obtain ⟨chainId', chain', registered⟩ := published
  refine attempts_promptly 4 (.bind (getTokenDataAndId_promptly range) fun r v told => ?_)
  obtain ⟨⟨chainId, chain, info⟩, hashed, rfl⟩ := told
  refine .bind (read_succeeds rfl (fun _ => rfl) rfl) fun stored u same => ?_
  obtain ⟨rfl, rfl⟩ := same
  have known : chainId = chainId' := BitVec.eq_of_toNat_eq (by omega)
  rw [hashed, info, known]
  split
  · exact .result rfl
  · next empty => exact absurd registered empty

theorem syncChainGasPrice_promptly (valid : StartupValid P keys d w)
    (version : requiredAccountingVersion ≤ w.version) {entry : ℤ × ℤ}
    (deployed : ∀ c p : U256, ((c.toNat : ℤ), (p.toNat : ℤ)) = entry → d.gasPriceWei c = some p)
    (chainRange : 0 ≤ entry.1 ∧ entry.1 < 2 ^ 256) (positive : 0 < entry.2)
    (fits : entry.2 < 2 ^ 256) :
    (syncChainGasPrice entry).Succeeds (promptly P keys m) w fun _ v => UnderWay P keys d w v := by
  refine attempts_promptly 4 (.bind (uint256_promptly chainRange) fun chainId v told => ?_)
  obtain ⟨-, chain, rfl⟩ := told
  refine .bind (read_succeeds rfl (fun _ => rfl) rfl) fun current u same => ?_
  obtain ⟨rfl, rfl⟩ := same
  split
  · exact .result (.refl valid)
  · refine .bind (uint256_promptly ⟨positive.le, fits⟩) fun desired t told => ?_
    obtain ⟨-, price, rfl⟩ := told
    have nonzero : desired ≠ 0 := by
      rintro rfl
      simp at price
      omega
    exact (roflSubmitTx_promptly valid (x := .setGasPrice chainId desired)
      (deployed chainId desired (Prod.ext chain price)) version nonzero).imp fun _ _ done => done.1

theorem syncChainGasPrice_published {entry : ℤ × ℤ}
    (published : PricePublished w.accounting entry) :
    (syncChainGasPrice entry).Succeeds (promptly P keys m) w fun _ v => v = w := by
  obtain ⟨chainId', chain', price⟩ := published
  have range : 0 ≤ entry.1 ∧ entry.1 < 2 ^ 256 := by
    have lt := chainId'.isLt
    omega
  refine attempts_promptly 4 (.bind (uint256_promptly range) fun chainId v told => ?_)
  obtain ⟨-, chain, rfl⟩ := told
  refine .bind (read_succeeds rfl (fun _ => rfl) rfl) fun current u same => ?_
  obtain ⟨rfl, rfl⟩ := same
  have known : chainId = chainId' := BitVec.eq_of_toNat_eq (by omega)
  rw [known]
  split
  · exact .result rfl
  · next differs => exact absurd price differs

/-- A loop whose every turn goes well. -/
theorem forEach_promptly {α : Type} {f : α → Startup Unit} {as : List α} {I : StartupWorld → Prop}
    (start : I w) (turn : ∀ a ∈ as, ∀ v, I v → (f a).Succeeds (promptly P keys m) v fun _ => I) :
    (forEach f as).Succeeds (promptly P keys m) w fun _ => I := by
  refine .bind (R := fun _ => I) ?_ fun _ _ kept => .result kept
  induction as generalizing w with
  | nil => exact .result start
  | cons a as ih =>
    refine .bind (turn a List.mem_cons_self w start) fun _ v kept => ?_
    exact .bind (ih kept fun b mem => turn b (List.mem_cons_of_mem _ mem)) fun _ _ kept =>
      .result kept

theorem initializeJwtKeys_promptly (settings : StartupSettings) :
    (initializeJwtKeys settings).Succeeds (promptly P keys m) w fun _ v => v = w := by
  unfold initializeJwtKeys
  split
  · exact .result rfl
  · exact .bind (read_succeeds rfl (fun _ => rfl) rfl) fun _ _ same => .result same.2

theorem initializeAuthTokenKey_promptly {settings : StartupSettings}
    (enabled : settings.roflKeysDisabled = false) :
    (initializeAuthTokenKey keys settings).Succeeds (promptly P keys m) w fun encKey v =>
      encKey = keys.authTokenKey settings.authTokenKeyId ∧ v = w := by
  rw [initializeAuthTokenKey, if_neg (by simp [enabled])]
  refine .bind (read_succeeds rfl (fun _ => rfl) rfl) fun seed _ same => ?_
  exact .result ⟨congrArg keys.deriveEncKey same.1, same.2⟩

theorem initializeOnrampIntentKeys_promptly (settings : StartupSettings) :
    (initializeOnrampIntentKeys settings).Succeeds (promptly P keys m) w fun _ v => v = w := by
  unfold initializeOnrampIntentKeys
  split
  · exact .result rfl
  · refine forEach_promptly (I := fun v => v = w) rfl fun keyId _ v same => ?_
    exact .bind (read_succeeds rfl (fun _ => rfl) rfl) fun _ _ same' =>
      .result (same'.2.trans same)

theorem syncKeyToContract_promptly (valid : StartupValid P keys d w)
    (version : requiredAccountingVersion ≤ w.version) {encKey : Bytes32}
    (derived : encKey = keys.authTokenKey d.authTokenKeyId) :
    (syncKeyToContract encKey).Succeeds (promptly P keys m) w fun _ v =>
      UnderWay P keys d w v ∧ v.submissions = w.submissions ++ [.setAuthTokenEncKey encKey] := by
  refine .bind (read_succeeds rfl (fun _ => rfl) rfl) fun _ v same => ?_
  obtain ⟨-, rfl⟩ := same
  exact (roflSubmitTx_promptly valid (x := .setAuthTokenEncKey encKey) derived version trivial).imp
    fun _ _ done => ⟨done.1, done.2.1⟩

theorem bootstrapRoflSignerAddress_promptly (valid : StartupValid P keys d w)
    (version : requiredAccountingVersion ≤ w.version) :
    (bootstrapRoflSignerAddress keys).Succeeds (promptly P keys m) w fun _ v =>
      UnderWay P keys d w v ∧ (w.accounting.roflSignerAddress = keys.querySigner → v = w) := by
  refine .bind (read_succeeds rfl (fun _ => rfl) rfl) fun key v same => ?_
  obtain ⟨rfl, rfl⟩ := same
  refine .bind (read_succeeds rfl (fun _ => rfl) rfl) fun current u same => ?_
  obtain ⟨rfl, rfl⟩ := same
  split
  · exact .result ⟨.refl valid, fun _ => rfl⟩
  · next differs =>
    exact (roflSubmitTx_promptly valid (x := .setRoflSignerAddress keys.querySigner) rfl version
      (keys.address_ne_zero _)).imp fun _ _ done => ⟨done.1, fun same => absurd same differs⟩

/-- From a valid world a start with settings that can be brought about comes to serve. -/
theorem bringInSync_promptly {settings : StartupSettings} (deployed : settings.Deployed d)
    (settable : settings.Settable) (valid : StartupValid P keys d w)
    (version : requiredAccountingVersion ≤ w.version) {encKey : Bytes32}
    (derived : encKey = keys.authTokenKey settings.authTokenKeyId) :
    (bringInSync keys settings encKey).Succeeds (promptly P keys m) w fun _ v =>
      UnderWay P keys d w v := by
  refine .bind (read_succeeds rfl (fun _ => rfl) rfl) fun deployedVersion v same => ?_
  obtain ⟨rfl, rfl⟩ := same
  split
  · next outdated => exact absurd version (not_le.mpr outdated)
  refine .bind (syncKeyToContract_promptly valid version (deployed.keyId ▸ derived))
    fun _ v₁ first => ?_
  refine .bind (bootstrapRoflSignerAddress_promptly first.1.valid
    (version.trans first.1.grows.version)) fun _ v₂ second => ?_
  have h₂ := first.1.trans second.1
  refine .bind (forEach_promptly (I := UnderWay P keys d v) h₂ fun entry mem u h =>
    (registerToken_promptly h.valid (version.trans h.grows.version)
      (settable.tokens entry mem)).imp fun _ _ next => h.trans next) fun _ v₃ h₃ => ?_
  refine forEach_promptly (I := UnderWay P keys d v) h₃ fun entry mem u h => ?_
  obtain ⟨range, positive, fits⟩ := settable.prices entry mem
  exact (syncChainGasPrice_promptly h.valid (version.trans h.grows.version)
    (fun c p same => deployed.prices c p (same ▸ mem)) range positive fits).imp
    fun _ _ next => h.trans next

/-- Where all is in line it sends the encryption key only. -/
theorem bringInSync_settled {settings : StartupSettings} (deployed : settings.Deployed d)
    (settable : settings.Settable) (valid : StartupValid P keys d w)
    (sync : InSync P keys settings [] w) {encKey : Bytes32}
    (derived : encKey = keys.authTokenKey settings.authTokenKeyId) :
    (bringInSync keys settings encKey).Succeeds (promptly P keys m) w fun _ v =>
      v.submissions = w.submissions ++ [.setAuthTokenEncKey encKey] := by
  refine .bind (read_succeeds rfl (fun _ => rfl) rfl) fun deployedVersion v same => ?_
  obtain ⟨rfl, rfl⟩ := same
  split
  · next outdated => exact absurd sync.version (not_le.mpr outdated)
  refine .bind (syncKeyToContract_promptly valid sync.version (deployed.keyId ▸ derived))
    fun _ v₁ first => ?_
  have sync₁ := first.1.grows.inSync deployed sync
  refine .bind (bootstrapRoflSignerAddress_promptly first.1.valid sync₁.version)
    fun _ v₂ second => ?_
  obtain rfl := second.2 sync₁.signer
  refine .bind (forEach_promptly (I := fun u => u = v₂) rfl fun entry mem u same => ?_)
    fun _ v₃ same => ?_
  · subst same
    exact registerToken_published (settable.tokens entry mem)
      ((sync₁.tokens entry mem).resolve_left List.not_mem_nil)
  · obtain rfl := same
    refine (forEach_promptly (I := fun u => u = v₃) rfl fun entry mem u same => ?_).imp
      fun _ u same => same ▸ first.2
    subst same
    exact syncChainGasPrice_published
      ((sync₁.prices entry mem).resolve_left List.not_mem_nil)

theorem lifespan_promptly {settings : StartupSettings} (deployed : settings.Deployed d)
    (settable : settings.Settable) (enabled : settings.roflKeysDisabled = false)
    (valid : StartupValid P keys d w) (version : requiredAccountingVersion ≤ w.version) :
    (lifespan keys settings).Succeeds (promptly P keys m) w fun _ v =>
      v.served = (settings, w.givenUp) :: w.served ∧ (InSync P keys settings [] w →
        v.submissions = w.submissions ++
          [.setAuthTokenEncKey (keys.authTokenKey settings.authTokenKeyId)]) := by
  refine .bind (read_succeeds rfl (fun _ => rfl) rfl) fun _ _ same => ?_
  obtain ⟨-, rfl⟩ := same
  refine .bind (initializeJwtKeys_promptly settings) fun _ _ same => ?_
  subst same
  refine .bind (initializeAuthTokenKey_promptly enabled) fun encKey _ told => ?_
  obtain ⟨derived, rfl⟩ := told
  refine .bind (initializeOnrampIntentKeys_promptly settings) fun _ v same => ?_
  subst same
  rw [if_neg (by simp [enabled])]
  have synced : (bringInSync keys settings encKey).Succeeds (promptly P keys m) v fun _ u =>
      UnderWay P keys d v u ∧ (InSync P keys settings [] v → u.submissions = v.submissions ++
        [.setAuthTokenEncKey encKey]) := by
    have converges := bringInSync_promptly (m := m) deployed settable valid version derived
    by_cases sync : InSync P keys settings [] v
    · exact (converges.and (bringInSync_settled deployed settable valid sync derived)).imp
        fun _ _ both => ⟨both.1, fun _ => both.2⟩
    · exact converges.imp fun _ _ one => ⟨one, fun sync' => absurd sync' sync⟩
  refine .bind synced fun _ t told => ?_
  refine .bind (read_succeeds rfl (fun _ => rfl) rfl) fun _ u same => ?_
  obtain ⟨-, rfl⟩ := same
  refine .await (v := { u with served := (settings, u.givenUp) :: u.served }) rfl ⟨?_, ?_⟩
  · show (settings, _) :: _ = _
    rw [told.1.givenUp, told.1.served]
  · rw [← derived]
    exact told.2

/-- What happens promptly happens in a run. -/
theorem promptly_run {op : StartupOp} {r : Except StartupError op.Reply} {i : ℕ}
    (h : promptly P keys m op w = some (r, v)) :
    ∃ c u ms, (startupSystem P keys d).perform i op c w = some (r, u) ∧
      (startupSystem P keys d).moves u ms = some v ∧ ∀ e ∈ ms, e.Foreign := by
  obtain ⟨⟨r', u⟩, performed, h⟩ := Option.bind_eq_some_iff.mp h
  obtain ⟨v', executed, h⟩ := Option.bind_eq_some_iff.mp h
  obtain ⟨rfl, rfl⟩ := Prod.mk.inj (Option.some.inj h)
  cases op with
  | submit x =>
    refine ⟨.node 0, u, [.execute w.submissions.length m], performed, ?_, ?_⟩
    · have moved : startupMove P u (.execute w.submissions.length m) = some v' := executed
      simp only [TaskSystem.moves, List.foldlM_cons, List.foldlM_nil, startupSystem, moved,
        Option.bind_eq_bind, Option.bind_some]
      rfl
    · intro e mem
      obtain rfl := List.mem_singleton.mp mem
      trivial
  | _ => exact ⟨.node 0, u, [], performed, executed, fun _ mem => (List.not_mem_nil mem).elim⟩

/-- The contract before the service, with whatever tokens were registered in either form. -/
def startupStart (P : Platform) (evm gasTank : Address × Bytes32) (txs : List Tx) (version : ℕ)
    (authTokenEncKey : Bytes32) : TaskPool StartupWorld StartupOp StartupOp.Reply StartupError :=
  ⟨{ accounting := (accounting P).run (accountingInit evm gasTank) txs, version,
     authTokenEncKey }, []⟩

theorem startupStart_holds {evm gasTank : Address × Bytes32} {txs : List Tx} {version : ℕ}
    {authTokenEncKey : Bytes32} (canonical : ∀ info ∈ infosOf txs, info.Canonical) :
    (startupDiscipline P keys d).Holds
      (startupStart P evm gasTank txs version authTokenEncKey) where
  valid := {
    past := fun _ mem => (List.not_mem_nil mem).elim
    sound := registrySound_run evm gasTank txs canonical
    listed := registryListed_run evm gasTank txs
    submissions := fun _ mem => (List.not_mem_nil mem).elim
    executed := fun _ mem => (List.not_mem_nil mem).elim
    reverted := fun _ mem => (List.not_mem_nil mem).elim
    served := fun _ mem => (List.not_mem_nil mem).elim }
  tasks _ mem := (List.not_mem_nil mem).elim

/-- The startup brings the contract in line. At every point of every run of starts, crashes, lost
replies, late executions and other transactions: the registry lists tokens in their encoded form;
the transactions of the startup are those of the deployment, sent to a recent implementation only;
for every process that has come to serve, the encryption key, the signer, the tokens and the prices
are and stay as it was configured, but for what its log gives up, and its signed queries are
accepted. And a process whose calls are answered comes to serve with nothing given up, and sends
nothing but the encryption key if all was in line. -/
theorem startup_in_sync (P : Platform) (keys : RoflKeys) (d : Deployment)
    (evm gasTank : Address × Bytes32) (txs : List Tx)
    (canonical : ∀ info ∈ infosOf txs, info.Canonical) (version : ℕ) (authTokenEncKey : Bytes32)
    (es : List (TaskEvent StartupAnswer StartupMove {s : StartupSettings // s.Deployed d}))
    (foreign : ∀ e, .move e ∈ es → e.Foreign) :
    let start := startupStart P evm gasTank txs version authTokenEncKey
    let w := ((startupSystem P keys d).machine.run start es).world
    (RegistrySound P w.accounting ∧ RegistryListed w.accounting) ∧
    (∀ x ∈ w.submissions, x.Proper keys d ∧ requiredAccountingVersion ≤ w.version) ∧
    (∀ e ∈ w.served, e.1.roflKeysDisabled = false → InSync P keys e.1 e.2 w ∧
      ∀ m : Msg, m.sender = keys.querySigner →
        onlyROFLQuery m w.accounting.toSignerState = .ok ()) ∧
    ∀ settings : {s : StartupSettings // s.Deployed d}, settings.1.Settable →
      settings.1.roflKeysDisabled = false → requiredAccountingVersion ≤ w.version →
      ∃ later, (∀ e, .move e ∈ later → e.Foreign) ∧
        let v := ((startupSystem P keys d).machine.run start
          (es ++ .restart :: .start settings :: later)).world
        v.served = (settings.1, []) :: w.served ∧ (InSync P keys settings.1 [] w →
          v.submissions = w.submissions ++
            [.setAuthTokenEncKey (keys.authTokenKey d.authTokenKeyId)]) := by
  intro start w
  have keeps := startupSystem_keeps P keys d
  have begins : (startupDiscipline P keys d).Holds start := startupStart_holds canonical
  have valid : StartupValid P keys d w := (keeps.run begins es foreign).valid
  refine ⟨⟨valid.sound, valid.listed⟩, valid.submissions, fun e mem enabled => ?_,
    fun settings settable enabled recent => ?_⟩
  · have sync := (valid.served e mem).2 enabled
    refine ⟨sync, fun m sender => onlyROFLQuery_eq_ok.mpr ⟨?_, ?_⟩⟩
    · rw [sync.signer]
      exact keys.address_ne_zero _
    · rw [sender, sync.signer]
  · set u : StartupWorld := { w with started := true, givenUp := [] } with hu
    have began : (startupSystem P keys d).machine.run start (es ++ [.restart, .start settings]) =
        ⟨u, [lifespan keys settings.1]⟩ := by
      rw [TransactionMachine.run_append]
      rfl
    have validBegan : StartupValid P keys d u := by
      have kept := keeps.run begins (es ++ [.restart, .start settings])
        fun e mem => foreign e (by simpa using mem)
      rw [began] at kept
      exact kept.valid
    obtain ⟨_, v, ran, served, sends⟩ :=
      lifespan_promptly (m := ⟨0, true, 0, 0⟩) settings.2 settable enabled validBegan recent
    obtain ⟨later, good, run⟩ := TaskSystem.exists_run_of_alone (i := 0)
      (S := startupSystem P keys d) promptly_run ran
      (show [lifespan keys settings.1][0]? = some (lifespan keys settings.1) from rfl)
    refine ⟨later, good, ?_⟩
    have whole : ((startupSystem P keys d).machine.run start
        (es ++ .restart :: .start settings :: later)).world = v := by
      rw [show es ++ .restart :: .start settings :: later =
        (es ++ [.restart, .start settings]) ++ later by simp, TransactionMachine.run_append, began,
        run]
    refine whole ▸ ⟨served, fun sync => ?_⟩
    rw [← settings.2.keyId]
    exact sends ⟨sync.version, sync.encKey, sync.signer, sync.tokens, sync.prices⟩

namespace SampleStartup

def daemon : RoflKeys where
  generateKey _ _ := 1
  deriveEncKey := id
  address _ := sampleUser
  address_ne_zero _ := by decide

def deployment : Deployment where
  authTokenKeyId := text "auth_token_enc_seed.key"
  gasPriceWei c := if c = 84532 then some 1000000000 else none

def settings : StartupSettings where
  roflKeysDisabled := false
  authTokenKeyId := text "auth_token_enc_seed.key"
  onrampIntentKeyIds := [text "onramp_intent.key"]
  tokenInfos := [(84532, none), (84532, some 0x036cbd53842c5426634e7929541ec2318f3dcf7e)]
  gasPricesWei := [(84532, 1000000000)]

theorem deployed : settings.Deployed deployment where
  keyId := rfl
  prices c p mem := by
    obtain ⟨chain, price⟩ := Prod.mk.inj (List.mem_singleton.mp mem)
    have chain : c = 84532 := BitVec.eq_of_toNat_eq (Int.ofNat.inj chain)
    have price : p = 1000000000 := BitVec.eq_of_toNat_eq (Int.ofNat.inj price)
    rw [chain, price]
    rfl

theorem settable : settings.Settable where
  tokens := by decide
  prices := by decide

def registers : List Tx := [⟨⟨sampleUser, true, 1, 1700000000⟩, .setTokenInfo sampleToken⟩]

/-- A first start on a fresh contract comes to serve, with all in line. -/
theorem startup_in_sync_sample : ∃ later,
    let w := ((startupSystem samplePlatform daemon deployment).machine.run
      (startupStart samplePlatform sampleEvm sampleGasTank registers 3 0)
      (.restart :: .start ⟨settings, deployed⟩ :: later)).world
    w.served = [(settings, [])] ∧ InSync samplePlatform daemon settings [] w := by
  have canonical : ∀ info ∈ infosOf registers, info.Canonical := by
    rintro info ⟨tx, mem, called⟩
    obtain rfl := List.mem_singleton.mp mem
    cases called
    exact ⟨84532, some 0x036cbd53842c5426634e7929541ec2318f3dcf7e, by decide⟩
  have nothing : ∀ e : StartupMove, .move e ∈ ([] : List (TaskEvent StartupAnswer StartupMove
      {s : StartupSettings // s.Deployed deployment})) → e.Foreign :=
    fun _ mem => (List.not_mem_nil mem).elim
  obtain ⟨-, -, -, starts⟩ := startup_in_sync samplePlatform daemon deployment sampleEvm
    sampleGasTank registers canonical 3 0 [] nothing
  obtain ⟨later, good, served, -⟩ := starts ⟨settings, deployed⟩ settable rfl le_rfl
  refine ⟨later, served, ?_⟩
  obtain ⟨-, -, line, -⟩ := startup_in_sync samplePlatform daemon deployment sampleEvm sampleGasTank
    registers canonical 3 0 (.restart :: .start ⟨settings, deployed⟩ :: later)
    fun e mem => good e (by simpa using mem)
  refine (line (settings, []) ?_ rfl).1
  exact List.mem_of_mem_head? (congrArg List.head? served)

end SampleStartup

end Privana
