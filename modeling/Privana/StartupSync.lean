import Privana.Startup

/-! What the startup brings in line stays so. The signer, the encryption key, the tokens and the gas
prices on the contract are set by starts of one deployment only, so that a value that was right once
is right from then on, whatever a lagging node says of it. -/

namespace Privana
open BigEndian Coroutine StartupOp

variable {P : Platform} {keys : RoflKeys} {d : Deployment} {w v u : StartupWorld}

/-- The address that signs the confidential queries. -/
def RoflKeys.querySigner (keys : RoflKeys) : Address :=
  keys.address (keys.generateKey roflQuerySignerKey .SECP256K1)

def RoflKeys.authTokenKey (keys : RoflKeys) (keyId : Text) : Bytes32 :=
  keys.deriveEncKey (keys.generateKey keyId .SECP256K1)

def Registered (s : State) (tokenId : Bytes32) : Prop := (s.tokens tokenId).data ≠ []

/-- Whatever is registered can be listed. -/
def RegistryListed (s : State) : Prop := ∀ t, Registered s t → t ∈ s.registeredTokenIds

def TokenPublished (P : Platform) (s : State) (entry : ℤ × Option Address) : Prop :=
  ∃ chainId : U256, (chainId.toNat : ℤ) = entry.1 ∧
    Registered s (getTokenId P (tokenInfoAt chainId entry.2))

def PricePublished (s : State) (entry : ℤ × ℤ) : Prop :=
  ∃ chainId : U256, (chainId.toNat : ℤ) = entry.1 ∧ ((s.gasPrices chainId).toNat : ℤ) = entry.2

/-- The contract is as the settings want it, but for what was given up. -/
structure InSync (P : Platform) (keys : RoflKeys) (settings : StartupSettings)
    (givenUp : List GivenUp) (w : StartupWorld) : Prop where
  version : requiredAccountingVersion ≤ w.version
  encKey : w.authTokenEncKey = keys.authTokenKey settings.authTokenKeyId
  signer : w.accounting.roflSignerAddress = keys.querySigner
  tokens : ∀ entry ∈ settings.tokenInfos,
    GivenUp.token entry ∈ givenUp ∨ TokenPublished P w.accounting entry
  prices : ∀ entry ∈ settings.gasPricesWei,
    GivenUp.gasPrice entry ∈ givenUp ∨ PricePublished w.accounting entry

/-- A transaction that a start of the deployment may send. -/
def Submission.Proper (keys : RoflKeys) (d : Deployment) : Submission → Prop
  | .setAuthTokenEncKey newKey => newKey = keys.authTokenKey d.authTokenKeyId
  | .setRoflSignerAddress newSigner => newSigner = keys.querySigner
  | .setTokenInfo info => info.Canonical
  | .setGasPrice chainId gasPrice => d.gasPriceWei chainId = some gasPrice

def Submission.Done (P : Platform) (w : StartupWorld) : Submission → Prop
  | .setAuthTokenEncKey newKey => w.authTokenEncKey = newKey
  | .setRoflSignerAddress newSigner => w.accounting.roflSignerAddress = newSigner
  | .setTokenInfo info => Registered w.accounting (getTokenId P info)
  | .setGasPrice chainId gasPrice => w.accounting.gasPrices chainId = gasPrice

/-- What was right in `s` is right in `s'`. -/
structure StaysSet (keys : RoflKeys) (d : Deployment) (s s' : State) : Prop where
  signer : s.roflSignerAddress = keys.querySigner → s'.roflSignerAddress = keys.querySigner
  prices : ∀ c p, d.gasPriceWei c = some p → s.gasPrices c = p → s'.gasPrices c = p
  registered : ∀ t, Registered s t → Registered s' t

structure StartupValid (P : Platform) (keys : RoflKeys) (d : Deployment) (w : StartupWorld) :
    Prop where
  past : ∀ c ∈ w.past, StaysSet keys d c.1 w.accounting ∧ c.2 ≤ w.version
  sound : RegistrySound P w.accounting
  listed : RegistryListed w.accounting
  submissions : ∀ x ∈ w.submissions, x.Proper keys d ∧ requiredAccountingVersion ≤ w.version
  executed : ∀ t ∈ w.executed, ∃ x, w.submissions[t]? = some x ∧ x.Done P w
  reverted : ∀ t ∈ w.reverted, t < w.submissions.length
  served : ∀ e ∈ w.served, e.1.Deployed d ∧
    (e.1.roflKeysDisabled = false → InSync P keys e.1 e.2 w)

structure StartupGrows (keys : RoflKeys) (d : Deployment) (w v : StartupWorld) : Prop where
  stays : StaysSet keys d w.accounting v.accounting
  encKey : w.authTokenEncKey = keys.authTokenKey d.authTokenKeyId →
    v.authTokenEncKey = keys.authTokenKey d.authTokenKeyId
  version : w.version ≤ v.version
  submissions : w.submissions <+: v.submissions
  givenUp : w.givenUp ⊆ v.givenUp

namespace StaysSet

variable {s s' s'' : State}

theorem refl (s : State) : StaysSet keys d s s := ⟨id, fun _ _ _ => id, fun _ => id⟩

theorem trans (h : StaysSet keys d s s') (h' : StaysSet keys d s' s'') : StaysSet keys d s s'' where
  signer hs := h'.signer (h.signer hs)
  prices c p hp hs := h'.prices c p hp (h.prices c p hp hs)
  registered t ht := h'.registered t (h.registered t ht)

theorem tokenPublished (h : StaysSet keys d s s') {entry : ℤ × Option Address}
    (published : TokenPublished P s entry) : TokenPublished P s' entry := by
  obtain ⟨chainId, same, registered⟩ := published
  exact ⟨chainId, same, h.registered _ registered⟩

theorem pricePublished (h : StaysSet keys d s s') {entry : ℤ × ℤ}
    (deployed : ∀ c p : U256, ((c.toNat : ℤ), (p.toNat : ℤ)) = entry → d.gasPriceWei c = some p)
    (published : PricePublished s entry) : PricePublished s' entry := by
  obtain ⟨chainId, chain, price⟩ := published
  refine ⟨chainId, chain, ?_⟩
  rw [h.prices chainId (s.gasPrices chainId) (deployed _ _ (Prod.ext chain price)) rfl, price]

end StaysSet

namespace StartupGrows

theorem refl (w : StartupWorld) : StartupGrows keys d w w :=
  ⟨.refl _, id, le_rfl, List.prefix_rfl, List.Subset.refl _⟩

theorem trans (h : StartupGrows keys d w v) (h' : StartupGrows keys d v u) :
    StartupGrows keys d w u :=
  ⟨h.stays.trans h'.stays, fun hk => h'.encKey (h.encKey hk), h.version.trans h'.version,
    h.submissions.trans h'.submissions, List.Subset.trans h.givenUp h'.givenUp⟩

theorem done (g : StartupGrows keys d w v) {x : Submission} (proper : x.Proper keys d)
    (h : x.Done P w) : x.Done P v := by
  cases x with
  | setAuthTokenEncKey newKey =>
    obtain rfl := proper
    exact g.encKey h
  | setRoflSignerAddress newSigner =>
    obtain rfl := proper
    exact g.stays.signer h
  | setTokenInfo info => exact g.stays.registered _ h
  | setGasPrice chainId gasPrice => exact g.stays.prices _ _ proper h

theorem inSync (g : StartupGrows keys d w v) {settings : StartupSettings} {givenUp : List GivenUp}
    (deployed : settings.Deployed d)
    (h : InSync P keys settings givenUp w) : InSync P keys settings givenUp v where
  version := h.version.trans g.version
  encKey := by
    rw [deployed.keyId]
    exact g.encKey (deployed.keyId ▸ h.encKey)
  signer := g.stays.signer h.signer
  tokens entry mem := (h.tokens entry mem).imp_right g.stays.tokenPublished
  prices entry mem := (h.prices entry mem).imp_right
    (g.stays.pricePublished fun c p same => deployed.prices c p (same ▸ mem))

end StartupGrows

def startupPre (P : Platform) (keys : RoflKeys) (d : Deployment) :
    StartupOp → StartupWorld → Prop
  | .submit x, w => x.Proper keys d ∧ requiredAccountingVersion ≤ w.version
  | .serve settings, w =>
    settings.Deployed d ∧
      (settings.roflKeysDisabled = false → InSync P keys settings w.givenUp w)
  | _, _ => True

def startupTold (P : Platform) (keys : RoflKeys) (d : Deployment) :
    (op : StartupOp) → op.Reply → StartupWorld → Prop
  | .generateKey keyId kind, key, _ => key = keys.generateKey keyId kind
  | .accountingVersion, version, w => version ≤ w.version
  | .roflSignerAddress, signer, w =>
    signer = keys.querySigner → w.accounting.roflSignerAddress = keys.querySigner
  | .encodedTokenData chainId tokenAddress, data, _ =>
    data = (tokenInfoAt chainId tokenAddress).data
  | .tokenId info, id, _ => id = getTokenId P info
  | .tokens id, info, w => info.data ≠ [] → Registered w.accounting id
  | .gasPrices chainId, price, w =>
    d.gasPriceWei chainId = some price → w.accounting.gasPrices chainId = price
  | .submit x, ticket, w => w.submissions[ticket]? = some x
  | .submitReply ticket, _, w => ticket ∈ w.executed
  | .logGivenUp entry, _, w => entry ∈ w.givenUp
  | _, _, _ => True

def startupDiscipline (P : Platform) (keys : RoflKeys) (d : Deployment) :
    Discipline StartupWorld StartupOp StartupOp.Reply where
  valid := StartupValid P keys d
  grows := StartupGrows keys d
  pre := startupPre P keys d
  told := startupTold P keys d
  refl := .refl
  trans := .trans

section Transactions

/-- A transaction of the app that only the startup makes. -/
def Call.isStartup : Call → Bool
  | .setGasPrice .. | .setRoflSignerAddress _ | .setTokenInfo _ => true
  | _ => false

variable {m : Msg} {s s' : State} {o : Output P}

/-- What a call does to the settings of the contract. -/
theorem Step.settings {call : Call} (step : Step P m call s s' o) :
    (s'.roflSignerAddress = s.roflSignerAddress ∧ s'.gasPrices = s.gasPrices ∧
      s'.tokens = s.tokens ∧ s'.registeredTokenIds = s.registeredTokenIds) ∨
    call.isStartup = true ∧ m.roflOrigin = true := by
  cases step with
  | setGasPrice rofl => exact .inr ⟨rfl, rofl⟩
  | setRoflSignerAddress rofl => exact .inr ⟨rfl, rofl⟩
  | setTokenInfo rofl => exact .inr ⟨rfl, rofl⟩
  | unlockSingleLock _ unlock =>
    obtain ⟨_, _, _, _, rfl⟩ := unlock.moved
    exact .inl ⟨rfl, rfl, rfl, rfl⟩
  | unlockAllExpiredLocks unlocks =>
    obtain ⟨_, _, _, rfl⟩ := unlocks.frame
    exact .inl ⟨rfl, rfl, rfl, rfl⟩
  | withdrawFromLock _ _ _ _ _ _ _ _ _ _ schedules =>
    obtain ⟨_, -, rfl⟩ := schedules.queued
    exact .inl ⟨rfl, rfl, rfl, rfl⟩
  | requestWithdrawal _ _ _ _ _ schedules =>
    obtain ⟨_, -, rfl⟩ := schedules.queued
    exact .inl ⟨rfl, rfl, rfl, rfl⟩
  | transferFromLock => split_ifs <;> exact .inl ⟨rfl, rfl, rfl, rfl⟩
  | transferBalance => split_ifs <;> exact .inl ⟨rfl, rfl, rfl, rfl⟩
  | _ => exact .inl ⟨rfl, rfl, rfl, rfl⟩

/-- What the startup changes on the contract. -/
structure StartupCommit (P : Platform) (keys : RoflKeys) (d : Deployment) (s s' : State) :
    Prop where
  stays : StaysSet keys d s s'
  sound : RegistrySound P s → RegistrySound P s'
  listed : RegistryListed s → RegistryListed s'

theorem StartupCommit.of_settings (signer : s'.roflSignerAddress = s.roflSignerAddress)
    (prices : s'.gasPrices = s.gasPrices) (tokens : s'.tokens = s.tokens)
    (ids : s'.registeredTokenIds = s.registeredTokenIds) : StartupCommit P keys d s s' where
  stays := by
    refine ⟨fun h => signer.trans h, fun c p _ h => ?_, fun t h => ?_⟩
    · rw [prices]
      exact h
    · rw [Registered, tokens]
      exact h
  sound h := by
    rw [RegistrySound, tokens, ids]
    exact h
  listed h t ht := by
    rw [Registered, tokens] at ht
    rw [ids]
    exact h t ht

theorem startupCommit_transact {tx : Tx} (step : Step P tx.msg tx.call s s' o)
    (foreign : ¬ (tx.call.isStartup = true ∧ tx.msg.roflOrigin = true)) :
    StartupCommit P keys d s s' := by
  obtain ⟨signer, prices, tokens, ids⟩ := step.settings.resolve_right foreign
  exact .of_settings signer prices tokens ids

theorem startupCommit_setRoflSignerAddress
    (step : Step P m (.setRoflSignerAddress keys.querySigner) s s' o) :
    StartupCommit P keys d s s' ∧ s'.roflSignerAddress = keys.querySigner := by
  cases step with
  | setRoflSignerAddress => exact ⟨⟨⟨fun _ => rfl, fun _ _ _ => id, fun _ => id⟩, id, id⟩, rfl⟩

theorem startupCommit_setGasPrice {c p : U256} (deployed : d.gasPriceWei c = some p)
    (step : Step P m (.setGasPrice c p) s s' o) :
    StartupCommit P keys d s s' ∧ s'.gasPrices c = p := by
  cases step with
  | setGasPrice =>
    refine ⟨⟨⟨id, fun c' p' deployed' h => ?_, fun _ => id⟩, id, id⟩, Function.update_self ..⟩
    by_cases same : c' = c
    · subst same
      rw [deployed] at deployed'
      exact (Function.update_self ..).trans (Option.some.inj deployed')
    · exact (Function.update_of_ne same ..).trans h

theorem RegistryListed.setTokenInfo (h : RegistryListed s) {info : TokenInfo}
    (step : Step P m (.setTokenInfo info) s s' o) : RegistryListed s' := by
  cases step with
  | @setTokenInfo _ _ ids _ registered =>
    intro t ht
    show t ∈ ids
    subst registered
    by_cases same : t = getTokenId P info
    · subst same
      split
      · next found => exact found
      · exact List.mem_append_right _ (List.mem_singleton_self _)
    · have old : t ∈ s.registeredTokenIds := h t <| by
        have new : (Function.update s.tokens _ info t).data ≠ [] := ht
        rwa [Function.update_of_ne same] at new
      split
      · exact old
      · exact List.mem_append_left _ old

theorem RegistryListed.step (h : RegistryListed s) {call : Call}
    (step : Step P m call s s' o) : RegistryListed s' := by
  rcases step.registry with ⟨tokens, ids⟩ | ⟨info, rfl, -⟩
  · intro t ht
    rw [Registered, tokens] at ht
    rw [ids]
    exact h t ht
  · exact h.setTokenInfo step

theorem registryListed_run (evm gasTank : Address × Bytes32) (txs : List Tx) :
    RegistryListed ((accounting P).run (accountingInit evm gasTank) txs) :=
  (accounting P).run_invariant (I := RegistryListed) (fun _ ht => (ht rfl).elim)
    (fun _ _ _ _ listed executed => listed.step (execute_step executed)) txs

theorem startupCommit_setTokenInfo {info : TokenInfo} (canonical : info.Canonical)
    (step : Step P m (.setTokenInfo info) s s' o) :
    StartupCommit P keys d s s' ∧ Registered s' (getTokenId P info) := by
  have sound (h : RegistrySound P s) : RegistrySound P s' := h.step step fun _ called => by
    cases called
    exact canonical
  have listed (h : RegistryListed s) : RegistryListed s' := h.setTokenInfo step
  cases step with
  | @setTokenInfo _ _ ids _ registered =>
    have filled : Registered { s with
        registeredTokenIds := ids
        tokens := Function.update s.tokens (getTokenId P info) info } (getTokenId P info) := by
      show (Function.update s.tokens _ info _).data ≠ []
      rw [Function.update_self]
      exact canonical.data_ne_nil
    refine ⟨⟨⟨id, fun _ _ _ => id, fun t ht => ?_⟩, sound, listed⟩, filled⟩
    by_cases same : t = getTokenId P info
    · exact same ▸ filled
    · show (Function.update s.tokens _ info t).data ≠ []
      rw [Function.update_of_ne same]
      exact ht

end Transactions

section World
theorem StartupGrows.ticket (g : StartupGrows keys d w v) {t : ℕ} {x : Submission}
    (h : w.submissions[t]? = some x) : v.submissions[t]? = some x := by
  obtain ⟨later, same⟩ := g.submissions
  have lt : t < w.submissions.length := (List.getElem?_eq_some_iff.mp h).1
  rw [← same, List.getElem?_append_left lt, h]

/-- A valid world stays so, if what is new in it is. -/
theorem StartupValid.grown (h : StartupValid P keys d w) (g : StartupGrows keys d w v)
    (past : ∀ c ∈ v.past, StaysSet keys d c.1 v.accounting ∧ c.2 ≤ v.version)
    (sound : RegistrySound P v.accounting) (listed : RegistryListed v.accounting)
    (submissions : ∀ x ∈ v.submissions, x ∈ w.submissions ∨
      x.Proper keys d ∧ requiredAccountingVersion ≤ v.version)
    (executed : ∀ t ∈ v.executed, t ∈ w.executed ∨ ∃ x, v.submissions[t]? = some x ∧ x.Done P v)
    (reverted : ∀ t ∈ v.reverted, t ∈ w.reverted ∨ t < v.submissions.length)
    (served : ∀ e ∈ v.served, e ∈ w.served ∨
      e.1.Deployed d ∧ (e.1.roflKeysDisabled = false → InSync P keys e.1 e.2 v)) :
    StartupValid P keys d v where
  past := past
  sound := sound
  listed := listed
  submissions x mem := (submissions x mem).elim
    (fun old => ⟨(h.submissions x old).1, (h.submissions x old).2.trans g.version⟩) id
  executed t mem := (executed t mem).elim (fun old => by
    obtain ⟨x, sent, done⟩ := h.executed t old
    exact ⟨x, g.ticket sent, g.done (h.submissions x (List.mem_of_getElem? sent)).1 done⟩) id
  reverted t mem := (reverted t mem).elim
    (fun old => (h.reverted t old).trans_le g.submissions.length_le) id
  served e mem := (served e mem).elim (fun old => by
    obtain ⟨deployed, sync⟩ := h.served e old
    exact ⟨deployed, fun enabled => g.inSync deployed (sync enabled)⟩) id

theorem startupGrows_commit {s : State} (commit : StartupCommit P keys d w.accounting s) :
    StartupGrows keys d w (w.commit s) :=
  ⟨commit.stays, id, le_rfl, List.prefix_rfl, List.Subset.refl _⟩

theorem StartupValid.commit (h : StartupValid P keys d w) {s : State}
    (commit : StartupCommit P keys d w.accounting s) : StartupValid P keys d (w.commit s) := by
  refine h.grown (startupGrows_commit commit) (fun c mem => ?_) (commit.sound h.sound)
    (commit.listed h.listed) (fun _ => .inl) (fun _ => .inl) (fun _ => .inl) fun _ => .inl
  rcases List.mem_cons.mp mem with rfl | mem
  · exact ⟨commit.stays, le_rfl⟩
  · exact ⟨(h.past c mem).1.trans commit.stays, (h.past c mem).2⟩

/-- Of a submission that does not revert. -/
theorem executeSubmission_frame {m : Msg} {x : Submission}
    (executed : executeSubmission P m w x = some v) :
    ∃ accounting authTokenEncKey past, v = { w with accounting, authTokenEncKey, past } := by
  have called {c : Call} (called : executeSubmission.call P m w c = some v) :
      ∃ accounting authTokenEncKey past, v = { w with accounting, authTokenEncKey, past } := by
    unfold executeSubmission.call at called
    split at called
    · exact ⟨_, _, _, (Option.some.inj called).symm⟩
    · cases called
  cases x with
  | setAuthTokenEncKey newKey => exact ⟨_, _, _, (Option.some.inj executed).symm⟩
  | setRoflSignerAddress newSigner => exact @called (.setRoflSignerAddress newSigner) executed
  | setTokenInfo info => exact @called (.setTokenInfo info) executed
  | setGasPrice chainId gasPrice => exact @called (.setGasPrice chainId gasPrice) executed

/-- What an executed submission was for is so. -/
theorem executeSubmission_keeps (h : StartupValid P keys d w) {m : Msg} {x : Submission}
    (proper : x.Proper keys d) (executed : executeSubmission P m w x = some v) :
    StartupValid P keys d v ∧ StartupGrows keys d w v ∧ x.Done P v := by
  have committed {c : Call} (called : executeSubmission.call P m w c = some v) :
      ∃ s o, Step P { m with roflOrigin := true } c w.accounting s o ∧ v = w.commit s := by
    unfold executeSubmission.call at called
    split at called
    · next s o ran => exact ⟨s, o, execute_step ran, (Option.some.inj called).symm⟩
    · cases called
  cases x with
  | setAuthTokenEncKey newKey =>
    obtain rfl := proper
    obtain rfl := Option.some.inj executed
    have g : StartupGrows keys d w
        { w with authTokenEncKey := keys.authTokenKey d.authTokenKeyId } :=
      ⟨.refl _, fun _ => rfl, le_rfl, List.prefix_rfl, List.Subset.refl _⟩
    exact ⟨h.grown g h.past h.sound h.listed (fun _ => .inl) (fun _ => .inl) (fun _ => .inl)
      fun _ => .inl, g, rfl⟩
  | setRoflSignerAddress newSigner =>
    obtain rfl := proper
    obtain ⟨s, o, step, rfl⟩ := @committed (.setRoflSignerAddress keys.querySigner) executed
    obtain ⟨commit, done⟩ := startupCommit_setRoflSignerAddress step
    exact ⟨h.commit commit, startupGrows_commit commit, done⟩
  | setTokenInfo info =>
    obtain ⟨s, o, step, rfl⟩ := @committed (.setTokenInfo info) executed
    obtain ⟨commit, done⟩ := startupCommit_setTokenInfo proper step
    exact ⟨h.commit commit, startupGrows_commit commit, done⟩
  | setGasPrice chainId gasPrice =>
    obtain ⟨s, o, step, rfl⟩ := @committed (.setGasPrice chainId gasPrice) executed
    obtain ⟨commit, done⟩ := startupCommit_setGasPrice proper step
    exact ⟨h.commit commit, startupGrows_commit commit, done⟩

/-- Only the startup makes the transactions of the startup. -/
def StartupMove.Foreign : StartupMove → Prop
  | .transact tx => ¬ (tx.call.isStartup = true ∧ tx.msg.roflOrigin = true)
  | _ => True

theorem startupMove_keeps (h : StartupValid P keys d w) {e : StartupMove} (foreign : e.Foreign)
    (moved : startupMove P w e = some v) :
    StartupValid P keys d v ∧ StartupGrows keys d w v := by
  cases e with
  | execute ticket m =>
    simp only [startupMove] at moved
    split at moved
    · cases moved
    · next x sent =>
      have proper := (h.submissions x (List.mem_of_getElem? sent)).1
      split at moved
      · cases moved
      · split at moved
        · next u executed =>
          obtain rfl := Option.some.inj moved
          obtain ⟨valid, grows, done⟩ := executeSubmission_keeps h proper executed
          have g : StartupGrows keys d u { u with executed := ticket :: u.executed } :=
            ⟨.refl _, id, le_rfl, List.prefix_rfl, List.Subset.refl _⟩
          refine ⟨valid.grown g valid.past valid.sound valid.listed (fun _ => .inl)
            (fun t mem => ?_) (fun _ => .inl) fun _ => .inl, grows.trans g⟩
          rcases List.mem_cons.mp mem with rfl | mem
          · exact .inr ⟨x, (grows.trans g).ticket sent, g.done proper done⟩
          · exact .inl mem
        · obtain rfl := Option.some.inj moved
          have g : StartupGrows keys d w { w with reverted := ticket :: w.reverted } :=
            ⟨.refl _, id, le_rfl, List.prefix_rfl, List.Subset.refl _⟩
          refine ⟨h.grown g h.past h.sound h.listed (fun _ => .inl) (fun _ => .inl)
            (fun t mem => ?_) fun _ => .inl, g⟩
          rcases List.mem_cons.mp mem with rfl | mem
          · exact .inr (List.getElem?_eq_some_iff.mp sent).1
          · exact .inl mem
  | transact tx =>
    simp only [startupMove] at moved
    split at moved
    · next s o ran =>
      obtain rfl := Option.some.inj moved
      have commit : StartupCommit P keys d w.accounting s :=
        startupCommit_transact (execute_step ran) foreign
      exact ⟨h.commit commit, startupGrows_commit commit⟩
    · cases moved
  | upgrade version =>
    simp only [startupMove] at moved
    split at moved
    · next later =>
      obtain rfl := Option.some.inj moved
      have g : StartupGrows keys d w { w.commit w.accounting with version } :=
        ⟨.refl _, id, later, List.prefix_rfl, List.Subset.refl _⟩
      refine ⟨h.grown g (fun c mem => ?_) h.sound h.listed (fun _ => .inl) (fun _ => .inl)
        (fun _ => .inl) fun _ => .inl, g⟩
      rcases List.mem_cons.mp mem with rfl | mem
      · exact ⟨.refl _, later⟩
      · exact ⟨(h.past c mem).1, (h.past c mem).2.trans later⟩
    · cases moved

/-- What a node answers, however far behind, is told truly. -/
theorem startupReads_told (h : StartupValid P keys d w) {lag : ℕ} {c : State × ℕ}
    (node : (w.contract :: w.past)[lag]? = some c) {op : StartupOp} {reply : op.Reply}
    (read : startupReads P keys c op = some reply) : startupTold P keys d op reply w := by
  have known : StaysSet keys d c.1 w.accounting ∧ c.2 ≤ w.version := by
    rcases List.mem_cons.mp (List.mem_of_getElem? node) with rfl | old
    · exact ⟨.refl _, le_rfl⟩
    · exact h.past c old
  cases op with
  | generateKey keyId kind => exact (Option.some.inj read).symm
  | accountingVersion =>
    obtain rfl := Option.some.inj read
    exact known.2
  | roflSignerAddress =>
    obtain rfl := Option.some.inj read
    exact known.1.signer
  | encodedTokenData chainId tokenAddress => exact (Option.some.inj read).symm
  | tokenId info => exact (Option.some.inj read).symm
  | tokens id =>
    obtain rfl := Option.some.inj read
    exact known.1.registered id
  | gasPrices chainId =>
    obtain rfl := Option.some.inj read
    exact fun deployed => known.1.prices chainId _ deployed rfl
  | submit | submitReply | logGivenUp | serve => cases read
  | verifyChainRpcUrls | siweAuthAddress | startProcessors => trivial

theorem startupWrites_keeps (h : StartupValid P keys d w) {op : StartupOp}
    (pre : startupPre P keys d op w) {r : Except StartupError op.Reply}
    (written : startupWrites w op = some (r, v)) :
    StartupValid P keys d v ∧ StartupGrows keys d w v ∧
      ∀ a, r = .ok a → startupTold P keys d op a v := by
  cases op with
  | submit x =>
    obtain ⟨rfl, rfl⟩ := Prod.mk.inj (Option.some.inj written)
    have g : StartupGrows keys d w { w with submissions := w.submissions ++ [x] } :=
      ⟨.refl _, id, le_rfl, List.prefix_append .., List.Subset.refl _⟩
    refine ⟨h.grown g h.past h.sound h.listed (fun y mem => ?_) (fun _ => .inl) (fun _ => .inl)
      fun _ => .inl, g, fun a ha => ?_⟩
    · refine (List.mem_append.mp mem).imp_right fun new => ?_
      obtain rfl := List.mem_singleton.mp new
      exact pre
    · obtain rfl := Except.ok.inj ha
      exact List.getElem?_concat_length
  | submitReply ticket =>
    simp only [startupWrites] at written
    split at written
    · next executed =>
      obtain ⟨rfl, rfl⟩ := Prod.mk.inj (Option.some.inj written)
      exact ⟨h, .refl _, fun _ _ => executed⟩
    · split at written
      · obtain ⟨rfl, rfl⟩ := Prod.mk.inj (Option.some.inj written)
        exact ⟨h, .refl _, fun _ ha => by cases ha⟩
      · cases written
  | logGivenUp entry =>
    obtain ⟨rfl, rfl⟩ := Prod.mk.inj (Option.some.inj written)
    have g : StartupGrows keys d w { w with givenUp := entry :: w.givenUp } :=
      ⟨.refl _, id, le_rfl, List.prefix_rfl, List.subset_cons_self ..⟩
    exact ⟨h.grown g h.past h.sound h.listed (fun _ => .inl) (fun _ => .inl) (fun _ => .inl)
      fun _ => .inl, g, fun _ _ => List.mem_cons_self⟩
  | serve settings =>
    obtain ⟨rfl, rfl⟩ := Prod.mk.inj (Option.some.inj written)
    have g : StartupGrows keys d w { w with served := (settings, w.givenUp) :: w.served } :=
      ⟨.refl _, id, le_rfl, List.prefix_rfl, List.Subset.refl _⟩
    refine ⟨h.grown g h.past h.sound h.listed (fun _ => .inl) (fun _ => .inl) (fun _ => .inl)
      fun e mem => ?_, g, fun _ _ => trivial⟩
    rcases List.mem_cons.mp mem with rfl | mem
    · exact .inr ⟨pre.1, fun enabled => g.inSync pre.1 (pre.2 enabled)⟩
    · exact .inl mem
  | verifyChainRpcUrls | generateKey | accountingVersion | siweAuthAddress | roflSignerAddress
  | encodedTokenData | tokenId | tokens | gasPrices | startProcessors => cases written

theorem startupPerform_keeps (h : StartupValid P keys d w) {op : StartupOp}
    {answer : StartupAnswer} (pre : startupPre P keys d op w) {r : Except StartupError op.Reply}
    (performed : startupPerform P keys op answer w = some (r, v)) :
    StartupValid P keys d v ∧ StartupGrows keys d w v ∧
      ∀ a, r = .ok a → startupTold P keys d op a v := by
  cases answer with
  | fail =>
    simp only [startupPerform] at performed
    split at performed
    · cases performed
    · obtain ⟨rfl, rfl⟩ := Prod.mk.inj (Option.some.inj performed)
      exact ⟨h, .refl _, fun _ ha => by cases ha⟩
  | node lag =>
    simp only [startupPerform] at performed
    split at performed
    · next written =>
      obtain rfl := Option.some.inj performed
      exact startupWrites_keeps h pre written
    · obtain ⟨c, node, performed⟩ := Option.bind_eq_some_iff.mp performed
      obtain ⟨reply, read, performed⟩ := Option.bind_eq_some_iff.mp performed
      obtain ⟨rfl, rfl⟩ := Prod.mk.inj (Option.some.inj performed)
      exact ⟨h, .refl _, fun a ha => Except.ok.inj ha ▸ startupReads_told h node read⟩

end World

section Programs

theorem uint256_safe {D : Discipline StartupWorld StartupOp StartupOp.Reply} (x : ℤ) :
    (uint256 x).Safe D (fun y _ => (y.toNat : ℤ) = x) w := by
  unfold uint256
  split
  · next range =>
    refine .result fun _ _ _ => ?_
    rw [BitVec.toNat_ofInt, Int.toNat_of_nonneg (Int.emod_nonneg _ (by decide))]
    exact Int.emod_eq_of_lt range.1 range.2
  · exact .raise _

theorem roflSubmitTx_safe {x : Submission} (proper : x.Proper keys d)
    (version : requiredAccountingVersion ≤ w.version) :
    (roflSubmitTx x).Safe (startupDiscipline P keys d) (fun _ v => x.Done P v) w := by
  refine .await (fun v g _ => ⟨proper, version.trans g.version⟩) fun ticket v g _ sent => ?_
  refine ⟨fun _ _ _ => trivial, fun _ u g' valid told => ?_, fun e _ _ _ => .raise e⟩
  refine .result fun t later valid' => ?_
  obtain ⟨y, same, done⟩ := valid.executed ticket told
  obtain rfl : x = y := Option.some.inj ((g'.ticket sent).symm.trans same)
  exact later.done proper done

theorem generateKey_safe (keyId : Text) (kind : KeyKind) :
    (Coroutine.await (generateKey keyId kind) : Startup Bytes32).Safe (startupDiscipline P keys d)
      (fun key _ => key = keys.generateKey keyId kind) w :=
  .reply (fun _ _ _ => trivial) fun _ _ _ told _ _ => told

theorem initializeJwtKeys_quiet (settings : StartupSettings) :
    (initializeJwtKeys settings).Quiet (startupDiscipline P keys d) := by
  unfold initializeJwtKeys
  split
  · exact .result _
  · exact .bind (.await fun _ => trivial) fun _ => .result _

theorem initializeOnrampIntentKeys_quiet (settings : StartupSettings) :
    (initializeOnrampIntentKeys settings).Quiet (startupDiscipline P keys d) := by
  unfold initializeOnrampIntentKeys
  split
  · exact .result _
  · intro w valid
    exact .forEach (I := fun _ _ => True) valid (fun _ _ => trivial) (fun _ _ _ _ _ => trivial)
      fun _ v hv _ => Quiet.bind (.await fun _ => trivial) (fun _ => .result _) v hv

theorem initializeAuthTokenKey_safe (valid : StartupValid P keys d w) (settings : StartupSettings)
    (enabled : settings.roflKeysDisabled = false) :
    (initializeAuthTokenKey keys settings).Safe (startupDiscipline P keys d)
      (fun encKey _ => encKey = keys.authTokenKey settings.authTokenKeyId) w := by
  rw [initializeAuthTokenKey, if_neg (by simp [enabled])]
  exact .bind valid (generateKey_safe ..) fun seed _ _ _ derived => .result fun _ _ _ =>
    congrArg keys.deriveEncKey derived

theorem initializeAuthTokenKey_quiet (settings : StartupSettings) :
    (initializeAuthTokenKey keys settings).Quiet (startupDiscipline P keys d) := by
  unfold initializeAuthTokenKey
  split
  · exact .result _
  · exact .bind (.await fun _ => trivial) fun _ => .result _

theorem syncKeyToContract_safe {encKey : Bytes32}
    (derived : encKey = keys.authTokenKey d.authTokenKeyId)
    (version : requiredAccountingVersion ≤ w.version) :
    (syncKeyToContract encKey).Safe (startupDiscipline P keys d)
      (fun _ v => v.authTokenEncKey = encKey) w :=
  .await (fun _ _ _ => trivial) fun _ _ g _ _ =>
    roflSubmitTx_safe (x := .setAuthTokenEncKey encKey) derived (version.trans g.version)

theorem bootstrapRoflSignerAddress_safe (valid : StartupValid P keys d w)
    (version : requiredAccountingVersion ≤ w.version) :
    (bootstrapRoflSignerAddress keys).Safe (startupDiscipline P keys d)
      (fun _ v => v.accounting.roflSignerAddress = keys.querySigner) w := by
  refine .bind valid (generateKey_safe ..) fun key v g _ derived => ?_
  have signer : keys.address key = keys.querySigner := congrArg keys.address derived
  rw [signer]
  refine .await (fun _ _ _ => trivial) fun current u g' _ told => ?_
  split
  · next same => exact .result fun t later _ => later.stays.signer (told same)
  · exact roflSubmitTx_safe (x := .setRoflSignerAddress keys.querySigner) rfl
      (version.trans (g.version.trans g'.version))

/-- After the attempts it is done, or given up. -/
theorem attempts_safe {body giveUp : Startup Unit} {J : StartupWorld → Prop}
    (valid : StartupValid P keys d w)
    (attempt : ∀ v, StartupGrows keys d w v → StartupValid P keys d v →
      body.Safe (startupDiscipline P keys d) (fun _ => J) v)
    (last : ∀ v, giveUp.Safe (startupDiscipline P keys d) (fun _ => J) v) (n : ℕ) :
    (attempts body giveUp n).Safe (startupDiscipline P keys d) (fun _ => J) w := by
  induction n generalizing w with
  | zero => exact last w
  | succ n ih =>
    exact .except valid (attempt w (.refl w) valid) fun _ v g hv =>
      ih hv fun u g' => attempt u (g.trans g')

theorem logGivenUp_safe (entry : GivenUp) :
    (Coroutine.await (logGivenUp entry) : Startup Unit).Safe (startupDiscipline P keys d)
      (fun _ v => entry ∈ v.givenUp) w :=
  .reply (fun _ _ _ => trivial) fun _ _ _ told g _ => g.givenUp told

theorem getTokenDataAndId_safe (valid : StartupValid P keys d w) (entry : ℤ × Option Address) :
    (getTokenDataAndId entry.1 entry.2).Safe (startupDiscipline P keys d) (fun r _ =>
      ∃ chainId : U256, (chainId.toNat : ℤ) = entry.1 ∧ r.1 = tokenInfoAt chainId entry.2 ∧
        r.2 = getTokenId P r.1) w := by
  refine .bind valid (uint256_safe entry.1) fun chainId v _ hv chain => ?_
  refine .await (fun _ _ _ => trivial) fun data u _ hu encoded => ?_
  refine .await (fun _ _ _ => trivial) fun id t _ _ hashed => ?_
  refine .result fun _ _ _ => ⟨chainId, chain, ?_, hashed⟩
  show (⟨if entry.2.isNone then .NativeEVM else .ERC20, data⟩ : TokenInfo) = _
  rw [show data = (tokenInfoAt chainId entry.2).data from encoded]
  cases entry.2 <;> rfl

theorem registerToken_safe (valid : StartupValid P keys d w)
    (version : requiredAccountingVersion ≤ w.version) (entry : ℤ × Option Address) :
    (registerToken entry).Safe (startupDiscipline P keys d) (fun _ v =>
      GivenUp.token entry ∈ v.givenUp ∨ TokenPublished P v.accounting entry) w := by
  refine attempts_safe (J := fun v =>
      GivenUp.token entry ∈ v.givenUp ∨ TokenPublished P v.accounting entry) valid
    (fun v g hv => ?_)
    (fun v => (logGivenUp_safe (.token entry)).imp fun _ _ _ _ => .inl) maxAttempts
  refine .bind hv (getTokenDataAndId_safe hv entry) fun r u g' hu told => ?_
  obtain ⟨chainId, chain, info, hashed⟩ := told
  refine .await (fun _ _ _ => trivial) fun stored t g'' ht told => ?_
  rw [hashed, info] at told
  split
  · next filled =>
    exact .result fun z later _ => .inr ⟨chainId, chain, later.stays.registered _ (told filled)⟩
  · refine (roflSubmitTx_safe (x := .setTokenInfo r.1) ⟨chainId, entry.2, info⟩
      (version.trans (g.version.trans (g'.version.trans g''.version)))).imp fun _ z _ _ done => ?_
    have registered : Registered z.accounting (getTokenId P r.1) := done
    exact .inr ⟨chainId, chain, info ▸ registered⟩

theorem syncChainGasPrice_safe (valid : StartupValid P keys d w)
    (version : requiredAccountingVersion ≤ w.version) {entry : ℤ × ℤ}
    (deployed : ∀ c p : U256, ((c.toNat : ℤ), (p.toNat : ℤ)) = entry → d.gasPriceWei c = some p) :
    (syncChainGasPrice entry).Safe (startupDiscipline P keys d) (fun _ v =>
      GivenUp.gasPrice entry ∈ v.givenUp ∨ PricePublished v.accounting entry) w := by
  refine attempts_safe (J := fun v =>
      GivenUp.gasPrice entry ∈ v.givenUp ∨ PricePublished v.accounting entry) valid
    (fun v g hv => ?_)
    (fun v => (logGivenUp_safe (.gasPrice entry)).imp fun _ _ _ _ => .inl) maxAttempts
  refine .bind hv (uint256_safe entry.1) fun chainId u g' hu chain => ?_
  refine .await (fun _ _ _ => trivial) fun current t g'' ht told => ?_
  split
  · next same =>
    have price := deployed chainId current (Prod.ext chain same)
    refine .result fun z later _ => .inr ⟨chainId, chain, ?_⟩
    rw [later.stays.prices chainId current price (told price), same]
  · refine .bind ht (uint256_safe entry.2) fun desired z g₃ _ price => ?_
    refine (roflSubmitTx_safe (x := .setGasPrice chainId desired)
      (deployed chainId desired (Prod.ext chain price)) (version.trans
        (g.version.trans (g'.version.trans (g''.version.trans g₃.version))))).imp
      fun _ z _ _ done => ?_
    have published : z.accounting.gasPrices chainId = desired := done
    exact .inr ⟨chainId, chain, by rw [published, price]⟩

theorem bringInSync_safe {settings : StartupSettings} {encKey : Bytes32}
    (deployed : settings.Deployed d)
    (derived : encKey = keys.authTokenKey settings.authTokenKeyId) :
    (bringInSync keys settings encKey).Safe (startupDiscipline P keys d)
      (fun _ v => InSync P keys settings v.givenUp v) w := by
  refine .await (fun _ _ _ => trivial) fun deployedVersion v _ hv told => ?_
  split
  · exact .raise _
  next recent =>
  have version : requiredAccountingVersion ≤ v.version := (not_lt.mp recent).trans told
  refine .bind hv (syncKeyToContract_safe (deployed.keyId ▸ derived) version)
    fun _ v₁ g₁ h₁ encKeySet => ?_
  have version₁ := version.trans g₁.version
  refine .bind h₁ (bootstrapRoflSignerAddress_safe h₁ version₁) fun _ v₂ g₂ h₂ signer => ?_
  have version₂ := version₁.trans g₂.version
  refine .bind h₂ (Safe.each (J := fun entry v =>
      GivenUp.token entry ∈ v.givenUp ∨ TokenPublished P v.accounting entry) h₂
    (fun _ _ _ _ g => Or.imp (fun mem => g.givenUp mem) g.stays.tokenPublished)
    fun entry _ v g hv => registerToken_safe hv (version₂.trans g.version) entry)
    fun _ v₃ g₃ h₃ tokens => ?_
  have version₃ := version₂.trans g₃.version
  refine (Safe.each (J := fun entry v =>
      GivenUp.gasPrice entry ∈ v.givenUp ∨ PricePublished v.accounting entry) h₃
    (fun entry mem _ _ g => Or.imp (fun given => g.givenUp given)
      (g.stays.pricePublished fun c p same => deployed.prices c p (same ▸ mem)))
    fun entry mem v g hv => syncChainGasPrice_safe hv (version₃.trans g.version)
      fun c p same => deployed.prices c p (same ▸ mem)).imp fun _ v₄ g₄ _ prices => ?_
  exact {
    version := version₃.trans g₄.version
    encKey := by
      have set := (g₂.trans (g₃.trans g₄)).encKey
      rw [← deployed.keyId, ← derived] at set
      rw [set encKeySet, derived]
    signer := (g₃.trans g₄).stays.signer signer
    tokens := fun entry mem => (tokens entry mem).imp (fun given => g₄.givenUp given)
      g₄.stays.tokenPublished
    prices := prices }

/-- A start that comes to serve has brought the contract in line. -/
theorem lifespan_quiet {settings : StartupSettings} (deployed : settings.Deployed d) :
    (lifespan keys settings).Quiet (startupDiscipline P keys d) := by
  refine .bind (.await fun _ => trivial) fun _ => ?_
  refine .bind (initializeJwtKeys_quiet settings) fun _ => ?_
  by_cases disabled : settings.roflKeysDisabled = true
  · refine .bind (initializeAuthTokenKey_quiet settings) fun encKey =>
      .bind (initializeOnrampIntentKeys_quiet settings) fun _ => ?_
    rw [if_pos disabled]
    refine Quiet.bind (p := pure ()) (.result ()) fun _ =>
      .bind (.await fun _ => trivial) fun _ => .await fun v => ?_
    exact ⟨deployed, fun enabled => by rw [disabled] at enabled; cases enabled⟩
  · intro w valid
    have enabled := Bool.not_eq_true _ ▸ disabled
    refine .bind valid (initializeAuthTokenKey_safe valid settings enabled)
      fun encKey v _ hv derived => ?_
    refine .bind hv (initializeOnrampIntentKeys_quiet settings v hv) fun _ u _ hu _ => ?_
    rw [if_neg disabled]
    refine .bind hu (bringInSync_safe deployed derived) fun _ t _ ht sync => ?_
    refine .await (fun _ _ _ => trivial) fun _ z g _ _ => ?_
    refine .reply (fun y g' _ => ⟨deployed, fun _ => ?_⟩) fun _ _ _ _ _ _ => trivial
    have later := g.trans g'
    have kept := later.inSync deployed sync
    exact { kept with
      tokens := fun entry mem => (kept.tokens entry mem).imp_left fun given => later.givenUp given
      prices := fun entry mem => (kept.prices entry mem).imp_left fun given => later.givenUp given }

theorem startupSystem_keeps (P : Platform) (keys : RoflKeys) (d : Deployment) :
    (startupSystem P keys d).Keeps (startupDiscipline P keys d) StartupMove.Foreign where
  perform valid pre h := startupPerform_keeps valid pre h
  move foreign valid h := startupMove_keeps valid foreign h
  start {p w v} valid h := by
    simp only [startupSystem] at h
    split at h
    · cases h
    · obtain rfl := Option.some.inj h
      have g : StartupGrows keys d w { w with started := true } :=
        ⟨.refl _, id, le_rfl, List.prefix_rfl, List.Subset.refl _⟩
      have kept : StartupValid P keys d { w with started := true } :=
        StartupValid.grown valid g valid.past valid.sound valid.listed (fun _ => .inl)
          (fun _ => .inl) (fun _ => .inl) fun _ => .inl
      exact ⟨kept, g, lifespan_quiet p.2 _ kept⟩
  leave valid := ⟨valid, .refl _⟩
  restart valid := ⟨valid.past, valid.sound, valid.listed, valid.submissions,
    fun t mem => by
      obtain ⟨x, sent, done⟩ := valid.executed t mem
      refine ⟨x, sent, ?_⟩
      cases x <;> exact done,
    valid.reverted,
    fun e mem => ⟨(valid.served e mem).1, fun enabled =>
      ⟨((valid.served e mem).2 enabled).version, ((valid.served e mem).2 enabled).encKey,
        ((valid.served e mem).2 enabled).signer, ((valid.served e mem).2 enabled).tokens,
        ((valid.served e mem).2 enabled).prices⟩⟩⟩
  cancelled _ := trivial

end Programs

end Privana
