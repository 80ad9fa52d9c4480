import Mathlib.Algebra.Order.BigOperators.Group.List
import Privana.SweepRuns
import Privana.WithdrawalPayout

/-! Sweep solvency. Every credit of the engine names a hash that was mined with success,
but two deposits of one token and amount to one address may name the same hash: the
second sweep is byte for byte the first if it reads the same nonce and gas price. As
long as no node accepts one transaction for two deposits, the credits are covered one by
one. -/

namespace Privana
open BigEndian Coroutine SweepOp

variable {P : Platform} {settings : SweepSettings}

def Broadcast.depositId? (b : Broadcast P) : Option Bytes32 :=
  match b.purpose with
  | .sweep call => some call.depositId
  | .gasFunding => none

theorem depositId?_of_purpose {b : Broadcast P} {call : SweepCall} (h : b.purpose = .sweep call) :
    b.depositId? = some call.depositId := by
  simp [Broadcast.depositId?, h]

namespace SweepWorld

/-- The mined transaction behind a credit: the receipt of the hash its record names. -/
def backing (w : SweepWorld P) (k : SweepRecord) : Option (MinedTx P) :=
  k.sweepTxHash.bind (w.ledger.receipt k.chainId)

def creditedAmount (w : SweepWorld P) (tokenId : Bytes32) : ℕ :=
  ((w.credits.filter fun k => k.tokenId = tokenId).map fun k => k.amount.toNat).sum

/-- A mined transaction that paid a token into the hot wallet. -/
def paysHotWallet (w : SweepWorld P) (tokenId : Bytes32) (m : MinedTx P) : Bool :=
  m.succeeded && decide (m.tx.tx.payment.recipient = w.accounting.evmAddress ∧
    getTokenId P (tokenInfoAt m.tx.tx.chainId m.tx.tx.payment.token) = tokenId)

def movedToHotWallet (w : SweepWorld P) (tokenId : Bytes32) : ℕ :=
  ((w.ledger.mined.filter (w.paysHotWallet tokenId)).map fun m =>
    m.tx.tx.payment.amount.toNat).sum

end SweepWorld

/-- The credits of the engine are matched one to one to mined sweeps. -/
structure Solvent (w : SweepWorld P) : Prop where
  /-- The credits are what the contract processed, each once. -/
  credited : ∀ d, w.accounting.processedDeposits d = true ↔ ∃ k ∈ w.credits, k.depositId = d
  creditedOnce : (w.credits.map fun k => k.depositId).Nodup
  backed : ∀ k ∈ w.credits, ∃ m ∈ w.ledger.mined, w.backing k = some m ∧ m.succeeded = true ∧
    m.tx.account = k.depositAddress ∧ ∃ nonce gasPrice, m.tx.tx = transferTx P sweepGasLimit
      (k.chainId, k.tokenAddress) w.accounting.evmAddress k.amount nonce gasPrice
  apart : ∀ k ∈ w.credits, ∀ k' ∈ w.credits, w.backing k = w.backing k' → k = k'
  minedOnce : (w.ledger.mined.map fun m => m.tx.hash).Nodup
  covered : ∀ t, w.creditedAmount t ≤ w.movedToHotWallet t

/-- A node accepts a sweep only if whatever nodes accepted before under its hash is the
same transaction, for the same deposit. -/
def OwnAcceptance (e : SweepEntry P) : Prop :=
  ∀ i b, e.input = .move (.accept i) → e.before.world.wire[i]? = some b →
    ∀ a ∈ e.before.world.accepted, a.tx.hash = b.tx.hash →
      a.depositId?.isSome ∨ b.depositId?.isSome → a.depositId? = b.depositId? ∧ a.tx = b.tx

/-- No two deposits share a transaction that a node accepted. -/
def OwnSweeps (w : SweepWorld P) : Prop :=
  ∀ a ∈ w.accepted, ∀ b ∈ w.accepted, a.tx.hash = b.tx.hash →
    a.depositId?.isSome ∨ b.depositId?.isSome → a.depositId? = b.depositId? ∧ a.tx = b.tx

theorem OwnSweeps.step {w v : SweepWorld P} {s t : SweepPool P} {e : SweepEvent}
    {o : Option (SweepOp P)} (hw : s.world = w) (h : OwnSweeps w) (step : SweepStep w e v o)
    (own : OwnAcceptance ⟨s, e, o, t⟩) : OwnSweeps v := by
  subst hw
  rcases step.accepted with same | ⟨i, b, rfl, hb, taken⟩
  · simpa only [OwnSweeps, same] using h
  · have new := own i b rfl hb
    intro a ha a' ha' hash sweep
    rw [taken, List.mem_append, List.mem_singleton] at ha ha'
    rcases ha with ha | rfl <;> rcases ha' with ha' | rfl
    · exact h a ha a' ha' hash sweep
    · exact new a ha hash sweep
    · obtain ⟨hd, ht⟩ := new a' ha' hash.symm sweep.symm
      exact ⟨hd.symm, ht.symm⟩
    · exact ⟨rfl, rfl⟩

/-- Items matched one to one to others of the same weight weigh no more in total. -/
theorem sum_le_sum_of_matching {α β : Type*} {xs : List α} {ys : List β} {f : α → Option β}
    {g : α → ℕ} {h : β → ℕ} (nodup : xs.Nodup) (apart : ∀ x ∈ xs, ∀ y ∈ xs, f x = f y → x = y)
    (matched : ∀ x ∈ xs, ∃ y ∈ ys, f x = some y ∧ g x = h y) :
    (xs.map g).sum ≤ (ys.map h).sum := by
  have weight : xs.map g = (xs.map f).map fun o => o.elim 0 h := by
    rw [List.map_map]
    refine List.map_congr_left fun x hx => ?_
    obtain ⟨y, -, hf, hg⟩ := matched x hx
    simp [hf, hg]
  have total : ys.map h = (ys.map some).map fun o => o.elim 0 h := by
    rw [List.map_map]
    rfl
  have image : (xs.map f) ⊆ ys.map some := by
    intro o ho
    obtain ⟨x, hx, rfl⟩ := List.mem_map.mp ho
    obtain ⟨y, hy, hf, -⟩ := matched x hx
    exact hf ▸ List.mem_map_of_mem hy
  obtain ⟨l, perm, sub⟩ := List.subperm_of_subset (nodup.map_on apart) image
  rw [weight, total, ← (perm.map _).sum_eq]
  exact (sub.map _).sum_le_sum fun _ _ => Nat.zero_le _

theorem transferTx_chainId (gasLimit : TokenType → U64) (target : U256 × Option Address)
    (recipient : Address) (amount : U256) (nonce : U64) (gasPrice : U256) :
    (transferTx P gasLimit target recipient amount nonce gasPrice).chainId = target.1 := by
  obtain ⟨_, _ | _⟩ := target <;> rfl

/-- What stands behind a credit: an accepted sweep of its call, mined with success. -/
theorem SweepValid.backing {w : SweepWorld P} (valid : SweepValid w) {k : SweepRecord}
    (hk : k ∈ w.credits) :
    ∃ h m, ∃ b ∈ w.accepted, k.sweepTxHash = some h ∧ b.purpose = .sweep k.toSweepCall ∧
      b.tx.hash = h ∧ m ∈ w.ledger.mined ∧ w.backing k = some m ∧ m.tx.hash = h ∧
      m.succeeded = true := by
  obtain ⟨tracked, swept⟩ := valid.credits k hk
  obtain ⟨h, hash, m, hm, chain, rfl, succeeded⟩ := tracked.swept swept
  obtain ⟨b, hb, purpose, hh⟩ := tracked.named _ hash
  obtain ⟨m', receipt⟩ : ∃ m', w.ledger.receipt k.chainId m.tx.hash = some m' := by
    refine Option.isSome_iff_exists.mp (List.find?_isSome.mpr ⟨m, hm, ?_⟩)
    simp [chain]
  obtain ⟨hm', -, hash'⟩ := SourceLedger.receipt_eq_some receipt
  obtain rfl : m' = m := List.inj_on_of_nodup_map valid.minedOnce hm' hm hash'
  exact ⟨_, m', b, hb, hash, purpose, hh, hm, by simp [SweepWorld.backing, hash, receipt], rfl,
    succeeded⟩

theorem solvent_of_ownSweeps {w : SweepWorld P} (valid : SweepValid w) (own : OwnSweeps w) :
    Solvent w := by
  have backed : ∀ k ∈ w.credits, ∃ m ∈ w.ledger.mined, w.backing k = some m ∧
      m.succeeded = true ∧ m.tx.account = k.depositAddress ∧ ∃ nonce gasPrice,
      m.tx.tx = transferTx P sweepGasLimit (k.chainId, k.tokenAddress) w.accounting.evmAddress
        k.amount nonce gasPrice := by
    intro k hk
    obtain ⟨h, m, b, hb, -, purpose, hash, hm, hbacking, hmh, succeeded⟩ := valid.backing hk
    obtain ⟨a, ha, hma⟩ := valid.mined m hm
    have same : a.tx.hash = b.tx.hash := (congrArg SignedTx.hash hma).trans (hmh.trans hash.symm)
    have sweep : b.depositId?.isSome := by simp [depositId?_of_purpose purpose]
    obtain ⟨-, htx⟩ := own a ha b hb same (.inr sweep)
    obtain ⟨-, account, tx⟩ := valid.wire b (valid.accepted hb) _ purpose
    rw [← htx, hma] at account tx
    exact ⟨m, hm, hbacking, succeeded, account, tx⟩
  have apart : ∀ k ∈ w.credits, ∀ k' ∈ w.credits, w.backing k = w.backing k' → k = k' := by
    intro k hk k' hk' same
    obtain ⟨h, m, b, hb, -, purpose, hash, -, hbacking, hmh, -⟩ := valid.backing hk
    obtain ⟨h', m', b', hb', -, purpose', hash', -, hbacking', hmh', -⟩ := valid.backing hk'
    obtain rfl : m = m' := Option.some.inj (hbacking.symm.trans (same.trans hbacking'))
    have sweep : b.depositId?.isSome := by simp [depositId?_of_purpose purpose]
    obtain ⟨hd, -⟩ := own b hb b' hb'
      (hash.trans (hmh.symm.trans (hmh'.trans hash'.symm))) (.inl sweep)
    rw [depositId?_of_purpose purpose, depositId?_of_purpose purpose'] at hd
    exact List.inj_on_of_nodup_map valid.creditedOnce hk hk' (Option.some.inj hd)
  refine ⟨valid.processed, valid.creditedOnce, backed, apart, valid.minedOnce, fun t => ?_⟩
  refine sum_le_sum_of_matching (f := w.backing) (valid.creditedOnce.of_map.filter _)
    (fun k hk k' hk' => apart k (List.mem_of_mem_filter hk) k' (List.mem_of_mem_filter hk'))
    fun k hk => ?_
  obtain ⟨hk, token⟩ := List.mem_filter.mp hk
  obtain ⟨m, hm, hbacking, succeeded, -, nonce, gasPrice, tx⟩ := backed k hk
  refine ⟨m, List.mem_filter.mpr ⟨hm, ?_⟩, hbacking, ?_⟩
  · have routed := (valid.credits k hk).tracked.routed.token
    simp only [SweepWorld.paysHotWallet, succeeded, tx, payment_transferTx, transferTx_chainId,
      ← routed, Bool.true_and]
    simpa using token
  · rw [tx, payment_transferTx]

/-- Sweep solvency: in every run where no node accepts one transaction for two deposits, at
every point, each credit has a mined sweep of its own behind it. -/
theorem sweep_solvency (P : Platform) (settings : SweepSettings) (evm gasTank : Address × Bytes32)
    (balances : U256 → Option Address → Address → ℕ) (nonces : U256 → Address → ℕ)
    (es : List SweepEvent)
    (own : ∀ e ∈ (sweepSystem P settings).machine.log (sweepStart P evm gasTank balances nonces) es,
      OwnAcceptance e) :
    ∀ js, js <+: es →
      let w := ((sweepSystem P settings).machine.run
        (sweepStart P evm gasTank balances nonces) js).world
      Solvent w ∧ w.accounting.evmAddress = evm.1 := by
  intro js hjs
  obtain ⟨holds, wire, hot⟩ := sweepRun_invariant (C := OwnAcceptance)
    (I := fun w => OwnSweeps w ∧ w.accounting.evmAddress = evm.1)
    ⟨fun _ h => (List.not_mem_nil h).elim, rfl⟩
    (fun e he => own e ((sweepSystem P settings).machine.mem_log_of_prefix hjs he))
    fun s t e o _ grows step own h =>
      ⟨h.1.step rfl step own, grows.keys.evmAddress.symm.trans h.2⟩
  exact ⟨solvent_of_ownSweeps holds.valid wire, hot⟩

/-- The deposit address that the contract derives for the sample user, and its key. -/
def sampleDepositAddress : Address := 0x5e5bababe0d15ea6e03640f7614a72fbe693e418

def sampleDepositKey : Bytes32 := 0x94c8d2a0e8d2352dc8693a01443254b62e7e32f84145126005437f5c843a78ba

def sampleGasFunding : U64 → Bytes
  | 0 => encode 110 0xf86c808405f5e1008261a8945e5bababe0d15ea6e03640f7614a72fbe693e418860bd2cc61d000808302948ca02fa2104d6b38d11b0230010559879124e42ab8dfeff5ff29dc9cdadd4ecacc3fa0651c232da5e905be6615a281bb58af3bb2d2d7e0581d71af5fe09a17fd71230b
  | _ => encode 110 0xf86c018405f5e1008261a8945e5bababe0d15ea6e03640f7614a72fbe693e418860bd2cc61d000808302948ca0fe72c435413d33d48ac09c9161ba8b09683215439d62b7940502bda8b202e6cea00e0c4305a684079040720dc77ffab4ca0ad759ec2bd8da9980475ba31e298ced

def sampleSweepTx : U64 → Bytes
  | 0 => encode 173 0xf8ab808405f5e10082fde894036cbd53842c5426634e7929541ec2318f3dcf7e80b844a9059cbb0000000000000000000000002b5ad5c4795c026514f8317c7a215e218dccd6cf00000000000000000000000000000000000000000000000000000000000f42408302948ca01697ffa6fd9de627c077e3d2fe541084ce13300b0bec1146f95ae57f0d0bd6a5a005bfbe19e3bc0db19cb7776f879f6f7d65dff041a22f2ab821c6f67c773399d9
  | _ => encode 173 0xf8ab018405f5e10082fde894036cbd53842c5426634e7929541ec2318f3dcf7e80b844a9059cbb0000000000000000000000002b5ad5c4795c026514f8317c7a215e218dccd6cf00000000000000000000000000000000000000000000000000000000000f42408302948ba01be68a5a028f2601d0e80d468c344ba331d611b96c358b6032e8b4da0547fc11a07bf1f207ed16f89671b596bf3eec80202c857007c4389790a06629ae11f5b1fd

/-- The transactions that pay one dollar each into the sample deposit address. -/
def sampleDepositTx : Bool → Bytes32
  | false => 0xc28aba9a58689b7afcf8a47af32b655cc5522a94200d870e65ff1df1a710d53c
  | true => 0xdafd0a12adbe4ed97dae0ebb4b072fbf12e387d8716fe284376df484b35a37f6

def sampleDepositId : Bool → Bytes32
  | false => 0xd6c7149af99d04ce4632266b999fb659cae5b8223a2af2cd7b18706b6b84a8ff
  | true => 0x157eaec1845f4413aaa84127f5138ddcbae1155295ccbee0f1ff9e828c64ccf3

def sampleSweepKeccak : List (Bytes × Bytes32) :=
  [(abiEncode [2, addressWord sampleUser, 0, 0], sampleDepositKey),
    (abiEncode [84532, sampleDepositTx false, sampleTokenId, 0], sampleDepositId false),
    (abiEncode [84532, sampleDepositTx true, sampleTokenId, 0], sampleDepositId true),
    (sampleGasFunding 0, 0x508dafe2cd65742e10c09a5f4da0d4c0efd06d6b6bf6bd94c3d76e6bdea7e7b0),
    (sampleGasFunding 1, 0x04bf54020bea1fa621e14a217ee9cc63b52de0c59cb03828af9306083bb7abac),
    (sampleSweepTx 0, 0xa27018cc43e878d5bd7cd6f56514bf5ef10cb88a67a9e74f320019a41db7e63e),
    (sampleSweepTx 1, 0x684e79edb0012d338197f133640e6ddf89a2970c94a83fc99c5b84c650ab2c55)]

/-- The platform of the sample runs, with the values of the sweeps. -/
def sampleSweepPlatform : Platform :=
  { samplePlatform with
    keccak256 := fun bs => ((sampleKeccak ++ sampleSweepKeccak).lookup bs).getD 0
    sign := fun account _ tx =>
      some (if account = sampleDepositAddress then sampleSweepTx tx.nonce
        else sampleGasFunding tx.nonce)
    generateSigningKeyPair := fun seed =>
      (encode 33 0x03b55742b38a1ab921130d5d518cce3c7984ee446e84ed4a175673cb0d8e9adcad, seed)
    k256PubkeyToEthereumAddress := fun _ => sampleDepositAddress }

def sampleQuerySigner : Address := 0x1eff47bc3a10a45d4b230b5d10e37751fe6aa718

/-- Base Sepolia, as it is configured. -/
def sampleSweepSettings : SweepSettings where
  chainConfigs := fun chainId => if chainId = 84532 then
    some ⟨1000000000000000, 1000000, 200000000000000, 100000000⟩ else none
  querySigner := sampleQuerySigner

/-- The gas tank holds one ether. -/
def sampleSweepStart : SweepPool sampleSweepPlatform :=
  sweepStart sampleSweepPlatform sampleEvm sampleGasTank
    (fun chainId token holder =>
      if chainId = 84532 ∧ token = none ∧ holder = sampleGasTank.1 then 1000000000000000000 else 0)
    fun _ _ => 0

namespace SampleSweep

def node : SweepAnswer := .node 0
def ok : SweepAnswer := .number 0

def runs (task : ℕ) (answers : List SweepAnswer) : List SweepEvent := answers.map (.run task)

def rofl (blockNumber : U256) : Msg := ⟨sampleUser, true, blockNumber, 1700000000⟩

/-- The token is registered and the query key published. -/
def setup : List SweepEvent :=
  [.move (.transact ⟨rofl 1, .setTokenInfo sampleToken⟩),
    .move (.transact ⟨rofl 1, .setRoflSignerAddress sampleQuerySigner⟩)]

/-- One dollar arrives at the deposit address. -/
def arrives : SweepEvent :=
  .move (.receive 84532 (some 0x036cbd53842c5426634e7929541ec2318f3dcf7e) sampleDepositAddress
    1000000)

/-- The claim of a deposit, up to the lock of its address. -/
def claim (task : ℕ) (second : Bool) : List SweepEvent :=
  .start (.deposit ⟨sampleUser, .EVM, 84532, sampleDepositTx second, 1000000, 0, 0⟩) ::
    runs task [ok, node, .verified (some 0x036cbd53842c5426634e7929541ec2318f3dcf7e) 0, node, node,
      node, ok]

/-- The sweep under the lock, up to the mined gas funding; `posted` counts what left
the process before. -/
def fund (task posted : ℕ) : List SweepEvent :=
  runs task [ok, ok, node, .number 100000000, .number 100000000, ok, ok, ok, node,
      .number (posted / 2), node, ok, ok] ++
    [.move (.accept posted)] ++ runs task [ok, ok, ok, ok] ++
    [.move (.mine posted true 2100000000000)] ++ runs task [node, ok]

/-- The broadcast of the sweep, up to its hash in the record. -/
def broadcast (task posted : ℕ) : List SweepEvent :=
  runs task [.number 100000000, .number 100000000, node, node, ok, ok] ++
    [.move (.accept posted)] ++ runs task [ok, ok]

/-- The receipt, the credit, and the end of the record. -/
def finish (task credit : ℕ) : List SweepEvent :=
  runs task [ok, node, ok, ok, ok] ++ [.move (.credit credit (rofl 2))] ++
    runs task [.number credit, ok, ok]

/-- Two deposits of one dollar each, the second claimed while the first waits for the lock of
their address; one after the other they are swept and credited. -/
def pair : List SweepEvent :=
  setup ++ [arrives, arrives] ++ claim 0 false ++ claim 1 true ++ fund 0 0 ++ broadcast 0 1 ++
    [.move (.mine 1 true 5000000000000)] ++ finish 0 0 ++
    fund 1 2 ++ broadcast 1 3 ++ [.move (.mine 3 true 5000000000000)] ++ finish 1 1

/-- Two deposits of one dollar each; the first sweep is not mined in time, the second
reads the same nonce, and the recovery loop credits the first. -/
def shared : List SweepEvent :=
  setup ++ [arrives, arrives] ++ claim 0 false ++ fund 0 0 ++ broadcast 0 1 ++
    -- the receipt times out; the record keeps its hash
    runs 0 [.number 1, ok, ok] ++
    claim 1 true ++ fund 1 2 ++ broadcast 1 3 ++
    [.move (.mine 3 true 5000000000000)] ++ finish 1 0 ++
    [.start (.recovery 1)] ++
    runs 2 [ok, ok, ok, ok, node, ok, ok, ok] ++ [.move (.credit 1 (rofl 3))] ++
    runs 2 [.number 1, ok]

end SampleSweep

/-- Where the shared broadcast leads: two credits, and one mined sweep behind them. -/
theorem sampleShared_amounts :
    let w := ((sweepSystem sampleSweepPlatform sampleSweepSettings).machine.run sampleSweepStart
      SampleSweep.shared).world
    w.creditedAmount sampleTokenId = 2000000 ∧ w.movedToHotWallet sampleTokenId = 1000000 := by
  decide +kernel

theorem sweep_solvency_shared : ¬ ∀ js, js <+: SampleSweep.shared →
    Solvent ((sweepSystem sampleSweepPlatform sampleSweepSettings).machine.run sampleSweepStart
      js).world := by
  intro solvent
  have covered := (solvent SampleSweep.shared (List.prefix_refl _)).covered sampleTokenId
  obtain ⟨credited, moved⟩ := sampleShared_amounts
  rw [credited, moved] at covered
  omega

/-- What a node accepts has a hash that nothing accepted before had. -/
def acceptsNewHash (e : SweepEntry P) : Bool :=
  match e.input with
  | .move (.accept i) =>
    match e.before.world.wire[i]? with
    | some b => e.before.world.accepted.all fun a => a.tx.hash ≠ b.tx.hash
    | none => true
  | _ => true

theorem ownAcceptance_of_acceptsNewHash {e : SweepEntry P} (h : acceptsNewHash e = true) :
    OwnAcceptance e := by
  intro i b hi hb a ha hash
  simp only [acceptsNewHash, hi, hb, List.all_eq_true, decide_eq_true_eq] at h
  exact absurd hash (h a ha)

theorem samplePair_acceptsNewHash :
    ((sweepSystem sampleSweepPlatform sampleSweepSettings).machine.log sampleSweepStart
      SampleSweep.pair).all acceptsNewHash = true := by
  decide +kernel

theorem samplePair_credited :
    ((sweepSystem sampleSweepPlatform sampleSweepSettings).machine.run sampleSweepStart
      SampleSweep.pair).world.creditedAmount sampleTokenId = 2000000 := by
  decide +kernel

/-- Both deposits are credited, and each has its own sweep. -/
theorem sweep_solvency_pair :
    let w := ((sweepSystem sampleSweepPlatform sampleSweepSettings).machine.run sampleSweepStart
      SampleSweep.pair).world
    (Solvent w ∧ w.accounting.evmAddress = sampleEvm.1) ∧
      w.creditedAmount sampleTokenId = 2000000 := by
  have solvent : ∀ js, js <+: SampleSweep.pair →
      let w := ((sweepSystem sampleSweepPlatform sampleSweepSettings).machine.run sampleSweepStart
        js).world
      Solvent w ∧ w.accounting.evmAddress = sampleEvm.1 :=
    sweep_solvency sampleSweepPlatform sampleSweepSettings sampleEvm sampleGasTank _ _
      SampleSweep.pair fun e he =>
        ownAcceptance_of_acceptsNewHash (List.all_eq_true.mp samplePair_acceptsNewHash e he)
  exact ⟨solvent SampleSweep.pair List.prefix_rfl, samplePair_credited⟩

end Privana
