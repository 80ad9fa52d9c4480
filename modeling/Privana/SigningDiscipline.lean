import Privana.PaymentProof
import Privana.WithdrawalPoll

/-! What is sent to the chains. The processor asks for the signed transaction of a
withdrawal only when a node has shown it as resolved, and sends nothing but what
`resolveWithdrawal` returned: the payout of that withdrawal, under its nonce. A poll sends
it after everything that the listing had before it, and the catch-up pass after what it
leaves behind. -/

namespace Privana
open BigEndian Coroutine ServiceOp

variable {P : Platform} {infos : Set TokenInfo} {settings : ProcessorSettings}
  {w v : BroadcastWorld}

/-- The bytes are a transaction of the chain under the nonce. -/
def Carries (P : Platform) (chainId : U256) (nonce : ℕ) (raw : Bytes) : Prop :=
  ∃ account secret tx, P.sign account secret tx = some raw ∧ tx.chainId = chainId ∧
    tx.nonce.toNat = nonce

/-- A transaction with the nonce has been accepted by a node of the chain, or mined. -/
def BroadcastWorld.Out (P : Platform) (w : BroadcastWorld) (chainId : U256) (nonce : ℕ) : Prop :=
  nonce < w.mined chainId ∨ ∃ raw, Carries P chainId nonce raw ∧
    ((chainId, raw) ∈ w.accepted ∨ (w.receipts chainId (P.keccak256 raw)).isSome)

/-- A transaction with the nonce of the withdrawal is out on its chain. -/
def SentOut (P : Platform) (i : ℕ) (w : BroadcastWorld) : Prop :=
  ∃ p, w.service.accounting.payout? i = some p ∧ w.Out P p.target.1 p.nonce.toNat

/-- Nothing with the hash can be a transaction that is not out. -/
def HashOut (P : Platform) (w : BroadcastWorld) (chainId : U256) (hash : Bytes32) : Prop :=
  ∀ raw nonce, hash = P.keccak256 raw → Carries P chainId nonce raw → w.Out P chainId nonce

structure SigningValid (P : Platform) (infos : Set TokenInfo) (w : BroadcastWorld) : Prop where
  service : ServiceValid P infos w.service
  signed : ∀ i raw, w.Returned i raw → w.service.Resolved i ∧
    ∃ p, w.service.accounting.payout? i = some p ∧ Carries P p.target.1 p.nonce.toNat raw
  hashes : ∀ chainId i hash, w.service.lastBroadcastHash chainId i = some hash → w.Signed P i hash
  marks : MarksSettled BroadcastWorld.service (SentOut P) w

structure SigningGrows (P : Platform) (w v : BroadcastWorld) : Prop where
  service : ServiceGrows w.service v.service
  calls : w.calls ⊆ v.calls
  out : ∀ {chainId nonce}, w.Out P chainId nonce → v.Out P chainId nonce

def signingPre (P : Platform) : ServiceOp → BroadcastWorld → Prop
  | resolveWithdrawalCall index, w => w.service.Resolved index
  | ServiceOp.sendRawTransaction chainId raw, w => ∃ index, w.Returned index raw ∧
    ∀ i < index, w.service.QueuedFor chainId i → SentOut P i w
  | rememberBroadcast _ index hash, w => w.Signed P index hash
  | _, _ => True

def signingTold (P : Platform) : (op : ServiceOp) → op.Reply → BroadcastWorld → Prop
  | resolveWithdrawalCall index, raw, w => w.Returned index raw
  | ServiceOp.sendRawTransaction chainId raw, hash, w =>
    hash = P.keccak256 raw ∧ ∀ nonce, Carries P chainId nonce raw → w.Out P chainId nonce
  | transactionReceipt chainId hash, _, w => HashOut P w chainId hash
  | lastBroadcastHash _ index, remembered, w =>
    ∀ hash, remembered = some hash → w.Signed P index hash
  | broadcastingMissing chainId index _, _, w =>
    ∀ i < index, w.service.QueuedFor chainId i → SentOut P i w
  | _, _, _ => True

/-- The licence to go on. A poll that lists withdrawal `j` of chain `c` has left behind no
earlier one of `c` that is not out, be it resolved and not listed, as after a failed or lost
send, or listed without its chain; and the catch-up pass finds `j` first of those missing. -/
def InTurn (P : Platform) (_ : ℕ) : ServiceOp → BroadcastWorld → Prop
  | appendPending pending j (some c), w => ∀ i < j, w.service.QueuedFor c i →
    (i, none) ∈ pending ∨ i ∉ pending.map Prod.fst ∧ w.service.Resolved i → SentOut P i w
  | broadcastingMissing c j _, w => ∀ i < j, w.service.QueuedFor c i → SentOut P i w
  | _, _ => True

section Growth

theorem BroadcastWorld.Out.grown {chainId : U256} {nonce : ℕ} (h : w.Out P chainId nonce)
    (mined : w.mined chainId ≤ v.mined chainId) (accepted : w.accepted ⊆ v.accepted)
    (receipts : ∀ hash, (w.receipts chainId hash).isSome → (v.receipts chainId hash).isSome) :
    v.Out P chainId nonce :=
  h.imp (fun lt => lt.trans_le mined) fun ⟨raw, carries, out⟩ =>
    ⟨raw, carries, out.imp (fun mem => accepted mem) (receipts _)⟩

theorem BroadcastWorld.Returned.mono {i : ℕ} {raw : Bytes} (h : w.Returned i raw)
    (calls : w.calls ⊆ v.calls) : v.Returned i raw :=
  h.imp fun _ hr => calls hr

theorem SentOut.grown {i : ℕ} (h : SentOut P i w) (g : SigningGrows P w v) : SentOut P i v := by
  obtain ⟨p, hp, out⟩ := h
  exact ⟨p, g.service.accounting.extension.payout hp, g.out out⟩

theorem SigningGrows.settled (g : SigningGrows P w v) {c : U256} {i : ℕ}
    (h : Settled BroadcastWorld.service (SentOut P) c i w) :
    Settled BroadcastWorld.service (SentOut P) c i v :=
  h.imp (fun ⟨d, hd, hq⟩ => ⟨d, hd, g.service.queuedFor hq⟩) (·.grown g)

/-- What survives a step that neither signs nor changes the queue. -/
theorem SigningValid.keep (valid : SigningValid P infos w)
    (service : ServiceValid P infos v.service) (grown : SigningGrows P w v)
    (signed : ∀ i raw, v.Returned i raw → w.Returned i raw ∨ v.service.Resolved i ∧
      ∃ p, v.service.accounting.payout? i = some p ∧ Carries P p.target.1 p.nonce.toNat raw)
    (hashes : ∀ chainId i hash, v.service.lastBroadcastHash chainId i = some hash →
      v.Signed P i hash)
    (marks : MarksSettled BroadcastWorld.service (SentOut P) v) : SigningValid P infos v where
  service := service
  signed i raw returned := by
    rcases signed i raw returned with old | new
    · obtain ⟨resolved, p, hp, carries⟩ := valid.signed i raw old
      exact ⟨grown.service.resolved resolved, p,
        grown.service.accounting.extension.payout hp, carries⟩
    · exact new
  hashes := hashes
  marks := marks

end Growth

section Steps

/-- A read of `resolveWithdrawal` returns the payout of the entry, as the node knows it. -/
theorem resolveWithdrawalCall_signs {block : ℕ} {s : State} {i : ℕ} {raw : Bytes}
    (h : contractReads P block s (resolveWithdrawalCall i) = some (.ok raw)) :
    ∃ p, s.payout? i = some p ∧ Carries P p.target.1 p.nonce.toNat raw := by
  simp only [contractReads, Option.some_inj] at h
  split at h
  · next s' x hx =>
    obtain ⟨p, y, gasPrice, hp, hy, -, -, tx, -⟩ := (execute_step hx).resolves
    obtain rfl := Option.some.inj hy
    obtain ⟨chain, nonce⟩ := Prod.mk.inj (p.tx_chain_nonce P gasPrice)
    obtain rfl := Except.ok.inj h
    exact ⟨p, hp, _, _, _, SignedTx.signed _, tx ▸ chain, by rw [tx, nonce]⟩
  · cases h

theorem servicePerform_signs (valid : SigningValid P infos w) {task i : ℕ} {answer : Answer}
    {s : ServiceWorld} {raw : Bytes}
    (h : servicePerform P task (resolveWithdrawalCall i) answer w.service = some (.ok raw, s)) :
    ∃ p, w.service.accounting.payout? i = some p ∧ Carries P p.target.1 p.nonce.toNat raw := by
  rcases servicePerform_cases h with ⟨a, hm, -⟩ | ⟨-, told⟩
  · cases hm
  rcases told raw rfl with ⟨lag, s, hs, hr⟩ | ⟨answer, hr⟩
  · obtain ⟨p, hp, carries⟩ := resolveWithdrawalCall_signs hr
    refine ⟨p, ?_, carries⟩
    rcases List.mem_cons.mp (List.mem_of_getElem? hs) with rfl | hs
    · exact hp
    · exact (valid.service.past s hs).extension.payout hp
  · cases answer <;> cases hr

theorem mem_record {task : ℕ} {op : ServiceOp} {r : Except ServiceError op.Reply}
    {x : ℕ × Answered} (h : x ∈ (w.record task op r).calls) : x ∈ w.calls ∨ x = (task, ⟨op, r⟩) := by
  unfold BroadcastWorld.record at h
  split at h
  · exact .inl h
  · exact (List.mem_cons.mp h).symm

theorem record_service (task : ℕ) (op : ServiceOp) (r : Except ServiceError op.Reply) :
    (w.record task op r).service = w.service := by
  unfold BroadcastWorld.record
  split <;> rfl

theorem record_calls (task : ℕ) (op : ServiceOp) (r : Except ServiceError op.Reply) :
    w.calls ⊆ (w.record task op r).calls := by
  unfold BroadcastWorld.record
  split
  · exact List.Subset.refl _
  · exact List.subset_cons_self _ _

theorem record_chains (task : ℕ) (op : ServiceOp) (r : Except ServiceError op.Reply) :
    (w.record task op r).accepted = w.accepted ∧ (w.record task op r).mined = w.mined ∧
      (w.record task op r).receipts = w.receipts := by
  unfold BroadcastWorld.record
  split <;> exact ⟨rfl, rfl, rfl⟩

theorem rememberBroadcast_hash {s : ServiceWorld} {c d : U256} {i k : ℕ} {hash x : Bytes32}
    (h : (s.rememberBroadcast c i hash).lastBroadcastHash d k = some x) :
    s.lastBroadcastHash d k = some x ∨ (k = i ∧ x = hash) := by
  simp only [ServiceWorld.rememberBroadcast, Function.update_apply] at h
  split at h
  · next hd =>
    rw [Function.update_apply] at h
    split at h
    · next hk => exact .inr ⟨hk, (Option.some.inj h).symm⟩
    · exact .inl (hd ▸ h)
  · exact .inl h

theorem NodeStep.grown {task : ℕ} {op : ServiceOp} {r : Except ServiceError op.Reply}
    (step : NodeStep P task op r w v) (g : ServiceGrows w.service v.service) :
    SigningGrows P w (v.record task op r) := by
  obtain ⟨accepted, mined, receipts⟩ := record_chains (w := v) task op r
  refine ⟨(record_service (w := v) task op r).symm ▸ g,
    List.Subset.trans (step.calls ▸ List.Subset.refl _) (record_calls _ _ _), fun out => ?_⟩
  refine out.grown ?_ ?_ ?_
  · rw [mined, step.mined]
  · rw [accepted]
    rcases step.accepted with same | ⟨_, _, _, more⟩
    · exact same ▸ List.Subset.refl _
    · exact more ▸ List.subset_cons_self _ _
  · intro hash h
    rwa [receipts, step.receipts]

/-- What a reply from a node says of what is out. -/
theorem NodeStep.replied {task : ℕ} {op : ServiceOp} {a : op.Reply}
    (valid : SigningValid P infos w) (step : NodeStep P task op (.ok a) w v)
    (g : SigningGrows P w (v.record task op (.ok a))) (licence : InTurn P task op w) :
    signingTold P op a (v.record task op (.ok a)) := by
  have told := step.told
  obtain ⟨accepted, mined, receipts⟩ := record_chains (w := v) task op (.ok a)
  cases op with
  | resolveWithdrawalCall index => exact ⟨task, List.mem_cons_self⟩
  | sendRawTransaction chainId raw =>
    exact ⟨told.1, fun nonce carries => .inr ⟨raw, carries, .inl (accepted ▸ told.2)⟩⟩
  | transactionReceipt chainId hash =>
    rintro raw nonce rfl carries
    refine .inr ⟨raw, carries, .inr ?_⟩
    rw [receipts]
    exact Option.isSome_iff_exists.mpr ⟨_, told⟩
  | lastBroadcastHash c index =>
    rintro hash rfl
    obtain ⟨answer, performed⟩ := step.service
    have known := Except.ok.inj (lastBroadcastHash_reply performed)
    exact (valid.hashes c index hash known.symm).mono g.calls
  | broadcastingMissing c index nonce =>
    intro i hi queued
    obtain ⟨answer, performed⟩ := step.service
    obtain ⟨-, same⟩ := Prod.mk.inj (Option.some.inj performed)
    rw [record_service, ← same] at queued
    exact (licence i hi queued).grown g
  | _ => trivial

theorem NodeStep.polled {task : ℕ} {op : ServiceOp} {a : op.Reply}
    (step : NodeStep P task op (.ok a) w v) (licence : InTurn P task op w)
    (g : SigningGrows P w (v.record task op (.ok a)))
    (marks : MarksSettled BroadcastWorld.service (SentOut P) (v.record task op (.ok a))) :
    pollTold BroadcastWorld.service (SentOut P) op a (v.record task op (.ok a)) := by
  obtain ⟨answer, performed⟩ := step.service
  cases op with
  | highWaterMark c =>
    intro m hm i hi
    refine marks c m ?_ i hi
    rw [record_service, ← highWaterMark_reply performed, hm]
  | appendPending pending j chainId =>
    cases chainId with
    | none => trivial
    | some c =>
      obtain ⟨-, same⟩ := Prod.mk.inj (Option.some.inj performed)
      intro i hi queued why
      rw [record_service, ← same] at queued why
      exact (licence i hi queued why).grown g
  | _ => trivial

theorem NodeStep.hashes {task : ℕ} {op : ServiceOp} {r : Except ServiceError op.Reply}
    (valid : SigningValid P infos w) (pre : signingPre P op w) (step : NodeStep P task op r w v)
    (c : U256) (i : ℕ) (hash : Bytes32) (h : v.service.lastBroadcastHash c i = some hash) :
    w.Signed P i hash := by
  obtain ⟨answer, performed⟩ := step.service
  rcases servicePerform_cases performed with ⟨a, hm, -⟩ | ⟨same, -⟩
  · rcases memoryAccess_hashes hm with same | ⟨d, k, x, rfl, hv⟩
    · exact valid.hashes c i hash (same ▸ h)
    · rcases rememberBroadcast_hash (hv ▸ h) with old | ⟨rfl, rfl⟩
      · exact valid.hashes c i hash old
      · exact pre
  · exact valid.hashes c i hash (same ▸ h)

theorem NodeStep.signs {task i : ℕ} {op : ServiceOp} {r : Except ServiceError op.Reply}
    {raw : Bytes} (valid : SigningValid P infos w) (pre : signingPre P op w)
    (step : NodeStep P task op r w v)
    (g : SigningGrows P w (v.record task op r)) (h : (v.record task op r).Returned i raw) :
    w.Returned i raw ∨ (v.record task op r).service.Resolved i ∧
      ∃ p, (v.record task op r).service.accounting.payout? i = some p ∧
        Carries P p.target.1 p.nonce.toNat raw := by
  obtain ⟨t, ht⟩ := h
  rcases mem_record ht with ht | ht
  · exact .inl ⟨t, step.calls ▸ ht⟩
  · cases ht
    obtain ⟨answer, performed⟩ := step.service
    obtain ⟨p, hp, carries⟩ := servicePerform_signs valid performed
    exact .inr ⟨g.service.resolved pre, p, g.service.accounting.extension.payout hp, carries⟩

/-- A step of the world that takes nothing back that was signed, sent or mined. -/
theorem SigningValid.frame (valid : SigningValid P infos w)
    (kept : ServiceValid P infos v.service ∧ ServiceGrows w.service v.service)
    (calls : v.calls = w.calls)
    (out : ∀ {chainId nonce}, w.Out P chainId nonce → v.Out P chainId nonce)
    (hashes : ∀ c i hash, v.service.lastBroadcastHash c i = some hash →
      w.service.lastBroadcastHash c i = some hash)
    (marks : ∀ c m, v.service.chainHighWaterMark c = some m →
      w.service.chainHighWaterMark c = some m) :
    SigningValid P infos v ∧ SigningGrows P w v := by
  have grown : SigningGrows P w v := ⟨kept.2, calls ▸ List.Subset.refl _, out⟩
  refine ⟨valid.keep kept.1 grown (fun i raw ⟨t, ht⟩ => .inl ⟨t, calls ▸ ht⟩)
    (fun c i hash hh => (valid.hashes c i hash (hashes c i hash hh)).mono grown.calls)
    fun c m hm i hi => grown.settled (valid.marks c m (marks c m hm) i hi), grown⟩

theorem Out.mine {c : U256} {nonce : ℕ} (h : w.Out P c nonce) (chainId : U256) (raw : Bytes)
    (status : ℕ) : (w.mine P chainId raw status).Out P c nonce := by
  refine h.grown ?_ (List.Subset.refl _) fun hash hs => ?_
  · simp only [BroadcastWorld.mine, Function.update_apply]
    split
    · next hc => exact hc ▸ Nat.le_succ _
    · exact le_rfl
  · simp only [BroadcastWorld.mine, Function.update_apply]
    split
    · next hc =>
      rw [Function.update_apply]
      split
      · rfl
      · exact hc ▸ hs
    · exact hs

end Steps

section Programs

variable {α : Type}

/-- Bytes that `resolveWithdrawal(index)` returned are out on the chain. -/
def Delivered (P : Platform) (chainId : U256) (index : ℕ) (w : BroadcastWorld) : Prop :=
  ∃ raw, w.Returned index raw ∧ ∀ nonce, Carries P chainId nonce raw → w.Out P chainId nonce

theorem Delivered.grown {chainId : U256} {index : ℕ} (h : Delivered P chainId index w)
    (g : SigningGrows P w v) : Delivered P chainId index v := by
  obtain ⟨raw, returned, out⟩ := h
  exact ⟨raw, returned.mono g.calls, fun nonce carries => g.out (out nonce carries)⟩

theorem HashOut.grown {chainId : U256} {hash : Bytes32} (h : HashOut P w chainId hash)
    (g : SigningGrows P w v) : HashOut P v chainId hash :=
  fun raw nonce same carries => g.out (h raw nonce same carries)

end Programs

end Privana
