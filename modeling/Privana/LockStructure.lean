import Mathlib.Data.List.Range
import Privana.LockArray
import Privana.WithdrawalPayout

/-! The lock structure invariant. Lock ids are handed out once, in order, so a
lock of a reachable state is traced back to the one `createLock` that made it,
and a call that names a user and a lock id acts on that lock and no other. -/

namespace Privana
open BigEndian

variable {P : Platform} {m : Msg}

/-- What a successful `createLock` registers for good. -/
structure Creation where
  owner : Address
  lockId : U256
  serviceId : Address
  tokenId : Bytes32

def Receipt.creation? (e : Receipt P) : Option Creation :=
  match e.input.call with
  | .createLock serviceAddress tokenId .. =>
    (e.input.call.signer? P).map (⟨·, e.before.nextLockId, serviceAddress, tokenId⟩)
  | _ => none

def creations (log : List (Receipt P)) : List Creation := log.filterMap Receipt.creation?

def FundLock.origin (l : FundLock) (u : Address) : Creation := ⟨u, l.lockId, l.serviceId, l.tokenId⟩

def Receipt.lockTarget? (e : Receipt P) : Option (Address × U256) :=
  e.input.call.lockTarget? P

theorem creations_concat (log : List (Receipt P)) (e : Receipt P) :
    creations (log ++ [e]) = creations log ++ e.creation?.toList := by
  cases h : e.creation? <;> simp [creations, h]

/-- What is left of a lock is at most one lock, the same one. -/
theorem LockAct.left_cases {o : Output P} {u : Address} {l : FundLock} {call : Call}
    {left : List FundLock} (h : LockAct m o u l call left) :
    left = [] ∨ ∃ l', left = [l'] ∧ l'.origin u = l.origin u ∧ l.expiry ≤ l'.expiry ∧
      (l.amount ≠ 0 → l'.amount ≠ 0) := by
  have hpos {x y z : U256} (hx : x.toNat = y.toNat + z.toNat) (hy : y ≠ 0) : x ≠ 0 := by
    rintro rfl
    apply hy
    apply BitVec.eq_of_toNat_eq
    simp at hx ⊢
    omega
  cases h with
  | modify _ _ _ _ later added => exact .inr ⟨_, rfl, rfl, later, hpos added⟩
  | unlock => exact .inl rfl
  | drop => exact .inl rfl
  | transferFrom =>
    unfold remainder
    split
    · exact .inl rfl
    · next hn => exact .inr ⟨_, rfl, rfl, BitVec.le_refl _, fun _ => hn⟩
  | transferTo _ _ _ added => exact .inr ⟨_, rfl, rfl, BitVec.le_refl _, hpos added⟩
  | withdraw =>
    unfold remainder
    split
    · exact .inl rfl
    · next hn => exact .inr ⟨_, rfl, rfl, BitVec.le_refl _, fun _ => hn⟩

/-- Only `createLock` hands out a lock id, the next one. -/
theorem Step.creation {tx : Tx} {s s' : State} {o : Output P} (h : Step P tx.msg tx.call s s' o) :
    (Receipt.creation? ⟨s, tx, o, s'⟩ = none ∧ s'.nextLockId = s.nextLockId) ∨
      ∃ c, Receipt.creation? ⟨s, tx, o, s'⟩ = some c ∧ c.lockId = s.nextLockId ∧
        s'.nextLockId.toNat = s.nextLockId.toNat + 1 := by
  obtain ⟨msg, call⟩ := tx
  cases h with
  | @createLock _ serviceAddress tokenId _ _ _ _ _ _ a _ _ _ message signed _ _ _ nextId =>
    refine .inr ⟨⟨a.signer, s.nextLockId, serviceAddress, tokenId⟩, ?_, rfl, by simpa using nextId⟩
    simp only [Receipt.creation?, Call.signer?, Approval.recovers message signed, Option.map_some]
  | unlockSingleLock _ unlock =>
    obtain ⟨_, _, _, _, rfl⟩ := unlock.moved
    exact .inl ⟨rfl, by simp⟩
  | unlockAllExpiredLocks unlocks =>
    obtain ⟨_, _, _, rfl⟩ := unlocks.frame
    exact .inl ⟨rfl, by simp⟩
  | withdrawFromLock _ _ _ _ _ _ _ _ _ _ schedules =>
    obtain ⟨_, _, rfl⟩ := schedules.queued
    exact .inl ⟨rfl, by simp⟩
  | requestWithdrawal _ _ _ _ _ schedules =>
    obtain ⟨_, _, rfl⟩ := schedules.queued
    exact .inl ⟨rfl, by simp⟩
  | transferFromLock => exact .inl ⟨rfl, by split_ifs <;> simp⟩
  | transferBalance => exact .inl ⟨rfl, by split_ifs <;> simp⟩
  | _ => exact .inl ⟨rfl, by simp⟩

/-- The part of the lock structure that one step preserves. -/
structure LockInvariant (log : List (Receipt P)) (s : State) : Prop where
  issued : (creations log).map (·.lockId.toNat) = List.range' 1 (s.nextLockId.toNat - 1)
  next_pos : 1 ≤ s.nextLockId.toNat
  nodup : ∀ u, ((s.activeLocks u).map (·.lockId)).Nodup
  origin : ∀ u, ∀ l ∈ s.activeLocks u, l.origin u ∈ creations log
  nonzero : ∀ u, ∀ l ∈ s.activeLocks u, l.amount ≠ 0
  atMostTen : ∀ u, (s.activeLocks u).length ≤ 10

namespace LockInvariant

variable {log : List (Receipt P)} {s : State}

theorem lockId_lt (h : LockInvariant log s) {c : Creation} (hc : c ∈ creations log) :
    1 ≤ c.lockId.toNat ∧ c.lockId.toNat < s.nextLockId.toNat := by
  have hm := List.mem_map_of_mem (f := fun c : Creation => c.lockId.toNat) hc
  rw [h.issued, List.mem_range'_1] at hm
  have := h.next_pos
  omega

/-- No active lock has the id that is handed out next. -/
theorem fresh (h : LockInvariant log s) (u : Address) : ∀ l ∈ s.activeLocks u,
    l.lockId ≠ s.nextLockId := by
  intro l hl he
  have hlt := (h.lockId_lt (h.origin u l hl)).2
  rw [FundLock.origin, he] at hlt
  exact Nat.lt_irrefl _ hlt

/-- A lock id was handed out once. -/
theorem creation_unique (h : LockInvariant log s) {c d : Creation} (hc : c ∈ creations log)
    (hd : d ∈ creations log) (he : c.lockId = d.lockId) : c = d := by
  have hn : ((creations log).map (·.lockId.toNat)).Nodup := by
    rw [h.issued]
    exact List.nodup_range'
  exact List.inj_on_of_nodup_map hn hc hd (congrArg BitVec.toNat he)

theorem init (evm gasTank : Address × Bytes32) :
    LockInvariant (P := P) [] (accountingInit evm gasTank) where
  issued := rfl
  next_pos := Nat.le_refl 1
  nodup u := List.nodup_nil
  origin u := by simp [accountingInit, State.activeLocks]
  nonzero u := by simp [accountingInit, State.activeLocks]
  atMostTen u := by simp [accountingInit, State.activeLocks]

end LockInvariant

/-- Each user's array stays well formed, whatever the step does to it. -/
theorem LockChange.wellFormed {call : Call} {o : Output P} {nextLockId : U256} {u : Address}
    {xs ys : List FundLock} (h : LockChange m call o nextLockId u xs ys)
    (nodup : (xs.map (·.lockId)).Nodup) (nonzero : ∀ l ∈ xs, l.amount ≠ 0)
    (atMostTen : xs.length ≤ 10) (fresh : ∀ l ∈ xs, l.lockId ≠ nextLockId) :
    (ys.map (·.lockId)).Nodup ∧ (∀ l ∈ ys, l.amount ≠ 0) ∧ ys.length ≤ 10 := by
  cases h with
  | same => exact ⟨nodup, nonzero, atMostTen⟩
  | create _ _ _ _ positive room =>
    refine ⟨?_, ?_, by rw [List.length_append]; exact Nat.succ_le_of_lt room⟩
    · simp only [List.map_append, List.map_cons, List.map_nil]
      refine List.nodup_append.mpr ⟨nodup, List.nodup_singleton _, ?_⟩
      rintro a ha b hb rfl
      obtain ⟨l, hl, rfl⟩ := List.mem_map.mp ha
      exact fresh l hl (List.mem_singleton.mp hb)
    · intro l hl
      rcases List.mem_append.mp hl with hl | hl
      · exact nonzero l hl
      · obtain rfl := List.mem_singleton.mp hl
        exact positive
  | @act _ locks _ l found acts kept =>
    have hn := ((found.map (·.lockId)).nodup_iff).mp nodup
    have hlen := found.length_eq
    simp only [List.map_cons, List.nodup_cons, List.length_cons] at hn hlen
    have hz : ∀ x ∈ locks, x.amount ≠ 0 := fun x hx =>
      nonzero x (found.mem_iff.mpr (List.mem_cons_of_mem _ hx))
    rcases acts.left_cases with rfl | ⟨l', rfl, hid, -, hne⟩
    · refine ⟨((kept.map _).nodup_iff).mpr hn.2, fun x hx => hz x (kept.mem_iff.mp hx), ?_⟩
      rw [kept.length_eq, List.nil_append]
      omega
    · have hid' : l'.lockId = l.lockId := congrArg Creation.lockId hid
      refine ⟨((kept.map _).nodup_iff).mpr ?_, fun x hx => ?_, ?_⟩
      · simpa [hid'] using hn
      · rcases List.mem_cons.mp (kept.mem_iff.mp hx) with rfl | hx
        · exact hne (nonzero l (found.mem_iff.mpr List.mem_cons_self))
        · exact hz x hx
      · rw [kept.length_eq, List.singleton_append, List.length_cons]
        omega
  | unlockAll _ found =>
    have hn := ((found.map (·.lockId)).nodup_iff).mp nodup
    have hlen := found.length_eq
    rw [List.map_append] at hn
    rw [List.length_append] at hlen
    refine ⟨(List.nodup_append.mp hn).2.1, fun l hl => ?_, by omega⟩
    exact nonzero l (found.mem_iff.mpr (List.mem_append_right _ hl))

/-- A lock that is active after a step was active before it, or the step created it. -/
theorem LockChange.origin {tx : Tx} {o : Output P} {s s' : State} {u : Address}
    (h : LockChange tx.msg tx.call o s.nextLockId u (s.activeLocks u) (s'.activeLocks u))
    {l : FundLock} (hl : l ∈ s'.activeLocks u) :
    (∃ l₀ ∈ s.activeLocks u, l.origin u = l₀.origin u) ∨
      Receipt.creation? ⟨s, tx, o, s'⟩ = some (l.origin u) := by
  generalize hx : s.activeLocks u = xs at h ⊢
  generalize hy : s'.activeLocks u = ys at h hl
  cases h with
  | same => exact .inl ⟨l, hl, rfl⟩
  | create created signed owner message =>
    rcases List.mem_append.mp hl with hl | hl
    · exact .inl ⟨l, hl, rfl⟩
    · obtain rfl := List.mem_singleton.mp hl
      right
      simp [Receipt.creation?, Call.signer?, created, Approval.recovers message signed, owner,
        FundLock.origin]
  | act found acts kept =>
    left
    rcases List.mem_append.mp (kept.mem_iff.mp hl) with hl | hl
    · rcases acts.left_cases with rfl | ⟨l', rfl, hid, -, -⟩
      · cases hl
      · obtain rfl := List.mem_singleton.mp hl
        exact ⟨_, found.mem_iff.mpr List.mem_cons_self, hid⟩
    · exact ⟨l, found.mem_iff.mpr (List.mem_cons_of_mem _ hl), rfl⟩
  | unlockAll _ found => exact .inl ⟨l, found.mem_iff.mpr (List.mem_append_right _ hl), rfl⟩

theorem LockInvariant.step {log : List (Receipt P)} {s s' : State} {tx : Tx} {o : Output P}
    (h : LockInvariant log s) (hs : Step P tx.msg tx.call s s' o) :
    LockInvariant (log ++ [⟨s, tx, o, s'⟩]) s' := by
  have hwf (u : Address) :=
    (hs.lockChange u).wellFormed (h.nodup u) (h.nonzero u) (h.atMostTen u) (h.fresh u)
  have hnext := hs.creation
  refine ⟨?_, ?_, fun u => (hwf u).1, fun u l hl => ?_, fun u => (hwf u).2.1, fun u => (hwf u).2.2⟩
  · rw [creations_concat, List.map_append, h.issued]
    rcases hnext with ⟨hc, hn⟩ | ⟨c, hc, hid, hn⟩
    · rw [hc, hn]
      simp
    · have hsucc : s'.nextLockId.toNat - 1 = s.nextLockId.toNat - 1 + 1 := by
        have := h.next_pos
        omega
      have hlast : 1 + (s.nextLockId.toNat - 1) = s.nextLockId.toNat := by
        have := h.next_pos
        omega
      rw [hc, hsucc, List.range'_concat, Nat.one_mul, hlast]
      simp [hid]
  · have := h.next_pos
    rcases hnext with ⟨-, hn⟩ | ⟨-, -, -, hn⟩
    · rwa [hn]
    · omega
  · rw [creations_concat, List.mem_append]
    rcases (hs.lockChange u).origin hl with ⟨l₀, hl₀, ho⟩ | hc
    · exact .inl (ho ▸ h.origin u l₀ hl₀)
    · simp [hc]

theorem lockInvariant_run (evm gasTank : Address × Bytes32) (txs : List Tx) :
    LockInvariant ((accounting P).log (accountingInit evm gasTank) txs)
      ((accounting P).run (accountingInit evm gasTank) txs) :=
  (accounting P).run_induction (LockInvariant.init evm gasTank)
    (fun _ _ _ _ _ h hx => h.step (execute_step hx)) txs

/-- Receipt `e` acts on the lock that was created as `lockId` for user `u`: that
lock is found, changed as the call says, and nothing else in any array moves. -/
def ActsOn (log : List (Receipt P)) (e : Receipt P) (u : Address) (lockId : U256) : Prop :=
  ∃ l locks left, l.lockId = lockId ∧ (e.before.activeLocks u).Perm (l :: locks) ∧
    (∀ x ∈ locks, x.lockId ≠ lockId) ∧ l.origin u ∈ creations log ∧
    LockAct e.input.msg e.output u l e.input.call left ∧
    (e.after.activeLocks u).Perm (left ++ locks) ∧
    ∀ w, w ≠ u → e.after.activeLocks w = e.before.activeLocks w

/-- Receipt `e` gives back the expired locks of user `u` and keeps all others. -/
def ReleasesExpired (e : Receipt P) (u : Address) : Prop :=
  (e.after.activeLocks u).Perm
      ((e.before.activeLocks u).filter fun l => e.input.msg.timestamp < l.expiry) ∧
    ∀ w, w ≠ u → e.after.activeLocks w = e.before.activeLocks w

theorem LockInvariant.actsOn {log : List (Receipt P)} {s s' : State} {tx : Tx} {o : Output P}
    (h : LockInvariant log s) (hs : Step P tx.msg tx.call s s' o) {u : Address} {lockId : U256}
    (ht : Receipt.lockTarget? ⟨s, tx, o, s'⟩ = some (u, lockId)) :
    ActsOn log ⟨s, tx, o, s'⟩ u lockId := by
  obtain ⟨l, locks, left, hid, found, acts, kept, others⟩ := hs.lockAct ht
  refine ⟨l, locks, left, hid, found, fun x hx he => ?_, ?_, acts, kept, others⟩
  · have hn := ((found.map (·.lockId)).nodup_iff).mp (h.nodup u)
    rw [List.map_cons, List.nodup_cons] at hn
    exact hn.1 (List.mem_map.mpr ⟨x, hx, he.trans hid.symm⟩)
  · exact h.origin u l (found.mem_iff.mpr List.mem_cons_self)

theorem LockInvariant.releasesExpired {log : List (Receipt P)} {s s' : State} {tx : Tx}
    {o : Output P} (h : LockInvariant log s) (hs : Step P tx.msg tx.call s s' o) {u : Address}
    (hu : tx.call = .unlockAllExpiredLocks u) : ReleasesExpired ⟨s, tx, o, s'⟩ u := by
  rw [hu] at hs
  cases hs with
  | @unlockAllExpiredLocks _ _ _ ls _ unlocks rest =>
    obtain ⟨found, others, expired⟩ := unlocks.activeLocks
    refine ⟨?_, others⟩
    have hafter : ∀ l ∈ s'.activeLocks u, tx.msg.timestamp < l.expiry := by
      intro l hl
      have hz := h.nonzero u l (found.mem_iff.mpr (List.mem_append_right _ hl))
      have hpos : 0 < l.amount := (BitVec.pos_iff_ne_zero _).mpr hz
      exact BitVec.not_le.mp fun hle => rest l hl ⟨hle, hpos⟩
    have hp := (found.filter fun l => decide (tx.msg.timestamp < l.expiry)).symm
    have hremoved : ls.filter (fun l => decide (tx.msg.timestamp < l.expiry)) = [] := by
      rw [List.filter_eq_nil_iff]
      intro l hl
      simpa using expired l hl
    have hkept : (s'.activeLocks u).filter (fun l => decide (tx.msg.timestamp < l.expiry)) =
        s'.activeLocks u := by
      rw [List.filter_eq_self]
      intro l hl
      simpa using hafter l hl
    rwa [List.filter_append, hremoved, hkept, List.nil_append] at hp

/-- The lock structure of a state that a run with receipts `log` reaches. -/
structure LockStructure (log : List (Receipt P)) (s : State) : Prop where
  distinct : ∀ u, ((s.activeLocks u).map (·.lockId)).Nodup ∧
    ∀ v, u ≠ v → ∀ l ∈ s.activeLocks u, ∀ l' ∈ s.activeLocks v, l.lockId ≠ l'.lockId
  range : ∀ u, ∀ l ∈ s.activeLocks u, 1 ≤ l.lockId ∧ l.lockId < s.nextLockId
  nonzero : ∀ u, ∀ l ∈ s.activeLocks u, l.amount ≠ 0
  atMostTen : ∀ u, (s.activeLocks u).length ≤ 10
  created : ∀ u, ∀ l ∈ s.activeLocks u, l.origin u ∈ creations log
  createdOnce : ((creations log).map (·.lockId)).Nodup
  acts : ∀ e ∈ log, ∀ u lockId, e.lockTarget? = some (u, lockId) → ActsOn log e u lockId
  releases : ∀ e ∈ log, ∀ u, e.input.call = .unlockAllExpiredLocks u → ReleasesExpired e u

theorem ActsOn.mono {log : List (Receipt P)} {e x : Receipt P} {u : Address} {lockId : U256}
    (h : ActsOn log e u lockId) : ActsOn (log ++ [x]) e u lockId := by
  obtain ⟨l, locks, left, hid, found, other, origin, rest⟩ := h
  refine ⟨l, locks, left, hid, found, other, ?_, rest⟩
  rw [creations_concat]
  exact List.mem_append_left _ origin

/-- Lock structure: in every reachable state the active locks carry distinct ids
in range, hold something and are at most ten for a user, and every call of the run
that addressed a lock by user and id acted on the lock created with that id for
that user, whatever order the arrays were left in. -/
theorem lock_structure (P : Platform) (evm gasTank : Address × Bytes32) (txs : List Tx) :
    LockStructure ((accounting P).log (accountingInit evm gasTank) txs)
      ((accounting P).run (accountingInit evm gasTank) txs) := by
  have h := (accounting P).run_induction
    (I := fun log s => LockInvariant log s ∧
      (∀ e ∈ log, ∀ u lockId, Receipt.lockTarget? e = some (u, lockId) →
        ActsOn log e u lockId) ∧
      ∀ e ∈ log, ∀ u, e.input.call = .unlockAllExpiredLocks u → ReleasesExpired e u)
    (s := accountingInit evm gasTank) ⟨.init evm gasTank, by simp, by simp⟩
    (fun log s tx s' o ⟨hi, ha, hr⟩ hx => by
      have hs : Step P tx.msg tx.call s s' o := execute_step hx
      refine ⟨hi.step hs, fun e he u lockId ht => ?_, fun e he u hu => ?_⟩
      · rcases List.mem_append.mp he with he | he
        · exact (ha e he u lockId ht).mono
        · obtain rfl := List.mem_singleton.mp he
          exact (hi.actsOn hs ht).mono
      · rcases List.mem_append.mp he with he | he
        · exact hr e he u hu
        · obtain rfl := List.mem_singleton.mp he
          exact hi.releasesExpired hs hu) txs
  obtain ⟨hi, ha, hr⟩ := h
  refine ⟨fun u => ⟨hi.nodup u, fun v huv l hl l' hl' he => ?_⟩, fun u l hl => ?_, hi.nonzero,
    hi.atMostTen, hi.origin, ?_, ha, hr⟩
  · exact huv (congrArg Creation.owner
      (hi.creation_unique (hi.origin u l hl) (hi.origin v l' hl') he))
  · have := hi.lockId_lt (hi.origin u l hl)
    exact ⟨BitVec.le_def.mpr this.1, BitVec.lt_def.mpr this.2⟩
  · have hn : ((creations ((accounting P).log (accountingInit evm gasTank) txs)).map
        (·.lockId.toNat)).Nodup := hi.issued ▸ List.nodup_range'
    exact List.Nodup.of_map BitVec.toNat (by simpa [Function.comp_def] using hn)

def sampleLockMessage : Message :=
  .lock 0xd41c057fd1c78805aac12b0a94a405c0461a6fbb sampleTokenId 6 1700000100 0

def sampleLockStructHash : Bytes32 :=
  0x8f95231de61ff74a20374293de0d6ccfa63fff163400115e60602b734fb399a8

def sampleLockDigest : Bytes32 := 0xedd42ef6aa50f4b6c43949bbcdafe70869e804951b5bc9f43376dda6d0e89eab

def sampleLockSignature : Bytes :=
  word 0xf28773c2d975288bc7d1d205c3748651b075fbc6610e58cddeeddf8f19405aa8 ++
    word 0x690a59b5c6a553bc2de5f851cc6330b77954bc305930dfbce625fca96f034338 ++ [27]

/-- The messages the user signs in the sample run, with struct hash, digest and signature. -/
def sampleSigned : List (Message × Bytes32 × Bytes32 × Bytes) :=
  [(sampleLockMessage, sampleLockStructHash, sampleLockDigest, sampleLockSignature),
    (.lock 0xd41c057fd1c78805aac12b0a94a405c0461a6fbb sampleTokenId 7 1700000200 1,
      0x2abf8d3096bd8de2becd93be07f753f8373ca2e9f3005a8b4ab34e440c46b280,
      0xac04d6af514ed97a7095d32e3b9901b5af102fc4fe5f1653ccfb2f64bfe86ea4,
      word 0xd7924d4f7d43ea965a465ae3095ff41131e5946f3c85f79e44adbcf8e27e080e ++
        word 0x686882958c8ec57062efa06cf8e6e1ba0632a088061354ad34e93662eb106a0f ++ [28]),
    (.lock 0xd41c057fd1c78805aac12b0a94a405c0461a6fbb sampleTokenId 8 1700000300 2,
      0xaf25867970b81f88259df8290d68ff24e768e71b7192975e3f61ffed5e90aa63,
      0xa395d47d7d4ff59ba35c22fd04961f1039179e17e00f037a9afa574830d028fd,
      word 0xdefdea4cdb677750a420fee807eacf21eb9898ae79b9768766e4faa04a2d4a34 ++
        word 0x5a446f876605045d1bc3d48f5cf38a0adb297f6f7786ff50ab22364abb862b22 ++ [28]),
    (.modifyLock 3 5 1700000400 0,
      0x58efdb501a9b12f8ab16775a06da1388f99bdc1904befa411b28b820b49ddc7d,
      0xf0dad0b3a313f7b07a6805404576e639e62960b82ef1704684c4d10d3def0514,
      word 0x2b4ea0a797a443d293ef5cff444f4979f06acfebd7e86d277475656138385b6c ++
        word 0x1dd25179999dd3a4595d3817c1f259cf1f49e539a63eae41da53e0bffed5105c ++ [28])]

def sampleSignedPlatform : Platform :=
  { samplePlatform with
    keccak256 := fun bs => ((sampleKeccak ++ sampleSigned.flatMap fun (message, hash, digest, _) =>
      [(abiEncode (sampleTypehash message.kind :: message.words), hash),
        ([0x19, 0x01] ++ word sampleDomain ++ word hash, digest)]).lookup bs).getD 0
    recover := fun digest signature =>
      if (digest, signature) ∈ sampleSigned.map (·.2.2) then some sampleUser else none }

/-- Three locks are made, the first is given back, which moves the third to its
place, and the third is modified. -/
def sampleSignedTxs : List Tx :=
  let rofl (blockNumber : U256) : Msg := ⟨sampleUser, true, blockNumber, 1700000000⟩
  let late (blockNumber : U256) : Msg := ⟨sampleUser, false, blockNumber, 1700000100⟩
  [⟨rofl 1, .setTokenInfo sampleToken⟩, ⟨rofl 2, .creditDeposit sampleUser sampleTokenId 30 7⟩] ++
    sampleSigned.filterMap (fun
      | (.lock serviceAddress tokenId amount expiry nonce, _, _, signature) =>
        some ⟨rofl 3, .createLock serviceAddress tokenId amount expiry nonce signature⟩
      | _ => none) ++
    [⟨late 4, .unlockSingleLock sampleUser 1⟩] ++
    sampleSigned.filterMap (fun
      | (.modifyLock lockId amount newExpiry nonce, _, _, signature) =>
        some ⟨late 5, .modifyLock lockId amount newExpiry nonce signature⟩
      | _ => none)

theorem lock_structure_sample :
    let log := (accounting sampleSignedPlatform).log (accountingInit sampleEvm sampleGasTank)
      sampleSignedTxs
    let s := (accounting sampleSignedPlatform).run (accountingInit sampleEvm sampleGasTank)
      sampleSignedTxs
    LockStructure log s ∧ log.filterMap Receipt.lockTarget? = [(sampleUser, 1), (sampleUser, 3)] ∧
      (s.activeLocks sampleUser).map (fun l => (l.lockId, l.amount, l.expiry)) =
        [(3, 13, 1700000400), (2, 7, 1700000200)] :=
  ⟨lock_structure sampleSignedPlatform sampleEvm sampleGasTank sampleSignedTxs,
    by decide +kernel, by decide +kernel⟩

end Privana
