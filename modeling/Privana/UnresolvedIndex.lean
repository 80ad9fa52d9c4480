import Privana.Typestate
import Privana.WithdrawalIndex

/-! The index loses and invents no unresolved withdrawal. The lock is what makes a batch
start where the last one ended: only the task that holds it writes batches, and it has
read the end of the index since it took the lock. -/

namespace Privana
open BigEndian Coroutine ServiceOp

variable {P : Platform} {w v : ServiceWorld}

/-- Where a task is around the lock, and the end of the index if it has read it inside. -/
inductive LockPhase where
  | outside
  | inside (scanned : Option ℕ)

namespace LockPhase

def May : LockPhase → ServiceOp → Prop
  | .outside, op => op ≠ releaseWithdrawalsLock ∧ ∀ start results, op ≠ indexWithdrawals start results
  | .inside scanned, op => op ≠ acquireWithdrawalsLock ∧
    ∀ start results, op = indexWithdrawals start results → scanned = some start

def after : LockPhase → (op : ServiceOp) → Except ServiceError op.Reply → LockPhase
  | .outside, acquireWithdrawalsLock, .ok _ => .inside none
  | .inside _, releaseWithdrawalsLock, .ok _ => .outside
  | .inside _, withdrawalsScanned, .ok n => .inside (some n)
  | .inside _, indexWithdrawals start results, .ok _ => .inside (some (start + results.length))
  | x, _, _ => x

def Knows (task : ℕ) : LockPhase → ServiceWorld → Prop
  | .outside, w => w.withdrawalsLock ≠ some task
  | .inside scanned, w => w.withdrawalsLock = some task ∧
    ∀ n, scanned = some n → w.withdrawalsScanned = n

end LockPhase

def lockTypestate : Typestate ServiceWorld ServiceOp ServiceOp.Reply ServiceError LockPhase where
  may := LockPhase.May
  reply _ _ := True
  after := LockPhase.after
  world n w := ∀ task, w.withdrawalsLock = some task → task < n
  knows := LockPhase.Knows
  ended := .outside

section Programs

theorem LockPhase.may_read (x : LockPhase) (indices : List ℕ) : x.May (withdrawals indices) := by
  cases x <;> exact ⟨by simp, by simp⟩

theorem LockPhase.after_read (x : LockPhase) (indices : List ℕ)
    (r : Except ServiceError (List WithdrawalRequest)) :
    lockTypestate.after x (withdrawals indices) r = x := by
  cases x <;> rfl

theorem readBatches_follows (n : ℕ) (indices : List ℕ) (x : LockPhase) :
    (readBatches n indices).Follows lockTypestate (fun _ y => y = x) x := by
  induction n generalizing indices with
  | zero => rfl
  | succ n ih =>
    unfold readBatches
    split
    · rfl
    · refine Follows.await (x.may_read _) (fun results _ => ?_) fun e _ => x.after_read _ _
      rw [x.after_read]
      exact Follows.bind (ih _) (fun rest y hy => hy) fun e y hy => hy

theorem readWithdrawals_follows (indices : List ℕ) (x : LockPhase) :
    (readWithdrawals indices).Follows lockTypestate (fun r y => y = x ∧
      ∀ results, r = .ok results → results.length = indices.length) x := by
  refine Follows.bind (readBatches_follows _ _ x) (fun results y hy => ?_) fun e y hy =>
    ⟨hy, by simp⟩
  dsimp only
  split
  · exact ⟨hy, by simp⟩
  · next hlen => exact ⟨hy, by simpa using hlen⟩

theorem indexFromSeen_follows (count n start : ℕ) {scanned : Option ℕ}
    (at_start : start < count → scanned = some start) :
    (indexFromSeen count n start).Follows lockTypestate (fun _ y => ∃ m, y = .inside m)
      (.inside scanned) := by
  induction n generalizing start scanned with
  | zero => exact ⟨_, rfl⟩
  | succ n ih =>
    unfold indexFromSeen
    split
    · next hlt =>
      refine Follows.bind (readWithdrawals_follows _ _) (fun results y hy => ?_) fun e y hy =>
        ⟨_, hy.1⟩
      obtain ⟨rfl, hlen⟩ := hy
      have hlen := hlen results rfl
      rw [List.length_range'] at hlen
      refine Follows.await ⟨by simp, fun s r h => ?_⟩ (fun _ _ => ?_) fun e _ => ⟨_, rfl⟩
      · cases h
        exact at_start hlt
      · refine Follows.bind (ih _ fun hlt' => congrArg some (by omega)) (fun seen y hy => hy)
          fun e y hy => hy
    · exact ⟨_, rfl⟩

theorem refreshSeen_follows :
    refreshSeen.Follows lockTypestate (fun _ _ => True) .outside := by
  refine Follows.await ⟨by simp, by simp⟩ (fun count _ => ?_) fun _ _ => trivial
  refine Follows.await ⟨by simp, by simp⟩ (fun scanned _ => ?_) fun _ _ => trivial
  split
  · trivial
  · refine Follows.await ⟨by simp, by simp⟩ (fun _ _ => ?_) fun _ _ => trivial
    refine Follows.settle (R := fun _ y => ∃ m, y = .inside m) ?_ fun r y hy => ?_
    · refine Follows.await ⟨by simp, by simp⟩ (fun firstNew _ => ?_) fun e _ => ⟨_, rfl⟩
      exact Follows.bind (indexFromSeen_follows _ _ _ fun _ => rfl) (fun seen y hy => hy)
        fun e y hy => hy
    · obtain ⟨m, rfl⟩ := hy
      exact ⟨⟨by simp, by simp⟩, fun r' _ => by cases r' <;> trivial⟩

theorem LockPhase.may_plain (x : LockPhase) {op : ServiceOp} (acquire : op ≠ acquireWithdrawalsLock)
    (release : op ≠ releaseWithdrawalsLock)
    (index : ∀ start results, op ≠ indexWithdrawals start results) : x.May op := by
  cases x with
  | outside => exact ⟨release, index⟩
  | inside scanned => exact ⟨acquire, fun start results h => absurd h (index start results)⟩

theorem collectUnresolved_follows (resolved candidates : List ℕ) (x : LockPhase) :
    (collectUnresolved resolved candidates).Follows lockTypestate (fun _ _ => True) x := by
  induction candidates generalizing x with
  | nil => trivial
  | cons index candidates ih =>
    unfold collectUnresolved
    split
    · exact Follows.await (x.may_plain (by simp) (by simp) (by simp)) (fun _ _ => ih _)
        fun _ _ => trivial
    · refine Follows.await (x.may_plain (by simp) (by simp) (by simp)) (fun entry _ => ?_)
        fun _ _ => trivial
      refine Follows.bind (ih _) (fun pending y _ => ?_) fun _ _ _ => trivial
      cases entry <;> trivial

theorem listing_follows (user : Option Address) :
    (listing user).Follows lockTypestate (fun _ _ => True) .outside := by
  refine Follows.bind refreshSeen_follows (fun (count, seen) x _ => ?_) fun _ _ _ => trivial
  refine Follows.await (x.may_plain (by simp) (by simp) (by simp)) (fun entries _ => ?_)
    fun _ _ => trivial
  refine Follows.bind (readWithdrawals_follows _ _) (fun results y _ => ?_) fun _ _ _ => trivial
  exact Follows.bind (collectUnresolved_follows _ _ y) (fun _ _ _ => trivial) fun _ _ _ => trivial

end Programs

/-- What an access to the memory does to the lock and the end of the index. -/
theorem memoryAccess_lock {task : ℕ} {op : ServiceOp} {a : op.Reply}
    (h : memoryAccess task w op = some (a, v)) :
    v.withdrawalsLock = w.withdrawalsLock ∧ v.withdrawalsScanned = w.withdrawalsScanned ∨
      op = acquireWithdrawalsLock ∧ w.withdrawalsLock = none ∧ v.withdrawalsLock = some task ∨
      op = releaseWithdrawalsLock ∧ v.withdrawalsLock = none ∨
      ∃ start results, op = indexWithdrawals start results ∧ v = w.indexWithdrawals start results := by
  cases memoryAccess_step h with
  | acquireWithdrawalsLock free => exact .inr (.inl ⟨rfl, free, rfl⟩)
  | releaseWithdrawalsLock => exact .inr (.inr (.inl ⟨rfl, rfl⟩))
  | indexWithdrawals start results => exact .inr (.inr (.inr ⟨start, results, rfl, rfl⟩))
  | _ => exact .inl ⟨rfl, rfl⟩

theorem isMemory_of_memoryAccess {task : ℕ} {op : ServiceOp} {r : op.Reply × ServiceWorld}
    (h : memoryAccess task w op = some r) : op.isMemory = true := by
  cases op with
  | blockNumber | withdrawalCount | withdrawals | tokens | nonces | evmAddress
  | resolveWithdrawalCall | submitResolveWithdrawal | destinationWeb3 | transactionCount
  | sendRawTransaction | transactionReceipt | transaction => cases h
  | _ => rfl

theorem LockPhase.Knows.frame {j : ℕ} {y : LockPhase} (h : y.Knows j w)
    (lock : v.withdrawalsLock = w.withdrawalsLock)
    (scanned : v.withdrawalsScanned = w.withdrawalsScanned) : y.Knows j v := by
  cases y with
  | outside => exact fun held => h (lock.symm.trans held)
  | inside m => exact ⟨lock.trans h.1, fun n hn => scanned.trans (h.2 n hn)⟩

theorem indexPerform_memory {task : ℕ} {op : ServiceOp} {c : IndexAnswer}
    {r : Except ServiceError op.Reply} (memory : op.isMemory = true)
    (h : indexPerform P task op c w = some (r, v)) :
    ∃ a, memoryAccess task w op = some (a, v) ∧ r = .ok a := by
  have served : ∃ answer, servicePerform P task op answer w = some (r, v) := by
    cases c with
    | answer a => exact ⟨a, by cases op <;> exact h⟩
    | nodes lags => cases op <;> first | cases h | cases memory
  obtain ⟨answer, h⟩ := served
  unfold servicePerform at h
  simp only [memory, if_true] at h
  obtain ⟨⟨a, u⟩, hm, he⟩ := Option.map_eq_some_iff.mp h
  obtain ⟨rfl, rfl⟩ := Prod.mk.inj he
  exact ⟨a, hm, rfl⟩

theorem indexPerform_unchanged {task : ℕ} {op : ServiceOp} {c : IndexAnswer}
    {r : Except ServiceError op.Reply} (remote : op.isMemory = false)
    (h : indexPerform P task op c w = some (r, v)) : v = w := by
  have served (answer : Answer) (h : servicePerform P task op answer w = some (r, v)) : v = w := by
    rcases servicePerform_cases h with ⟨a, hm, -⟩ | ⟨rfl, -⟩
    · exact absurd (isMemory_of_memoryAccess hm) (by simp [remote])
    · rfl
  cases c with
  | answer a => exact served a (by cases op <;> exact h)
  | nodes lags =>
    cases op with
    | withdrawals indices =>
      simp only [indexPerform] at h
      split at h
      · split at h <;> cases h <;> rfl
      · cases h
    | _ => cases h

/-- An operation that leaves the lock and the end of the index alone. -/
theorem lock_plain {i : ℕ} {x : LockPhase} {op : ServiceOp} {c : IndexAnswer}
    {r : Except ServiceError op.Reply} (h : indexPerform P i op c w = some (r, v))
    (acquire : op ≠ acquireWithdrawalsLock) (release : op ≠ releaseWithdrawalsLock)
    (index : ∀ start results, op ≠ indexWithdrawals start results)
    (scanned : op ≠ withdrawalsScanned) :
    (v.withdrawalsLock = w.withdrawalsLock ∧ v.withdrawalsScanned = w.withdrawalsScanned) ∧
      x.after op r = x := by
  constructor
  · cases memory : op.isMemory with
    | true =>
      obtain ⟨a, hm, -⟩ := indexPerform_memory memory h
      rcases memoryAccess_lock hm with frame | ⟨rfl, -⟩ | ⟨rfl, -⟩ | ⟨start, results, rfl, -⟩
      · exact frame
      · exact absurd rfl acquire
      · exact absurd rfl release
      · exact absurd rfl (index start results)
    | false =>
      obtain rfl := indexPerform_unchanged memory h
      exact ⟨rfl, rfl⟩
  · cases op with
    | acquireWithdrawalsLock => exact absurd rfl acquire
    | releaseWithdrawalsLock => exact absurd rfl release
    | indexWithdrawals start results => exact absurd rfl (index start results)
    | withdrawalsScanned => exact absurd rfl scanned
    | _ => cases x <;> rfl

/-- Only one task is inside the lock. -/
theorem LockPhase.Knows.outside {i j : ℕ} {y : LockPhase} (held : w.withdrawalsLock = some i)
    (ne : j ≠ i) (h : y.Knows j w) : y = .outside := by
  cases y with
  | outside => rfl
  | inside m => exact absurd (Option.some.inj (h.1.symm.trans held)) ne

theorem lock_perform {n i : ℕ} {x : LockPhase} {op : ServiceOp} {c : IndexAnswer}
    {r : Except ServiceError op.Reply} (owner : ∀ task, w.withdrawalsLock = some task → task < n)
    (hi : i < n) (known : x.Knows i w) (may : x.May op)
    (h : indexPerform P i op c w = some (r, v)) :
    (∀ task, v.withdrawalsLock = some task → task < n) ∧ (x.after op r).Knows i v ∧
      ∀ j (y : LockPhase), j ≠ i → y.Knows j w → y.Knows j v := by
  have framed (lock : v.withdrawalsLock = w.withdrawalsLock)
      (scanned : v.withdrawalsScanned = w.withdrawalsScanned) :
      (∀ task, v.withdrawalsLock = some task → task < n) ∧ x.Knows i v ∧
        ∀ j (y : LockPhase), j ≠ i → y.Knows j w → y.Knows j v :=
    ⟨lock ▸ owner, known.frame lock scanned, fun j y _ hy => hy.frame lock scanned⟩
  cases op with
  | acquireWithdrawalsLock =>
    obtain ⟨a, hm, rfl⟩ := indexPerform_memory rfl h
    simp only [memoryAccess] at hm
    split at hm
    · next free =>
      obtain ⟨-, rfl⟩ := Prod.mk.inj (Option.some.inj hm)
      refine ⟨fun task held => Option.some.inj held ▸ hi, ?_, fun j y ne hy => ?_⟩
      · cases x with
        | outside => exact ⟨rfl, by simp⟩
        | inside m => exact absurd rfl may.1
      · cases y with
        | outside => exact fun held => ne (Option.some.inj held).symm
        | inside m => exact absurd (free.symm.trans hy.1) (by simp)
    · cases hm
  | releaseWithdrawalsLock =>
    obtain ⟨a, hm, rfl⟩ := indexPerform_memory rfl h
    obtain ⟨-, rfl⟩ := Prod.mk.inj (Option.some.inj hm)
    cases x with
    | outside => exact absurd rfl may.1
    | inside m =>
      refine ⟨by simp, by simp [LockPhase.after, LockPhase.Knows], fun j y ne hy => ?_⟩
      obtain rfl := hy.outside known.1 ne
      simp [LockPhase.Knows]
  | withdrawalsScanned =>
    obtain ⟨a, hm, rfl⟩ := indexPerform_memory rfl h
    obtain ⟨rfl, rfl⟩ := Prod.mk.inj (Option.some.inj hm)
    obtain ⟨owned, -, others⟩ := framed rfl rfl
    refine ⟨owned, ?_, others⟩
    cases x with
    | outside => exact known
    | inside m => exact ⟨known.1, fun n hn => Option.some.inj hn⟩
  | indexWithdrawals start results =>
    obtain ⟨a, hm, rfl⟩ := indexPerform_memory rfl h
    obtain ⟨-, rfl⟩ := Prod.mk.inj (Option.some.inj hm)
    cases x with
    | outside => exact absurd rfl (may.2 start results)
    | inside m =>
      refine ⟨owner, ⟨known.1, fun n hn => Option.some.inj hn⟩, fun j y ne hy => ?_⟩
      obtain rfl := hy.outside known.1 ne
      exact hy
  | _ =>
    obtain ⟨⟨lock, scanned⟩, same⟩ :=
      lock_plain (x := x) h (by simp) (by simp) (by simp) (by simp)
    exact same.symm ▸ framed lock scanned

theorem serviceMove_lock {e : ServiceMove} (h : serviceMove P w e = some v) :
    v.withdrawalsLock = w.withdrawalsLock ∧ v.withdrawalsScanned = w.withdrawalsScanned := by
  cases serviceMove_step h <;> exact ⟨rfl, rfl⟩

theorem body_follows (task : IndexTask) :
    ((listingSystem P).body task).Follows lockTypestate (fun _ _ => True) .outside := by
  cases task with
  | refresh =>
    change Coroutine.Follows _ _ ((fun _ => none) <$> refreshWithdrawalIndex) _
    rw [← refreshSeen_eq, Functor.map_map, map_eq_pure_bind]
    exact Follows.bind refreshSeen_follows (fun _ _ _ => trivial) fun _ _ _ => trivial
  | listing user =>
    change Coroutine.Follows _ _ (some <$> Privana.listing user) _
    rw [map_eq_pure_bind]
    exact Follows.bind (listing_follows user) (fun _ _ _ => trivial) fun _ _ _ => trivial

theorem lock_respects : (listingSystem P).Respects lockTypestate (fun _ _ => True)
    (fun _ _ => True) where
  perform _ owner hi known may h := ⟨trivial, lock_perform owner hi known may h⟩
  move _ owner h := by
    obtain ⟨lock, scanned⟩ := serviceMove_lock h
    exact ⟨fun task held => owner task (lock ▸ held), fun j y hy => hy.frame lock scanned⟩
  start {n p w v} _ owner h := by
    obtain rfl := Option.some.inj h
    exact ⟨fun task held => (owner task held).trans (Nat.lt_succ_self _),
      ⟨.outside, body_follows p, fun held => absurd (owner _ held) (lt_irrefl _)⟩,
      fun _ _ _ hy => hy⟩
  leave {n i w} _ owner := by
    simp only [listingSystem, indexSystem]
    split
    · next held =>
      refine ⟨fun _ => nofun, nofun, fun j y ne hy => ?_⟩
      obtain rfl := LockPhase.Knows.outside held ne hy
      exact nofun
    · next free => exact ⟨owner, free, fun _ _ _ hy => hy⟩
  restart _ _ := fun task held => by cases held
  cancelled := trivial

abbrev ListingPool := TaskPool ServiceWorld ServiceOp ServiceOp.Reply ServiceError (Option Listing)
abbrev IndexEvent := TaskEvent IndexAnswer ServiceMove IndexTask

/-- The service has just started, over any state of the contract. -/
def freshListing (s : State) (block : ℕ) : ListingPool :=
  ⟨{ accounting := s, block := block }, []⟩

theorem freshListing_tracks (s : State) (block : ℕ) : lockTypestate.Tracks (fun _ _ => True)
    (freshListing s block) fun _ => .outside where
  world := fun task held => by cases held
  tasks := fun i p h => by cases h

/-- In every run, every batch starts where the index ends. -/
theorem index_licensed (s : State) (block : ℕ) (es : List IndexEvent) :
    TaskSystem.Licensed (listingSystem P) AtScanned (freshListing s block) es := by
  intro e he i c op hin hout
  obtain ⟨⟨phase, tracks⟩, step⟩ :=
    lock_respects.entry (freshListing_tracks s block) es (fun _ _ => trivial) he
  rw [hin, hout] at step
  rintro start results rfl
  generalize e.after = after at step
  cases step with
  | run task performed =>
    obtain ⟨⟨may, -⟩, known⟩ := tracks.tasks _ _ task
    have known : (phase i).Knows i e.before.world := known
    have may : (phase i).May (indexWithdrawals start results) := may
    cases hp : phase i with
    | outside =>
      rw [hp] at may
      exact absurd rfl (may.2 start results)
    | inside m =>
      rw [hp] at may known
      exact (known.2 start (may.2 start results rfl)).symm

/-- A listing that was returned is sound from then on. -/
def Returned (l : Option Listing) (w : ServiceWorld) : Prop := ∀ x, l = some x → x.Sound w

theorem index_keeps : ((listingSystem P).licensed AtScanned).Keeps indexDiscipline
    (fun _ => True) Returned where
  perform {i op c r w v} valid pre h := by
    simp only [TaskSystem.licensed] at h
    split at h
    · next licence => exact indexPerform_index valid pre licence h
    · cases h
  move _ valid h := serviceMove_index valid h
  start {p w v} valid h := by
    obtain rfl := Option.some.inj h
    refine ⟨valid, .refl _, ?_⟩
    cases p with
    | refresh =>
      change Coroutine.Safe _ _ ((fun _ => none) <$> refreshWithdrawalIndex) _
      rw [← refreshSeen_eq, Functor.map_map]
      exact Safe.map valid refreshSeen_safe fun _ _ _ _ _ x hx => by cases hx
    | listing user =>
      change Coroutine.Safe _ _ (some <$> Privana.listing user) _
      exact Safe.map valid (listing_safe user valid) fun l _ _ _ sound x hx =>
        Option.some.inj hx ▸ sound
  leave {i w} valid := by
    simp only [listingSystem, indexSystem, TaskSystem.licensed]
    split
    · exact valid.frame rfl rfl rfl rfl
    · exact ⟨valid, .refl _⟩
  restart valid := restarted_index valid
  cancelled := fun w x h => by cases h

theorem freshListing_holds (s : State) (block : ℕ) :
    indexDiscipline.Holds (freshListing s block) Returned where
  valid := ⟨by simp [freshListing], by simp [freshListing],
    by simp [freshListing, ServiceWorld.keys], List.nodup_nil, by simp [freshListing]⟩
  tasks _ h := (List.not_mem_nil h).elim

theorem index_holds_run (s : State) (block : ℕ) (es : List IndexEvent) :
    indexDiscipline.Holds ((listingSystem P).machine.run (freshListing s block) es) Returned := by
  rw [← (TaskSystem.run_licensed (index_licensed s block es)).1]
  exact index_keeps.run (freshListing_holds s block) es fun _ _ => trivial

/-- Within a process the index only moves forward. -/
theorem scanned_mono {s t : ListingPool} {e : IndexEvent} {o : Option ServiceOp}
    (holds : indexDiscipline.Holds s Returned)
    (step : TaskSystem.Step ((listingSystem P).licensed AtScanned) s e t o) (same : e ≠ .restart) :
    s.world.withdrawalsScanned ≤ t.world.withdrawalsScanned := by
  cases step with
  | run task performed =>
    exact (index_keeps.perform holds.valid (TaskSystem.pre_of_task holds task)
      performed).2.1.scanned
  | move moved => exact (index_keeps.move trivial holds.valid moved).2.scanned
  | start started => exact (index_keeps.start holds.valid started).2.1.scanned
  | cancel => exact ((index_keeps (P := P)).leave holds.valid).2.scanned
  | restart => exact absurd rfl same

section Replies

def batchReplies : (op : ServiceOp) → Except ServiceError op.Reply → Prop
  | .withdrawals indices, .ok results => results.length = indices.length
  | _, _ => True

theorem indexPerform_replies {i : ℕ} {op : ServiceOp} {c : IndexAnswer}
    {r : Except ServiceError op.Reply} (h : indexPerform P i op c w = some (r, v)) :
    batchReplies op r := by
  cases op with
  | withdrawals indices =>
    cases r with
    | error e => trivial
    | ok results =>
      cases c with
      | answer answer =>
        rcases servicePerform_cases h with ⟨_, hm, -⟩ | ⟨-, told⟩
        · cases hm
        · rcases told results rfl with ⟨lag, s, -, read⟩ | ⟨answer, told⟩
          · simp only [contractReads] at read
            split at read
            · next read' =>
              cases read
              exact (mapM_option read').1
            · cases read
          · cases answer <;> cases told
      | nodes lags =>
        simp only [indexPerform] at h
        split at h
        · next lengths =>
          split at h
          · next read =>
            cases h
            have length := (mapM_option read).1
            rwa [List.length_zip, lengths, min_self] at length
          · cases h
        · cases h
  | _ => trivial

abbrev recorded := Typestate.recording ServiceWorld batchReplies

/-- After `seen`, the task reads no other entries as resolved than those of its result. -/
def ReadsMore {α : Type} (resolved : α → List ℕ)
    (seen : List (Observation ServiceOp ServiceOp.Reply)) (r : Except ServiceError α)
    (seen' : List (Observation ServiceOp ServiceOp.Reply)) : Prop :=
  ∀ a, r = .ok a → observedCount seen' = observedCount seen ∧
    ∀ i ∈ readAsResolved seen', i ∈ resolved a ∨ i ∈ readAsResolved seen

theorem ReadsMore.error {α : Type} {resolved : α → List ℕ}
    {seen seen' : List (Observation ServiceOp ServiceOp.Reply)} {e : ServiceError} :
    ReadsMore resolved seen (.error e) seen' := fun _ h => by cases h

theorem ReadsMore.pure {α : Type} {resolved : α → List ℕ}
    {seen : List (Observation ServiceOp ServiceOp.Reply)} {a : α} :
    ReadsMore resolved seen (.ok a) seen := fun _ _ => ⟨rfl, fun _ h => .inr h⟩

theorem resolvedAmong_append {is js : List ℕ} {rs ss : List WithdrawalRequest}
    (length : rs.length = is.length) :
    resolvedAmong (is ++ js) (rs ++ ss) = resolvedAmong is rs ++ resolvedAmong js ss := by
  rw [resolvedAmong, List.zip_append length.symm, List.filter_append, List.map_append]
  rfl

theorem readAsResolved_batch (indices : List ℕ) (results : List WithdrawalRequest)
    (seen : List (Observation ServiceOp ServiceOp.Reply)) :
    readAsResolved (⟨withdrawals indices, results⟩ :: seen) =
      resolvedAmong indices results ++ readAsResolved seen := rfl

theorem readBatches_records (n : ℕ) (indices : List ℕ)
    (seen : List (Observation ServiceOp ServiceOp.Reply)) :
    (readBatches n indices).Follows recorded (ReadsMore (resolvedAmong indices) seen) seen := by
  induction n generalizing indices seen with
  | zero => exact .pure
  | succ n ih =>
    unfold readBatches
    split
    · exact ReadsMore.pure
    · refine Follows.record (fun results length => ?_) fun _ => .error
      refine Follows.bind (ih _ _) (fun rest seen' more => ?_) fun _ _ _ => ReadsMore.error
      rintro _ ⟨⟩
      obtain ⟨counted, resolved⟩ := more rest rfl
      refine ⟨counted, fun i hi => ?_⟩
      rw [← List.take_append_drop withdrawalReadBatchSize indices, resolvedAmong_append length]
      rcases resolved i hi with hi | hi
      · exact .inl (List.mem_append_right _ hi)
      · rw [readAsResolved_batch] at hi
        exact (List.mem_append.mp hi).imp_left (List.mem_append_left _)

theorem readWithdrawals_records (indices : List ℕ)
    (seen : List (Observation ServiceOp ServiceOp.Reply)) :
    (readWithdrawals indices).Follows recorded (ReadsMore (resolvedAmong indices) seen) seen := by
  refine Follows.bind (readBatches_records _ _ _) (fun results seen' more => ?_)
    fun _ _ _ => ReadsMore.error
  dsimp only
  split
  · exact ReadsMore.error
  · exact more

theorem indexFromSeen_records (count n start : ℕ)
    (seen : List (Observation ServiceOp ServiceOp.Reply)) :
    (indexFromSeen count n start).Follows recorded (ReadsMore id seen) seen := by
  induction n generalizing start seen with
  | zero => exact .pure
  | succ n ih =>
    unfold indexFromSeen
    split
    · refine Follows.bind (readWithdrawals_records _ seen) (fun results seen' read => ?_)
        fun _ _ _ => ReadsMore.error
      refine Follows.record (fun _ _ => ?_) fun _ => ReadsMore.error
      refine Follows.bind (ih _ _) (fun rest seen'' more => ?_) fun _ _ _ => ReadsMore.error
      rintro _ ⟨⟩
      obtain ⟨counted, before⟩ := read results rfl
      obtain ⟨counted', after⟩ := more rest rfl
      refine ⟨counted'.trans counted, fun i hi => ?_⟩
      rcases after i hi with hi | hi
      · exact .inl (List.mem_append_right _ hi)
      · exact (before i hi).imp_left (List.mem_append_left _)
    · exact ReadsMore.pure

theorem refreshSeen_records : refreshSeen.Follows recorded (fun r seen => ∀ p, r = .ok p →
    observedCount seen = some p.1 ∧ ∀ i ∈ readAsResolved seen, i ∈ p.2) [] := by
  have failed (e : ServiceError) (seen : List (Observation ServiceOp ServiceOp.Reply))
      (p : ℕ × List ℕ) (h : (.error e : Except ServiceError (ℕ × List ℕ)) = .ok p) :
      observedCount seen = some p.1 ∧ ∀ i ∈ readAsResolved seen, i ∈ p.2 := by cases h
  refine Follows.record (fun count _ => ?_) fun e => failed e _
  refine Follows.record (fun scanned _ => ?_) fun e => failed e _
  split
  · rintro _ ⟨⟩
    exact ⟨rfl, fun i hi => by cases hi⟩
  · refine Follows.record (fun _ _ => ?_) fun e => failed e _
    refine Follows.settle (R := fun r seen => ∀ p, r = .ok p →
      observedCount seen = some p.1 ∧ ∀ i ∈ readAsResolved seen, i ∈ p.2) ?_ fun r seen hr => ?_
    · refine Follows.record (fun firstNew _ => ?_) fun e => failed e _
      refine Follows.bind (indexFromSeen_records _ _ _ _) (fun resolved seen more => ?_)
        fun e _ _ => failed e _
      rintro _ ⟨⟩
      obtain ⟨counted, read⟩ := more resolved rfl
      exact ⟨counted, fun i hi => (read i hi).resolve_right fun h => by cases h⟩
    · refine ⟨trivial, fun r' _ => ?_⟩
      cases r' with
      | ok _ => exact hr
      | error e => exact failed e _

theorem collectUnresolved_records (resolved candidates : List ℕ)
    (seen : List (Observation ServiceOp ServiceOp.Reply)) :
    (collectUnresolved resolved candidates).Follows recorded (ReadsMore (fun _ => []) seen)
      seen := by
  induction candidates generalizing seen with
  | nil => exact .pure
  | cons index candidates ih =>
    unfold collectUnresolved
    split
    · exact Follows.record (fun _ _ => Follows.imp (ih _) fun _ _ more => more) fun _ => .error
    · refine Follows.record (fun entry _ => ?_) fun _ => .error
      refine Follows.bind (ih _) (fun pending seen' more => ?_) fun _ _ _ => ReadsMore.error
      obtain ⟨counted, read⟩ := more pending rfl
      cases entry <;> rintro _ ⟨⟩ <;> exact ⟨counted, read⟩

/-- A listing hands out what it was told. -/
theorem listing_records (user : Option Address) :
    (listing user).Follows recorded (fun r seen => ∀ l, r = .ok l →
      l.user = user ∧ observedCount seen = some l.count ∧
        ∀ i ∈ readAsResolved seen, i ∈ l.readResolved) [] := by
  refine Follows.bind refreshSeen_records (fun (count, resolved) seen told => ?_)
    fun e _ _ l h => by cases h
  obtain ⟨counted, read⟩ := told _ rfl
  refine Follows.record (fun entries _ => ?_) fun e l h => by cases h
  refine Follows.bind (readWithdrawals_records _ _) (fun results seen' more => ?_)
    fun e _ _ l h => by cases h
  obtain ⟨counted', read'⟩ := more results rfl
  refine Follows.bind (collectUnresolved_records _ _ _) (fun pending seen'' rest => ?_)
    fun e _ _ l h => by cases h
  obtain ⟨counted'', read''⟩ := rest pending rfl
  rintro _ ⟨⟩
  refine ⟨rfl, (counted''.trans counted').trans counted, fun i hi => ?_⟩
  rcases read' i ((read'' i hi).resolve_left (List.not_mem_nil)) with hi | hi
  · exact List.mem_append_right _ hi
  · exact List.mem_append_left _ (read i hi)

end Replies

abbrev IndexPool := TaskPool ServiceWorld ServiceOp ServiceOp.Reply ServiceError
  (Option (List (ℕ × WithdrawalRequest)))

/-- The service has just started, over any state of the contract. -/
def freshIndex (s : State) (block : ℕ) : IndexPool :=
  ⟨{ accounting := s, block := block }, []⟩

theorem index_run_eq (s : State) (block : ℕ) (es : List IndexEvent) :
    (indexSystem P).machine.run (freshIndex s block) es =
      TaskSystem.relabelPool (Option.map Listing.pending)
        ((listingSystem P).machine.run (freshListing s block) es) := by
  rw [indexSystem_eq]
  exact (TaskSystem.run_relabel (S := listingSystem P) (f := Option.map Listing.pending) rfl
    (freshListing s block) es).1

theorem index_log_eq (s : State) (block : ℕ) (es : List IndexEvent) :
    (indexSystem P).machine.log (freshIndex s block) es =
      ((listingSystem P).machine.log (freshListing s block) es).map
        (TaskSystem.relabelEntry (listingSystem P) (Option.map Listing.pending)) := by
  rw [indexSystem_eq]
  exact (TaskSystem.run_relabel (S := listingSystem P) (f := Option.map Listing.pending) rfl
    (freshListing s block) es).2

/-- What each task was started with and has been told since the last restart. -/
def taskReplies (P : Platform) (s : State) (block : ℕ) (es : List IndexEvent) :
    List (IndexTask × List (Observation ServiceOp ServiceOp.Reply)) :=
  (indexSystem P).transcripts ((indexSystem P).machine.log (freshIndex s block) es)

theorem taskReplies_eq (s : State) (block : ℕ) (es : List IndexEvent) :
    taskReplies P s block es =
      (listingSystem P).transcripts ((listingSystem P).machine.log (freshListing s block) es) := by
  rw [taskReplies, index_log_eq, indexSystem_eq]
  exact TaskSystem.transcripts_relabel _

/-- Entries that were returned are those of a listing. -/
theorem listing_of_entries {t : ListingPool} {i : ℕ} {entries : List (ℕ × WithdrawalRequest)}
    (h : (TaskSystem.relabelPool (Option.map Listing.pending) t).tasks[i]? =
      some (.done (.ok (some entries)))) :
    ∃ l, t.tasks[i]? = some (.done (.ok (some l))) ∧ l.pending = entries := by
  rw [TaskSystem.relabelPool, List.getElem?_map] at h
  obtain ⟨p, hp, same⟩ := Option.map_eq_some_iff.mp h
  cases p with
  | perform op next => cases same
  | done r =>
    cases r with
    | error e => cases same
    | ok l =>
      cases l with
      | none => cases same
      | some l =>
        cases same
        exact ⟨l, hp, rfl⟩

/-- What a listing that was returned says of itself is what its task was asked and told. -/
def ListingTold (p : IndexTask) (r : Except ServiceError (Option Listing))
    (seen : List (Observation ServiceOp ServiceOp.Reply)) : Prop :=
  ∀ l, r = .ok (some l) → p = .listing l.user ∧ observedCount seen = some l.count ∧
    ∀ j ∈ readAsResolved seen, j ∈ l.readResolved

theorem listingSystem_told (p : IndexTask) :
    ((listingSystem P).body p).Follows recorded (ListingTold p) [] := by
  cases p with
  | refresh =>
    change Coroutine.Follows _ _ ((fun _ => none) <$> refreshWithdrawalIndex) _
    rw [← refreshSeen_eq, Functor.map_map, map_eq_pure_bind]
    exact Follows.bind refreshSeen_records (fun _ _ _ _ h => by cases h)
      fun _ _ _ _ h => by cases h
  | listing user =>
    change Coroutine.Follows _ _ (some <$> Privana.listing user) _
    rw [map_eq_pure_bind]
    refine Follows.bind (listing_records user) (fun l seen hl x hx => ?_)
      fun _ _ _ _ h => by cases h
    obtain rfl : l = x := Option.some.inj (Except.ok.inj hx)
    obtain ⟨rfl, rest⟩ := hl l rfl
    exact ⟨rfl, rest⟩

/-- A listing that was returned is the one of the user it was started for, with the count
and the resolved entries it was told. -/
theorem listing_told {s : State} {block : ℕ} {es : List IndexEvent} {i : ℕ}
    {user : Option Address} {seen : List (Observation ServiceOp ServiceOp.Reply)} {l : Listing}
    (started : (taskReplies P s block es)[i]? = some (.listing user, seen))
    (ended : ((listingSystem P).machine.run (freshListing s block) es).tasks[i]? =
      some (.done (.ok (some l)))) :
    l.user = user ∧ observedCount seen = some l.count ∧
      ∀ j ∈ readAsResolved seen, j ∈ l.readResolved := by
  rw [taskReplies_eq] at started
  have transcribed := TaskSystem.transcripts_run listingSystem_told
    (indexPerform_replies (P := P)) (fun _ _ _ h => by cases h)
    { accounting := s, block := block } es
  obtain ⟨same, rest⟩ := transcribed.tasks i _ _ _ started ended l rfl
  cases same
  exact ⟨rfl, rest⟩

/-- What a run of the index ends with. -/
structure IndexSound (ts : List (IndexTask × List (Observation ServiceOp ServiceOp.Reply)))
    (t : IndexPool) : Prop where
  kept : ∀ i < t.world.withdrawalsScanned, ∀ r : WithdrawalRequest,
    t.world.accounting.withdrawals[i]? = some r → r.resolved = false → i ∈ t.world.keys
  held : ∀ p ∈ t.world.unresolvedWithdrawals, p.1 < t.world.withdrawalsScanned ∧
    ∃ r, t.world.accounting.withdrawals[p.1]? = some r ∧ r.core = p.2.core
  listings : ∀ (i : ℕ) (user : Option Address)
    (seen : List (Observation ServiceOp ServiceOp.Reply)) (entries : List (ℕ × WithdrawalRequest)),
    ts[i]? = some (.listing user, seen) → t.tasks[i]? = some (.done (.ok (some entries))) →
      ∃ count, observedCount seen = some count ∧
        ListingSound user count (readAsResolved seen) entries t.world

/-- Nothing is lost or invented by the index and by `unresolvedWithdrawalEntries`, in any run
over any state of the contract, and in one process the index never moves back. -/
theorem unresolved_index (P : Platform) (s : State) (block : ℕ) (es : List IndexEvent) :
    IndexSound (taskReplies P s block es) ((indexSystem P).machine.run (freshIndex s block) es) ∧
      ∀ e ∈ (indexSystem P).machine.log (freshIndex s block) es, e.input ≠ .restart →
        e.before.world.withdrawalsScanned ≤ e.after.world.withdrawalsScanned := by
  have holds := index_holds_run (P := P) s block es
  rw [index_run_eq, index_log_eq]
  refine ⟨⟨fun i hi r hr hres => ?_, fun p hp => ⟨?_, ?_⟩, fun i user seen entries hs hl => ?_⟩,
    fun e he same => ?_⟩
  · rcases holds.valid.scanned i hi with ⟨r', hr'⟩ | resolved
    · exact List.mem_map_of_mem hr'
    · exact absurd resolved (not_resolved hr hres)
  · exact holds.valid.below _ (List.mem_map_of_mem hp)
  · obtain ⟨r, hr, hc, -⟩ := holds.valid.entries p hp
    exact ⟨r, hr, hc⟩
  · obtain ⟨l, ended, rfl⟩ := listing_of_entries hl
    obtain ⟨rfl, counted, read⟩ := listing_told hs ended
    have sound := TaskSystem.result_of_holds holds ended l rfl
    exact ⟨l.count, counted, sound.increasing, sound.complete,
      fun j hj => sound.omits j (read j hj)⟩
  · obtain ⟨e, logged, rfl⟩ := List.mem_map.mp he
    rw [← (TaskSystem.run_licensed (index_licensed s block es)).2] at logged
    obtain ⟨js, ks, rfl, hb, hx⟩ :=
      ((listingSystem P).licensed AtScanned).machine.exists_prefix_of_mem_log logged
    have before := index_keeps (P := P).run (freshListing_holds s block) js fun _ _ => trivial
    exact scanned_mono (hb ▸ before) (TaskSystem.exec_step hx) same

/-- A listing and a refresh overlap, and the first of two withdrawals is resolved before the
listing reads both again, the second from a node that is one transaction behind. -/
def sampleIndexEvents : List IndexEvent :=
  let now : IndexAnswer := .answer (.node 0)
  [.start (.listing (some sampleUser)), .run 0 now, .run 0 now, .run 0 now, .run 0 now,
    .start .refresh, .run 1 now, .run 1 now,
    .run 0 (.nodes [0, 0]), .run 0 now,
    .move (.transact ⟨⟨sampleUser, true, 4, 1700000000⟩, .resolveWithdrawal 0⟩),
    .run 0 now, .run 1 now, .run 1 now, .run 1 now,
    .run 0 now, .run 0 (.nodes [0, 1]), .run 0 now, .run 0 now]

/-- The indices that task `i` has listed. -/
def listedBy (t : IndexPool) (i : ℕ) : Option (List ℕ) :=
  match t.tasks[i]? with
  | some (.done (.ok (some entries))) => some (entries.map Prod.fst)
  | _ => none

theorem unresolved_index_sample :
    let s := (accounting sampleQueuePlatform).run (accountingInit sampleEvm sampleGasTank)
      sampleTwoTxs
    let replies := taskReplies sampleQueuePlatform s 3 sampleIndexEvents
    let t := (indexSystem sampleQueuePlatform).machine.run (freshIndex s 3) sampleIndexEvents
    IndexSound replies t ∧ replies[0]?.map Prod.fst = some (.listing (some sampleUser)) ∧
      replies[0]?.map (fun r => (observedCount r.2, readAsResolved r.2)) = some (some 2, [0]) ∧
      listedBy t 0 = some [1] :=
  ⟨(unresolved_index sampleQueuePlatform _ 3 sampleIndexEvents).1, by decide +kernel,
    by decide +kernel, by decide +kernel⟩

end Privana
