import Privana.TtlCache

/-! Single flight in `AsyncTTLCache`. Every call that waits or computes has the lock that the table has
for its key, as long as no lock leaves the table while a call waits for it. -/

namespace Privana

section Cache
variable {K V : Type} [DecidableEq K] {s t : CacheState K V} {i j l maxsize : ℕ} {key : K}
  {phase : CallPhase V} {lock : FairLock}

namespace CacheState

omit [DecidableEq K] in
theorem setLock_setLock (s : CacheState K V) (l : ℕ) (a b : FairLock) :
    (s.setLock l a).setLock l b = s.setLock l b := by
  simp only [setLock, Function.update_idem]

omit [DecidableEq K] in
theorem setLock_self (s : CacheState K V) (l : ℕ) (lock : FairLock) :
    (s.setLock l lock).lock l = lock := by
  simp only [setLock, Function.update_self]

omit [DecidableEq K] in
theorem setLock_of_ne (s : CacheState K V) {l m : ℕ} (lock : FairLock) (h : m ≠ l) :
    (s.setLock l lock).lock m = s.lock m := by
  simp only [setLock, Function.update_of_ne h]

omit [DecidableEq K] in
theorem setCall_call (s : CacheState K V) (i j : ℕ) (key : K) (phase : CallPhase V) :
    (s.setCall i key phase).call j = if j = i then some ⟨key, phase⟩ else s.call j := by
  simp only [setCall, Function.update_apply]

/-- A call has its place at the lock of its key. -/
def Holds (s : CacheState K V) (i : ℕ) (key : K) : CallPhase V → Prop
  | .waiting l => s.locks.lookup key = some l ∧ i ∈ (s.lock l).waiters
  | .computing l => s.locks.lookup key = some l ∧ (s.lock l).holder = some i
  | _ => True

structure Sound (s : CacheState K V) : Prop where
  created : ∀ key l, s.locks.lookup key = some l → l < s.created
  fresh : ∀ i, s.started ≤ i → s.call i = none
  calls : ∀ i key phase, s.call i = some ⟨key, phase⟩ → s.Holds i key phase

theorem Holds.later (h : s.Holds j key phase)
    (table : ∀ l, s.locks.lookup key = some l →
      t.locks.lookup key = some l ∨ (s.lock l).free = true)
    (kept : ∀ l, s.locks.lookup key = some l → FairLock.Keeps j (s.lock l) (t.lock l)) :
    t.Holds j key phase := by
  cases phase with
  | waiting l =>
    obtain same | free := table l h.1
    · exact ⟨same, (kept l h.1).1 h.2⟩
    · have empty := h.2
      rw [(FairLock.free_iff.mp free).2] at empty
      cases empty
  | computing l =>
    obtain same | free := table l h.1
    · exact ⟨same, (kept l h.1).2 h.2⟩
    · have held := FairLock.holder_of_not_locked (FairLock.free_iff.mp free).1
      rw [h.2] at held
      cases held
  | _ => trivial

theorem Sound.empty : (empty : CacheState K V).Sound where
  created _ _ h := by cases h
  fresh _ _ := rfl
  calls _ _ _ h := by cases h

/-- A step of one call at a lock, where the others keep their places. -/
theorem Sound.act (h : s.Sound) (started : i < s.started)
    (kept : ∀ j ≠ i, FairLock.Keeps j (s.lock l) lock)
    (own : (s.setLock l lock).Holds i key phase) :
    ((s.setLock l lock).setCall i key phase).Sound where
  created := h.created
  fresh k le := by
    have other : k ≠ i := by
      rintro rfl
      exact absurd started (not_lt.mpr le)
    rw [setCall_call, if_neg other]
    exact h.fresh k le
  calls j key' phase' found := by
    rw [setCall_call] at found
    by_cases same : j = i
    · subst same
      rw [if_pos rfl] at found
      cases found
      exact own
    · rw [if_neg same] at found
      refine (h.calls j key' phase' found).later (fun _ found => .inl found) fun m _ => ?_
      by_cases here : m = l
      · subst here
        exact (setLock_self s m lock).symm ▸ kept j same
      · exact (setLock_of_ne s lock here).symm ▸ .refl _ _

/-- The body of the lock, which the call has just taken. -/
theorem Sound.enter (h : s.Sound) (started : i < s.started) (table : s.locks.lookup key = some l)
    (kept : ∀ j ≠ i, FairLock.Keeps j (s.lock l) lock) (taken : lock.holder = some i) :
    ((s.setLock l lock).enter i key l).Sound := by
  unfold CacheState.enter
  cases cachedValue (s.setLock l lock).contents key with
  | some value =>
    simp only [setLock_setLock, setLock_self]
    exact h.act started (fun j other => (kept j other).trans (FairLock.release_keeps taken other))
      trivial
  | none =>
    refine h.act started kept ⟨table, ?_⟩
    rw [setLock_self, taken]

theorem Sound.acquire (h : s.Sound) (started : i < s.started)
    (table : s.locks.lookup key = some l) : (s.acquire i key l).Sound := by
  unfold CacheState.acquire
  split
  · next free =>
    exact h.enter started table (fun _ _ => FairLock.take_keeps (FairLock.free_iff.mp free).1) rfl
  · refine h.act started (fun _ _ => FairLock.wait_keeps) ⟨table, ?_⟩
    rw [setLock_self]
    exact FairLock.mem_wait

theorem Sound.contents (h : s.Sound) (contents : CacheContents K V) :
    { s with contents := contents }.Sound := ⟨h.created, h.fresh, h.calls⟩

theorem Sound.started (h : s.Sound) : { s with started := s.started + 1 }.Sound :=
  ⟨h.created, fun i le => h.fresh i (Nat.le_of_succ_le le), h.calls⟩

theorem Sound.lockOf (h : s.Sound) (key : K) :
    (s.lockOf key).2.Sound ∧ (s.lockOf key).2.locks.lookup key = some (s.lockOf key).1 ∧
      (s.lockOf key).2.started = s.started := by
  unfold CacheState.lockOf
  cases found : s.locks.lookup key with
  | some l => exact ⟨h, found, rfl⟩
  | none =>
    refine ⟨⟨fun key' l found' => ?_, h.fresh, fun j key' phase before => ?_⟩,
      AList.lookup_insert _, rfl⟩
    · by_cases same : key' = key
      · subst same
        rw [AList.lookup_insert] at found'
        cases found'
        exact Nat.lt_succ_self _
      · rw [AList.lookup_insert_ne same] at found'
        exact Nat.lt_succ_of_lt (h.created key' l found')
    · refine (h.calls j key' phase before).later (fun l found' => .inl ?_) fun l found' => ?_
      · have other : key' ≠ key := by
          rintro rfl
          rw [found] at found'
          cases found'
        rw [AList.lookup_insert_ne other]
        exact found'
      · have other : l ≠ s.created := Nat.ne_of_lt (h.created key' l found')
        exact (setLock_of_ne s .new other).symm ▸ .refl _ _

end CacheState

section Table
variable {locks : AList fun _ : K => ℕ} {table : ℕ → FairLock}

theorem lookup_dropUnheld {key' : K} (found : (dropUnheld table locks key').lookup key = some l) :
    locks.lookup key = some l := by
  unfold dropUnheld at found
  split at found
  · exact found
  · split at found
    · exact found
    · by_cases same : key = key'
      · subst same
        rw [AList.lookup_erase] at found
        cases found
      · rwa [AList.lookup_erase_ne same] at found

theorem dropUnheld_keeps (table : ℕ → FairLock) (key' : K) (found : locks.lookup key = some l) :
    (dropUnheld table locks key').lookup key = some l ∨ key = key' ∧ (table l).locked = false := by
  by_cases same : key = key'
  · subst same
    cases held : (table l).locked with
    | true => exact .inl (by simp only [dropUnheld, found, held, if_true])
    | false => exact .inr ⟨rfl, rfl⟩
  · left
    unfold dropUnheld
    split
    · exact found
    · split
      · exact found
      · rwa [AList.lookup_erase_ne same]

theorem lookup_dropAll {keys : List K}
    (found : (keys.foldl (dropUnheld table) locks).lookup key = some l) :
    locks.lookup key = some l := by
  induction keys generalizing locks with
  | nil => exact found
  | cons key' keys ih => exact lookup_dropUnheld (ih found)

theorem dropAll_keeps {keys : List K} (found : locks.lookup key = some l) :
    (keys.foldl (dropUnheld table) locks).lookup key = some l ∨
      key ∈ keys ∧ (table l).locked = false := by
  induction keys generalizing locks with
  | nil => exact .inl found
  | cons key' keys ih =>
    obtain kept | ⟨rfl, unheld⟩ := dropUnheld_keeps table key' found
    · exact (ih kept).imp_right fun dropped => ⟨List.mem_cons_of_mem _ dropped.1, dropped.2⟩
    · exact .inr ⟨List.mem_cons_self, unheld⟩

end Table

/-- No call that waits for the lock of the key would be left with it outside the table. -/
def Unawaited (s : CacheState K V) (key : K) : Prop :=
  ∀ l, s.locks.lookup key = some l → (s.lock l).locked = true ∨ (s.lock l).waiters = []

abbrev CacheEntry (K V : Type) := TransactionMachine.Entry (CacheState K V) (CacheEvent K V) Unit

/-- An invalidation and a clean-up take no lock from the table that a call waits for. -/
def KeepsAwaited (maxsize : ℕ) (e : CacheEntry K V) : Prop :=
  match e.input with
  | .invalidate key => Unawaited e.before key
  | .call key expired => cachedValue e.before.contents key = none →
      maxsize * 2 < e.before.locks.keys.length →
      ∀ stale, forget e.before.contents expired stale = none → Unawaited e.before stale
  | _ => True

/-- No two factories of one key run at a time. -/
def SingleFlight (s : CacheState K V) : Prop :=
  ∀ i j key l m, s.call i = some ⟨key, .computing l⟩ → s.call j = some ⟨key, .computing m⟩ → i = j

namespace CacheState

theorem Unawaited.free (h : Unawaited s key) (found : s.locks.lookup key = some l)
    (unheld : (s.lock l).locked = false) : (s.lock l).free = true := by
  refine FairLock.free_iff.mpr ⟨unheld, (h l found).resolve_left ?_⟩
  rw [unheld]
  exact Bool.false_ne_true

/-- Free locks may leave the table. -/
theorem Sound.dropped (h : s.Sound) {locks : AList fun _ : K => ℕ}
    (fewer : ∀ key l, locks.lookup key = some l → s.locks.lookup key = some l)
    (kept : ∀ key l, s.locks.lookup key = some l →
      locks.lookup key = some l ∨ (s.lock l).free = true) :
    { s with locks := locks }.Sound where
  created key l found := h.created key l (fewer key l found)
  fresh := h.fresh
  calls j key phase found := (h.calls j key phase found).later (kept key) fun _ _ => .refl _ _

theorem Sound.invalidated (h : s.Sound) (unawaited : Unawaited s key) :
    { s with locks := dropUnheld s.lock s.locks key }.Sound := by
  refine h.dropped (fun _ _ => lookup_dropUnheld) fun key' l found => ?_
  refine (dropUnheld_keeps s.lock key found).imp_right ?_
  rintro ⟨rfl, unheld⟩
  exact Unawaited.free unawaited found unheld

theorem Sound.cleanUp (h : s.Sound) (unawaited : maxsize * 2 < s.locks.keys.length →
    ∀ stale, s.contents stale = none → Unawaited s stale) : (cleanUp maxsize s).Sound := by
  unfold CacheState.cleanUp
  split
  · next crowded =>
    refine h.dropped (fun _ _ => lookup_dropAll) fun key l found => ?_
    refine (dropAll_keeps found).imp_right fun dropped => ?_
    have stale := (List.mem_filter.mp dropped.1).2
    exact Unawaited.free (unawaited crowded key (Option.isNone_iff_eq_none.mp stale)) found dropped.2
  · exact h

theorem cleanUp_same (maxsize : ℕ) (s : CacheState K V) :
    (cleanUp maxsize s).contents = s.contents ∧ (cleanUp maxsize s).call = s.call ∧
      (cleanUp maxsize s).started = s.started := by
  unfold CacheState.cleanUp
  split <;> exact ⟨rfl, rfl, rfl⟩

theorem lockOf_same (s : CacheState K V) (key : K) :
    (s.lockOf key).2.contents = s.contents ∧ (s.lockOf key).2.call = s.call := by
  unfold CacheState.lockOf
  split <;> exact ⟨rfl, rfl⟩

theorem Sound.served (h : s.Sound) (key : K) (value : V) :
    ({ s with started := s.started + 1 }.setCall s.started key (.served value)).Sound := by
  have same : ({ s with started := s.started + 1 }.setLock 0 (s.lock 0)) =
      { s with started := s.started + 1 } := by
    simp only [setLock, Function.update_eq_self]
  have own : ({ s with started := s.started + 1 }.setLock 0 (s.lock 0)).Holds s.started key
      (.served value) := trivial
  rw [← same]
  exact h.started.act (Nat.lt_succ_self _) (fun j _ => .refl j _) own

theorem Sound.getOrSet (h : s.Sound) {expired : List K}
    (orderly : cachedValue s.contents key = none → maxsize * 2 < s.locks.keys.length →
      ∀ stale, forget s.contents expired stale = none → Unawaited s stale) :
    (s.getOrSet maxsize key expired).Sound := by
  unfold CacheState.getOrSet
  dsimp only
  cases missing : cachedValue s.contents key with
  | some value => exact h.served key value
  | none =>
    have clean := (h.started.contents (forget s.contents expired)).cleanUp (orderly missing)
    obtain ⟨sound, table, started⟩ := clean.lockOf key
    refine sound.acquire ?_ table
    rw [started, (cleanUp_same _ _).2.2]
    exact Nat.lt_succ_self _

theorem Sound.lt_started (h : s.Sound) {call : CacheCall K V} (found : s.call i = some call) :
    i < s.started := by
  by_contra le
  rw [h.fresh i (not_lt.mp le)] at found
  cases found

/-- Every step of an orderly run keeps the calls at the locks of their keys. -/
theorem Sound.step (h : s.Sound) {e : CacheEvent K V} {o : Unit}
    (stepped : exec maxsize s e = .ok (t, o)) (orderly : KeepsAwaited maxsize ⟨s, e, o, t⟩) : t.Sound := by
  cases e with
  | expire keys =>
    cases stepped
    exact h.contents _
  | set key value evicted =>
    simp only [exec] at stepped
    split at stepped
    · cases stepped
    · cases stepped
      exact h.contents _
  | invalidate key =>
    cases stepped
    exact (h.invalidated orderly).contents _
  | call key expired =>
    cases stepped
    exact h.getOrSet orderly
  | resume i =>
    simp only [exec] at stepped
    split at stepped
    · next key l found =>
      split at stepped
      · next wakes =>
        cases stepped
        exact h.enter (h.lt_started found) (h.calls i key _ found).1
          (fun j other => FairLock.wake_keeps wakes other) rfl
      · cases stepped
    · cases stepped
  | finish i value evicted =>
    simp only [exec] at stepped
    split at stepped
    · next key l found =>
      cases stepped
      have kept := fun j other => FairLock.release_keeps (j := j) (h.calls i key _ found).2 other
      unfold CacheState.finish
      dsimp only
      split
      · exact h.act (h.lt_started found) kept trivial
      · have own : (s.setLock l (s.lock l).release).Holds i key (.computed value) := trivial
        exact (h.act (h.lt_started found) kept own).contents _
    · cases stepped
  | fail i =>
    simp only [exec] at stepped
    split at stepped
    · next key l found =>
      cases stepped
      exact h.act (h.lt_started found)
        (fun j other => FairLock.release_keeps (h.calls i key _ found).2 other) trivial
    · cases stepped
  | cancel i =>
    simp only [exec] at stepped
    split at stepped
    · next key l found =>
      cases stepped
      exact h.act (h.lt_started found) (fun j other => FairLock.leave_keeps other) trivial
    · cases stepped

theorem Sound.singleFlight (h : s.Sound) : SingleFlight s := by
  intro i j key l m hi hj
  obtain ⟨table, held⟩ := h.calls i key _ hi
  obtain ⟨table', held'⟩ := h.calls j key _ hj
  rw [table] at table'
  cases table'
  rw [held] at held'
  exact Option.some_inj.mp held'

end CacheState

end Cache

end Privana
