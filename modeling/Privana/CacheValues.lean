import Privana.CacheSingleFlight

/-! What the calls of `AsyncTTLCache` return. A value comes from a factory of its own key or was set
for it, and a call that ran no factory found it in the cache. -/

namespace Privana

section Cache
variable {K V : Type} {s t : CacheState K V} {i j l maxsize : ℕ} {key : K}
  {phase : CallPhase V} {contents : CacheContents K V} {value : V}
  {log : List (CacheEntry K V)}

/-- Whether a call returned the value, and whether it ran a factory for it. -/
def CallPhase.result : CallPhase V → Option (Option V)
  | .served value => some (some value)
  | .computed value => some value
  | _ => none

/-- The factory of a call for the key returned the value. -/
def FactoryMade (log : List (CacheEntry K V)) (i : ℕ) (key : K) (value : Option V) : Prop :=
  ∃ e ∈ log, (∃ evicted, e.input = .finish i value evicted) ∧
    ∃ l, e.before.call i = some ⟨key, .computing l⟩

def WasSet (log : List (CacheEntry K V)) (key : K) (value : Option V) : Prop :=
  ∃ e ∈ log, ∃ evicted, e.input = .set key value evicted

/-- The call takes a step: it starts, or it goes on after its wait. -/
def TakesStep (s : CacheState K V) (e : CacheEvent K V) (i : ℕ) (key : K) : Prop :=
  (∃ expired, e = .call key expired ∧ i = s.started) ∨
    (e = .resume i ∧ ∃ l, s.call i = some ⟨key, .waiting l⟩)

/-- The value was in the cache at a moment of the call. -/
def FoundCached (log : List (CacheEntry K V)) (i : ℕ) (key : K) (value : V) : Prop :=
  ∃ e ∈ log, TakesStep e.before e.input i key ∧ cachedValue e.before.contents key = some value

namespace CacheState

/-- A phase that a call can have after a step of its own without a factory. -/
def Fresh (contents : CacheContents K V) (key : K) : CallPhase V → Prop
  | .served value => cachedValue contents key = some value
  | .computed _ => False
  | _ => True

theorem enter_same (s : CacheState K V) (i : ℕ) (key : K) (l : ℕ) :
    (s.enter i key l).contents = s.contents := by
  unfold CacheState.enter
  split <;> rfl

theorem enter_call {key' : K} (found : (s.enter i key l).call j = some ⟨key', phase⟩) :
    s.call j = some ⟨key', phase⟩ ∨ j = i ∧ key' = key ∧ Fresh s.contents key phase := by
  unfold CacheState.enter at found
  split at found
  · next value cached =>
    rw [setCall_call] at found
    split at found
    · next same =>
      cases found
      exact .inr ⟨same, rfl, cached⟩
    · exact .inl found
  · rw [setCall_call] at found
    split at found
    · next same =>
      cases found
      exact .inr ⟨same, rfl, trivial⟩
    · exact .inl found

theorem acquire_same (s : CacheState K V) (i : ℕ) (key : K) (l : ℕ) :
    (s.acquire i key l).contents = s.contents := by
  unfold CacheState.acquire
  split
  · exact enter_same _ _ _ _
  · rfl

theorem acquire_call {key' : K} (found : (s.acquire i key l).call j = some ⟨key', phase⟩) :
    s.call j = some ⟨key', phase⟩ ∨ j = i ∧ key' = key ∧ Fresh s.contents key phase := by
  unfold CacheState.acquire at found
  split at found
  · have entered := enter_call found
    exact entered
  · rw [setCall_call] at found
    split at found
    · next same =>
      cases found
      exact .inr ⟨same, rfl, trivial⟩
    · exact .inl found

/-- How a call comes to its phase: it was there, it found a value, or its factory has returned. -/
inductive Reaches (s : CacheState K V) (e : CacheEvent K V) (i : ℕ) (key : K) :
    CallPhase V → Prop
  | before {phase : CallPhase V} (same : s.call i = some ⟨key, phase⟩) : Reaches s e i key phase
  | cached {value : V} (step : TakesStep s e i key) (found : cachedValue s.contents key = some value) :
      Reaches s e i key (.served value)
  | made {value : Option V} {evicted : List K} {l : ℕ} (finished : e = .finish i value evicted)
      (call : s.call i = some ⟨key, .computing l⟩) : Reaches s e i key (.computed value)
  | without {phase : CallPhase V} (none : phase.result = none) : Reaches s e i key phase

theorem reaches_of_fresh {e : CacheEvent K V} (step : TakesStep s e i key)
    (fresh : Fresh s.contents key phase) : Reaches s e i key phase := by
  cases phase with
  | served value => exact .cached step fresh
  | computed value => exact fresh.elim
  | _ => exact .without rfl

end CacheState

section Longer
variable {e : CacheEntry K V} {made : Option V}

theorem WasSet.longer (h : WasSet log key made) : WasSet (log ++ [e]) key made :=
  h.imp fun _ => And.imp_left (List.mem_append_left _)

theorem FactoryMade.longer (h : FactoryMade log i key made) : FactoryMade (log ++ [e]) i key made :=
  h.imp fun _ => And.imp_left (List.mem_append_left _)

theorem FoundCached.longer (h : FoundCached log i key value) :
    FoundCached (log ++ [e]) i key value :=
  h.imp fun _ => And.imp_left (List.mem_append_left _)

theorem sources_longer (h : WasSet log key made ∨ ∃ i, FactoryMade log i key made) :
    WasSet (log ++ [e]) key made ∨ ∃ i, FactoryMade (log ++ [e]) i key made :=
  h.imp WasSet.longer fun made => made.imp fun _ => FactoryMade.longer

theorem mem_last : e ∈ log ++ [e] := List.mem_append_right _ (List.mem_singleton_self e)

end Longer

variable [DecidableEq K]

theorem cachedValue_forget {keys : List K}
    (found : cachedValue (forget contents keys) key = some value) :
    cachedValue contents key = some value := by
  unfold cachedValue forget at found
  split at found
  · cases found
  · exact found

theorem cachedValue_store {key' : K} {stored : Option V} {evicted : List K}
    (found : cachedValue (cacheStore contents key' stored evicted) key = some value) :
    key = key' ∧ stored = some value ∨ cachedValue contents key = some value := by
  unfold cachedValue cacheStore at found
  by_cases same : key = key'
  · subst same
    rw [Function.update_self] at found
    exact .inl ⟨rfl, found⟩
  · rw [Function.update_of_ne same] at found
    exact .inr (cachedValue_forget found)

namespace CacheState

theorem getOrSet_contents {key' : K} {expired : List K}
    (found : cachedValue (s.getOrSet maxsize key' expired).contents key = some value) :
    cachedValue s.contents key = some value := by
  unfold CacheState.getOrSet at found
  dsimp only at found
  split at found
  · exact found
  · rw [acquire_same, (lockOf_same _ _).1, (cleanUp_same _ _).1] at found
    exact cachedValue_forget found

theorem getOrSet_call {key' : K} {expired : List K}
    (found : (s.getOrSet maxsize key expired).call j = some ⟨key', phase⟩) :
    s.call j = some ⟨key', phase⟩ ∨ j = s.started ∧ key' = key ∧ Fresh s.contents key phase := by
  unfold CacheState.getOrSet at found
  dsimp only at found
  split at found
  · next value cached =>
    rw [setCall_call] at found
    split at found
    · next same =>
      cases found
      exact .inr ⟨same, rfl, cached⟩
    · exact .inl found
  · obtain before | ⟨same, rfl, fresh⟩ := acquire_call found
    · rw [(lockOf_same _ _).2, (cleanUp_same _ _).2.1] at before
      exact .inl before
    · refine .inr ⟨same, rfl, ?_⟩
      cases phase with
      | served value =>
        have cached : cachedValue _ key' = some value := fresh
        rw [(lockOf_same _ _).1, (cleanUp_same _ _).1] at cached
        exact cachedValue_forget cached
      | computed value => exact fresh
      | _ => trivial

/-- Where a cached value comes from. -/
theorem exec_cached {e : CacheEvent K V} {o : Unit} (stepped : exec maxsize s e = .ok (t, o))
    (found : cachedValue t.contents key = some value) :
    cachedValue s.contents key = some value ∨ (∃ evicted, e = .set key (some value) evicted) ∨
      ∃ i evicted l, e = .finish i (some value) evicted ∧ s.call i = some ⟨key, .computing l⟩ := by
  cases e with
  | expire keys =>
    cases stepped
    exact .inl (cachedValue_forget found)
  | set key' stored evicted =>
    simp only [exec] at stepped
    split at stepped
    · cases stepped
    · cases stepped
      obtain ⟨rfl, rfl⟩ | before := cachedValue_store found
      · exact .inr (.inl ⟨evicted, rfl⟩)
      · exact .inl before
  | invalidate key' =>
    cases stepped
    exact .inl (cachedValue_forget found)
  | call key' expired =>
    cases stepped
    exact .inl (getOrSet_contents found)
  | resume i =>
    simp only [exec] at stepped
    split at stepped
    · split at stepped
      · cases stepped
        rw [enter_same] at found
        exact .inl found
      · cases stepped
    · cases stepped
  | finish i stored evicted =>
    simp only [exec] at stepped
    split at stepped
    · next key' l call =>
      cases stepped
      unfold CacheState.finish at found
      dsimp only at found
      split at found
      · exact .inl found
      · obtain ⟨rfl, rfl⟩ | before := cachedValue_store found
        · exact .inr (.inr ⟨i, evicted, l, rfl, call⟩)
        · exact .inl before
    · cases stepped
  | fail i =>
    simp only [exec] at stepped
    split at stepped
    · cases stepped
      exact .inl found
    · cases stepped
  | cancel i =>
    simp only [exec] at stepped
    split at stepped
    · cases stepped
      exact .inl found
    · cases stepped

theorem exec_call {e : CacheEvent K V} {o : Unit} (stepped : exec maxsize s e = .ok (t, o))
    (found : t.call j = some ⟨key, phase⟩) : Reaches s e j key phase := by
  cases e with
  | expire keys | invalidate key' =>
    cases stepped
    exact .before found
  | set key' stored evicted =>
    simp only [exec] at stepped
    split at stepped
    · cases stepped
    · cases stepped
      exact .before found
  | call key' expired =>
    cases stepped
    obtain before | ⟨rfl, rfl, fresh⟩ := getOrSet_call found
    · exact .before before
    · exact reaches_of_fresh (.inl ⟨expired, rfl, rfl⟩) fresh
  | resume i =>
    simp only [exec] at stepped
    split at stepped
    · next key' l call =>
      split at stepped
      · cases stepped
        obtain before | ⟨rfl, rfl, fresh⟩ := enter_call found
        · exact .before before
        · exact reaches_of_fresh (.inr ⟨rfl, l, call⟩) fresh
      · cases stepped
    · cases stepped
  | finish i stored evicted =>
    simp only [exec] at stepped
    split at stepped
    · next key' l call =>
      cases stepped
      unfold CacheState.finish at found
      dsimp only at found
      split at found <;> rw [setCall_call] at found <;> split at found
      · cases found
        exact .without rfl
      · exact .before found
      · next same =>
        subst same
        cases found
        exact .made rfl call
      · exact .before found
    · cases stepped
  | fail i | cancel i =>
    simp only [exec] at stepped
    split at stepped
    · cases stepped
      rw [setCall_call] at found
      split at found
      · cases found
        exact .without rfl
      · exact .before found
    · cases stepped

end CacheState

/-- What the log tells of the cache and of the calls that returned. -/
structure Accounted (log : List (CacheEntry K V)) (s : CacheState K V) : Prop where
  cached : ∀ key value, cachedValue s.contents key = some value →
    WasSet log key (some value) ∨ ∃ i, FactoryMade log i key (some value)
  served : ∀ i key value, s.call i = some ⟨key, .served value⟩ →
    FoundCached log i key value ∧
      (WasSet log key (some value) ∨ ∃ j, FactoryMade log j key (some value))
  computed : ∀ i key value, s.call i = some ⟨key, .computed value⟩ → FactoryMade log i key value

theorem Accounted.step (h : Accounted log s) {event : CacheEvent K V} {o : Unit}
    (stepped : CacheState.exec maxsize s event = .ok (t, o)) :
    Accounted (log ++ [⟨s, event, o, t⟩]) t where
  cached key value found := by
    obtain before | ⟨evicted, rfl⟩ | ⟨i, evicted, l, rfl, call⟩ :=
      CacheState.exec_cached stepped found
    · exact sources_longer (h.cached key value before)
    · exact .inl ⟨_, mem_last, evicted, rfl⟩
    · exact .inr ⟨i, _, mem_last, ⟨evicted, rfl⟩, l, call⟩
  served i key value found := by
    cases CacheState.exec_call stepped found with
    | before same =>
      obtain ⟨cached, source⟩ := h.served i key value same
      exact ⟨cached.longer, sources_longer source⟩
    | cached step cached =>
      exact ⟨⟨_, mem_last, step, cached⟩, sources_longer (h.cached key value cached)⟩
    | without none => cases none
  computed i key value found := by
    cases CacheState.exec_call stepped found with
    | before same => exact (h.computed i key value same).longer
    | made finished call => exact ⟨_, mem_last, ⟨_, finished⟩, _, call⟩
    | without none => cases none

def cacheRun (maxsize : ℕ) (es : List (CacheEvent K V)) : CacheState K V :=
  (cacheMachine K V maxsize).run .empty es

def cacheLog (maxsize : ℕ) (es : List (CacheEvent K V)) : List (CacheEntry K V) :=
  (cacheMachine K V maxsize).log .empty es

theorem cacheRun_accounted (maxsize : ℕ) (es : List (CacheEvent K V)) :
    Accounted (cacheLog maxsize es) (cacheRun maxsize es) := by
  refine (cacheMachine K V maxsize).run_induction (I := Accounted) ?_
    (fun _ _ _ _ _ h stepped => h.step stepped) es
  exact ⟨fun _ _ h => (by cases h), fun _ _ _ h => (by cases h), fun _ _ _ h => (by cases h)⟩

/-- In every run the values are those of their keys, and in a run that takes no lock from the table
while a call waits for it no two factories of one key run at a time. -/
theorem cache_single_flight (maxsize : ℕ) (es : List (CacheEvent K V)) :
    ((∀ e ∈ cacheLog maxsize es, KeepsAwaited maxsize e) → SingleFlight (cacheRun maxsize es)) ∧
    ∀ i key phase, (cacheRun maxsize es).call i = some ⟨key, phase⟩ →
      (∀ value, phase.result = some value →
        WasSet (cacheLog maxsize es) key value ∨ ∃ j, FactoryMade (cacheLog maxsize es) j key value) ∧
      ∀ value, phase = .served value → FoundCached (cacheLog maxsize es) i key value := by
  have accounted := cacheRun_accounted (K := K) (V := V) maxsize es
  refine ⟨fun orderly => ?_, fun i key phase found => ⟨fun value result => ?_, fun value same => ?_⟩⟩
  · refine CacheState.Sound.singleFlight ?_
    exact (cacheMachine K V maxsize).run_invariant_where (I := CacheState.Sound)
      (C := KeepsAwaited maxsize) .empty (fun _ _ _ _ h stepped kept => h.step stepped kept) es orderly
  · cases phase with
    | served value =>
      cases result
      exact (accounted.served i key value found).2
    | computed value =>
      cases result
      exact .inr ⟨i, accounted.computed i key _ found⟩
    | _ => cases result
  · subst same
    exact (accounted.served i key value found).1

/-- A run without invalidations and with few keys is orderly. -/
theorem keepsAwaited_of_few {e : CacheEntry K V} (few : e.before.locks.keys.length ≤ maxsize * 2)
    (none : ∀ key, e.input ≠ .invalidate key) : KeepsAwaited maxsize e := by
  unfold KeepsAwaited
  split
  · next key same => exact (none key same).elim
  · exact fun _ crowded => absurd few (not_le.mpr crowded)
  · trivial

end Cache

section Sample

/-- Two calls for one key; the second waits and finds what the first one made. -/
def sampleCalls : List (CacheEvent ℕ ℕ) :=
  [.call 1 [], .call 1 [], .finish 0 (some 42) [], .resume 1]

theorem sampleCalls_log : cacheLog 10 sampleCalls ≠ [] ∧
    ∀ e ∈ cacheLog 10 sampleCalls, e.before.locks.keys.length ≤ 20 := by
  decide

theorem cache_single_flight_sample : cacheLog 10 sampleCalls ≠ [] ∧
    SingleFlight (cacheRun 10 sampleCalls) := by
  refine ⟨sampleCalls_log.1, (cache_single_flight 10 sampleCalls).1 fun e he => ?_⟩
  refine keepsAwaited_of_few (sampleCalls_log.2 e he) fun key same => ?_
  have mem := (cacheMachine ℕ ℕ 10).input_mem_of_mem_log he
  rw [same] at mem
  simp [sampleCalls] at mem

/-- The factory of the first call raises; before the second call goes on, the key is invalidated and
a third call comes. -/
def sampleRace : List (CacheEvent ℕ ℕ) :=
  [.call 1 [], .call 1 [], .fail 0, .invalidate 1, .call 1 [], .resume 1]

/-- Two factories of one key run at a time. -/
theorem cache_double_flight : ¬ SingleFlight (cacheRun 10 sampleRace) := by
  intro h
  have second : (cacheRun 10 sampleRace).call 1 = some ⟨1, .computing 0⟩ := rfl
  have third : (cacheRun 10 sampleRace).call 2 = some ⟨1, .computing 1⟩ := rfl
  cases h 1 2 1 0 1 second third

end Sample

end Privana
