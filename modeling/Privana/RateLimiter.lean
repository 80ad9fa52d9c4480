import Mathlib.Data.Rat.Floor
import Privana.CheckedArithmetic
import Privana.HexText
import Privana.TransactionMachine

/-! `AuthRateLimiter.hit`. A record names the end of its window, and its own lifetime is cut to
whole seconds at every hit: the limit holds as long as no record is gone before its window ends. -/

namespace Privana
open CheckedArithmetic

structure RateRecord where
  count : ℤ
  resetAt : ℚ

/-- What is on disk, each record with the time at which it disappears. -/
abbrev RateCache := Text → Option (RateRecord × ℚ)

structure HitCall where
  bucket : Text
  key : Text
  limit : ℤ
  windowSeconds : ℤ
  now : ℚ

def rateCacheKey (bucket key : Text) : Text := text "rate_limit:" ++ bucket ++ text ":" ++ key

def HitCall.cacheKey (call : HitCall) : Text := rateCacheKey call.bucket call.key

namespace RateCache

def empty : RateCache := fun _ => none

def get (cache : RateCache) (key : Text) (now : ℚ) : Option RateRecord :=
  match cache key with
  | some (record, disappearsAt) => if now < disappearsAt then some record else none
  | none => none

def set (cache : RateCache) (key : Text) (record : RateRecord) (expire : ℤ) (now : ℚ) : RateCache :=
  Function.update cache key (some (record, now + expire))

/-- A new window, with its first hit. -/
def openWindow (cache : RateCache) (call : HitCall) : RateCache :=
  cache.set call.cacheKey ⟨1, call.now + call.windowSeconds⟩ call.windowSeconds call.now

end RateCache

/-- `max(1, int(reset_at - now))`. -/
def secondsLeft (resetAt now : ℚ) : ℤ := max 1 (truncate (resetAt - now))

/-- The seconds after which to retry, if the hit is rejected. -/
def hit (cache : RateCache) (call : HitCall) : Option ℤ × RateCache :=
  if call.limit ≤ 0 ∨ call.windowSeconds ≤ 0 then (none, cache)
  else
    match cache.get call.cacheKey call.now with
    | none => (none, cache.openWindow call)
    | some existing =>
      if existing.resetAt ≤ call.now then (none, cache.openWindow call)
      else if call.limit ≤ existing.count then
        (some (secondsLeft existing.resetAt call.now), cache)
      else
        (none, cache.set call.cacheKey ⟨existing.count + 1, existing.resetAt⟩
          (secondsLeft existing.resetAt call.now) call.now)

def rateLimiter : TransactionMachine RateCache HitCall (Option ℤ) Empty :=
  ⟨fun cache call => .ok (hit cache call).swap⟩

abbrev HitEntry := TransactionMachine.Entry RateCache HitCall (Option ℤ)

def hitLog (calls : List HitCall) : List HitEntry := rateLimiter.log .empty calls

/-- The times of the hits under the key that were accepted. -/
def acceptedTimes (key : Text) (log : List HitEntry) : List ℚ :=
  (log.filter fun e => e.input.cacheKey = key ∧ e.output = none).map fun e => e.input.now

/-- The hit was accepted, and found no window that still lasted. -/
def openedBy (key : Text) (e : HitEntry) : List ℚ :=
  if e.input.cacheKey = key ∧ e.output = none ∧
      (e.before.get key e.input.now).all (·.resetAt ≤ e.input.now) then [e.input.now] else []

/-- The times at which the windows of the key were opened. -/
def openings (key : Text) (log : List HitEntry) : List ℚ := log.flatMap (openedBy key)

/-- The record is not gone while its window lasts. -/
def HitEntry.Timely (key : Text) (e : HitEntry) : Prop :=
  ∀ record disappearsAt, e.before key = some (record, disappearsAt) →
    disappearsAt ≤ e.input.now → record.resetAt ≤ e.input.now

def countWithin (window : ℚ) (times : List ℚ) (s : ℚ) : ℕ :=
  times.countP fun t => s ≤ t ∧ t < s + window

/-- The windows, each opened by an accepted hit and all of one length, cut the accepted hits. -/
structure CutsInto (limit : ℤ) (window : ℚ) (times opens : List ℚ) : Prop where
  accepted : opens ⊆ times
  apart : opens.Pairwise fun s s' => s + window ≤ s'
  covered : ∀ t ∈ times, ∃ s ∈ opens, s ≤ t ∧ t < s + window
  few : ∀ s ∈ opens, (countWithin window times s : ℤ) ≤ limit

section Windows
variable {limit : ℤ} {window : ℚ} {times opens : List ℚ} {s t : ℚ}

theorem countWithin_concat : countWithin window (times ++ [t]) s =
    countWithin window times s + if s ≤ t ∧ t < s + window then 1 else 0 := by
  simp [countWithin, List.countP_append, List.countP_cons]

theorem CutsInto.extend (h : CutsInto limit window times (opens ++ [s])) (after : s ≤ t)
    (before : t < s + window) (room : (countWithin window times s : ℤ) < limit) :
    CutsInto limit window (times ++ [t]) (opens ++ [s]) where
  accepted := fun _ hs => List.mem_append_left _ (h.accepted hs)
  apart := h.apart
  covered u hu := by
    rcases List.mem_append.mp hu with hu | hu
    · exact h.covered u hu
    · rw [List.mem_singleton.mp hu]
      exact ⟨s, by simp, after, before⟩
  few u hu := by
    rw [countWithin_concat]
    rcases List.mem_append.mp hu with old | last
    · have apart : u + window ≤ s := (List.pairwise_append.mp h.apart).2.2 u old s (by simp)
      rw [if_neg fun inside => not_lt.mpr (apart.trans after) inside.2]
      exact h.few u hu
    · rw [List.mem_singleton.mp last, if_pos ⟨after, before⟩]
      push_cast
      omega

/-- No accepted hit lies in a window that opens when those before it are over. -/
theorem CutsInto.countWithin_next (h : CutsInto limit window times opens)
    (over' : ∀ s ∈ opens, s + window ≤ t) : countWithin window times t = 0 := by
  refine List.countP_eq_zero.mpr fun a ha inside => ?_
  obtain ⟨s, hs, -, lt⟩ := h.covered a ha
  exact not_le.mpr (lt.trans_le (over' s hs)) (of_decide_eq_true inside).1

theorem CutsInto.next (h : CutsInto limit window times opens) (over' : ∀ s ∈ opens, s + window ≤ t)
    (positive : 0 < window) (allowed : 1 ≤ limit) :
    CutsInto limit window (times ++ [t]) (opens ++ [t]) where
  accepted := List.append_subset.mpr ⟨fun _ hs => List.mem_append_left _ (h.accepted hs), by simp⟩
  apart := List.pairwise_append.mpr ⟨h.apart, List.pairwise_singleton _ _, fun s hs u hu => by
    rw [List.mem_singleton.mp hu]
    exact over' s hs⟩
  covered u hu := by
    rcases List.mem_append.mp hu with hu | hu
    · obtain ⟨s, hs, inside⟩ := h.covered u hu
      exact ⟨s, List.mem_append_left _ hs, inside⟩
    · rw [List.mem_singleton.mp hu]
      exact ⟨t, by simp, le_rfl, lt_add_of_pos_right t positive⟩
  few u hu := by
    rw [countWithin_concat]
    rcases List.mem_append.mp hu with old | last
    · rw [if_neg fun inside => not_lt.mpr (over' u old) inside.2]
      exact h.few u old
    · rw [List.mem_singleton.mp last, h.countWithin_next over',
        if_pos ⟨le_rfl, lt_add_of_pos_right t positive⟩]
      simpa using allowed

theorem CutsInto.nothing : CutsInto limit window [] [] where
  accepted := List.Subset.refl _
  apart := List.Pairwise.nil
  covered _ h := by cases h
  few _ h := by cases h

end Windows

theorem secondsLeft_bounds {resetAt now : ℚ} (left : now < resetAt) :
    1 ≤ secondsLeft resetAt now ∧ (secondsLeft resetAt now : ℚ) ≤ resetAt - now + 1 := by
  have positive : 0 < resetAt - now := sub_pos.mpr left
  refine ⟨le_max_left _ _, ?_⟩
  rw [secondsLeft, truncate_of_nonneg positive.le, Int.cast_max, max_le_iff]
  refine ⟨?_, (Int.floor_le _).trans (by linarith)⟩
  push_cast
  linarith

section Runs
variable {limit window : ℤ} {key : Text} {calls : List HitCall} {call : HitCall}

theorem hitLog_concat : hitLog (calls ++ [call]) = hitLog calls ++
    [⟨rateLimiter.run .empty calls, call, (hit (rateLimiter.run .empty calls) call).1,
      (hit (rateLimiter.run .empty calls) call).2⟩] := by
  rw [hitLog, TransactionMachine.log_concat, TransactionMachine.record_of_ok _ rfl]
  rfl

theorem acceptedTimes_concat (log : List HitEntry) (e : HitEntry) :
    acceptedTimes key (log ++ [e]) = acceptedTimes key log ++
      if e.input.cacheKey = key ∧ e.output = none then [e.input.now] else [] := by
  rw [acceptedTimes, List.filter_append, List.map_append, List.filter_singleton]
  by_cases h : e.input.cacheKey = key ∧ e.output = none
  · rw [if_pos h, decide_eq_true h]
    rfl
  · rw [if_neg h, decide_eq_false h]
    rfl

theorem openings_concat (log : List HitEntry) (e : HitEntry) :
    openings key (log ++ [e]) = openings key log ++ openedBy key e := by
  simp [openings]

/-- The record of a key is the last window, with the hits in it. -/
def Records (limit window : ℤ) (times opens : List ℚ) : Option (RateRecord × ℚ) → Prop
  | none => times = [] ∧ opens = []
  | some (record, _) => CutsInto limit window times opens ∧
      ∃ s ∈ opens.getLast?, record.resetAt = s + window ∧ record.count = countWithin window times s

/-- The end of the window in a record is that of the window opened last. -/
def Opened (window : ℤ) (opens : List ℚ) : Option (RateRecord × ℚ) → Prop
  | none => True
  | some (record, _) => ∃ s ∈ opens.getLast?, record.resetAt = s + window

/-- All that a hit can do. -/
inductive HitStep (cache : RateCache) (call : HitCall) : Option ℤ → RateCache → Prop
  | unlimited (h : call.limit ≤ 0 ∨ call.windowSeconds ≤ 0) : HitStep cache call none cache
  | first (missing : cache.get call.cacheKey call.now = none) :
      HitStep cache call none (cache.openWindow call)
  | next {record : RateRecord} (found : cache.get call.cacheKey call.now = some record)
      (ended : record.resetAt ≤ call.now) : HitStep cache call none (cache.openWindow call)
  | reject {record : RateRecord} (found : cache.get call.cacheKey call.now = some record)
      (left : call.now < record.resetAt) (full : call.limit ≤ record.count) :
      HitStep cache call (some (secondsLeft record.resetAt call.now)) cache
  | accept {record : RateRecord} (found : cache.get call.cacheKey call.now = some record)
      (left : call.now < record.resetAt) (room : record.count < call.limit) :
      HitStep cache call none (cache.set call.cacheKey ⟨record.count + 1, record.resetAt⟩
        (secondsLeft record.resetAt call.now) call.now)

theorem hit_step (cache : RateCache) (call : HitCall) :
    HitStep cache call (hit cache call).1 (hit cache call).2 := by
  unfold hit
  split
  · next h => exact .unlimited h
  · split
    · next missing => exact .first missing
    · next record found =>
      split
      · next ended => exact .next found ended
      · next left =>
        split
        · next full => exact .reject found (not_le.mp left) full
        · next room => exact .accept found (not_le.mp left) (not_le.mp room)

theorem get_some {cache : RateCache} {key : Text} {now : ℚ} {record : RateRecord}
    (h : cache.get key now = some record) :
    ∃ disappearsAt, cache key = some (record, disappearsAt) := by
  unfold RateCache.get at h
  split at h
  · next stored disappearsAt same =>
    split at h
    · cases h
      exact ⟨disappearsAt, same⟩
    · cases h
  · cases h

theorem get_none {cache : RateCache} {key : Text} {now : ℚ} {record : RateRecord}
    {disappearsAt : ℚ} (h : cache.get key now = none)
    (stored : cache key = some (record, disappearsAt)) : disappearsAt ≤ now := by
  unfold RateCache.get at h
  rw [stored] at h
  split at h
  · next same =>
    cases same
    split at h
    · cases h
    · next gone => exact not_lt.mp gone
  · next same => cases same

theorem set_self (cache : RateCache) (key : Text) (record : RateRecord) (expire : ℤ) (now : ℚ) :
    cache.set key record expire now key = some (record, now + expire) := Function.update_self _ _ _

theorem set_of_ne (cache : RateCache) {key other : Text} (ne : key ≠ other) (record : RateRecord)
    (expire : ℤ) (now : ℚ) : cache.set other record expire now key = cache key :=
  Function.update_of_ne ne _ _

/-- A hit under another key leaves the record. -/
theorem HitStep.other {cache after : RateCache} {reply : Option ℤ} (h : HitStep cache call reply after)
    (ne : call.cacheKey ≠ key) : after key = cache key := by
  cases h with
  | unlimited => rfl
  | first => exact set_of_ne cache ne.symm _ _ _
  | next => exact set_of_ne cache ne.symm _ _ _
  | reject => rfl
  | accept => exact set_of_ne cache ne.symm _ _ _

section Opening
variable {cache after : RateCache} {reply : Option ℤ}

theorem openedBy_other (ne : call.cacheKey ≠ key) :
    openedBy key ⟨cache, call, reply, after⟩ = [] :=
  if_neg fun opened => ne opened.1

theorem openedBy_reject {retryAfter : ℤ} :
    openedBy key ⟨cache, call, some retryAfter, after⟩ = [] :=
  if_neg fun opened => by cases opened.2.1

theorem openedBy_accept {record : RateRecord}
    (found : cache.get call.cacheKey call.now = some record) (left : call.now < record.resetAt) :
    openedBy call.cacheKey ⟨cache, call, reply, after⟩ = [] := by
  refine if_neg fun opened => ?_
  simp [found, not_le.mpr left] at opened

theorem openedBy_open (ended : ∀ record, cache.get call.cacheKey call.now = some record →
    record.resetAt ≤ call.now) :
    openedBy call.cacheKey ⟨cache, call, none, after⟩ = [call.now] := by
  refine if_pos ⟨rfl, rfl, ?_⟩
  cases found : cache.get call.cacheKey call.now with
  | none => rfl
  | some record => simpa using ended record found

end Opening

theorem Records.opening {times opens : List ℚ} {stored : RateRecord × ℚ}
    (h : Records limit window times opens (some stored)) :
    ∀ s ∈ opens, s + window ≤ stored.1.resetAt := by
  obtain ⟨cuts, s, last, reset, -⟩ := h
  obtain ⟨before, rfl⟩ := List.getLast?_eq_some_iff.mp last
  intro u hu
  rw [reset]
  rcases List.mem_append.mp hu with old | last
  · have apart : u + window ≤ s := (List.pairwise_append.mp cuts.apart).2.2 u old s (by simp)
    have inside := cuts.accepted hu
    obtain ⟨a, -, lower, upper⟩ := cuts.covered u inside
    have later : (0 : ℚ) < window := by linarith
    linarith
  · rw [List.mem_singleton.mp last]

/-- A window that is opened when those before it are over. -/
theorem Records.openWindow {times opens : List ℚ} {cache : RateCache} (hl : 1 ≤ limit)
    (hw : 1 ≤ window) (h : Records limit window times opens (cache call.cacheKey))
    (same : call.windowSeconds = window)
    (ended : ∀ stored, cache call.cacheKey = some stored → stored.1.resetAt ≤ call.now) :
    Records limit window (times ++ [call.now]) (opens ++ [call.now])
      (cache.openWindow call call.cacheKey) := by
  have positive : (0 : ℚ) < window := by exact_mod_cast hw
  have cuts : CutsInto limit window times opens ∧ ∀ s ∈ opens, s + window ≤ call.now := by
    cases stored : cache call.cacheKey with
    | none =>
      rw [stored] at h
      obtain ⟨rfl, rfl⟩ : times = [] ∧ opens = [] := h
      exact ⟨.nothing, fun _ hs => by cases hs⟩
    | some stored' =>
      rw [stored] at h
      exact ⟨h.1, fun s hs => (h.opening s hs).trans (ended _ stored)⟩
  obtain ⟨cuts, before⟩ := cuts
  rw [RateCache.openWindow, set_self]
  refine ⟨cuts.next before positive hl, call.now, by simp, by rw [same], ?_⟩
  rw [countWithin_concat, cuts.countWithin_next before,
    if_pos ⟨le_rfl, lt_add_of_pos_right _ positive⟩]
  rfl

/-- One hit keeps the record of the key, unless it finds it gone too early. -/
theorem Records.step {times opens : List ℚ} {cache after : RateCache} {reply : Option ℤ}
    (hl : 1 ≤ limit) (hw : 1 ≤ window) (h : Records limit window times opens (cache key))
    (earlier : ∀ t ∈ times, t ≤ call.now)
    (same : call.cacheKey = key → call.limit = limit ∧ call.windowSeconds = window)
    (timely : call.cacheKey = key → ∀ record disappearsAt,
      cache key = some (record, disappearsAt) → disappearsAt ≤ call.now → record.resetAt ≤ call.now)
    (step : HitStep cache call reply after) :
    Records limit window (times ++ if call.cacheKey = key ∧ reply = none then [call.now] else [])
      (opens ++ openedBy key ⟨cache, call, reply, after⟩) (after key) := by
  by_cases own : call.cacheKey = key
  · subst own
    obtain ⟨limits, windows⟩ := same rfl
    cases step with
    | unlimited none => omega
    | first missing =>
      rw [if_pos ⟨rfl, rfl⟩, openedBy_open fun record found => by simp [missing] at found]
      exact h.openWindow hl hw windows fun stored found =>
        timely rfl stored.1 stored.2 found (get_none missing found)
    | next found ended =>
      obtain ⟨disappearsAt, stored⟩ := get_some found
      rw [if_pos ⟨rfl, rfl⟩, openedBy_open fun record found' => by
        rwa [Option.some.inj (found'.symm.trans found)]]
      refine h.openWindow hl hw windows fun stored' found' => ?_
      cases stored.symm.trans found'
      exact ended
    | reject =>
      rw [if_neg (by rintro ⟨-, ⟨⟩⟩), openedBy_reject, List.append_nil, List.append_nil]
      exact h
    | accept found left room =>
      obtain ⟨disappearsAt, stored⟩ := get_some found
      rw [stored] at h
      obtain ⟨cuts, s, last, reset, count⟩ := h
      obtain ⟨front, rfl⟩ := List.getLast?_eq_some_iff.mp last
      have after : s ≤ call.now := earlier s (cuts.accepted (by simp))
      have before : call.now < s + window := reset ▸ left
      rw [if_pos ⟨rfl, rfl⟩, openedBy_accept found left, List.append_nil, set_self]
      refine ⟨cuts.extend after before (by omega), s, last, reset, ?_⟩
      rw [countWithin_concat, if_pos ⟨after, before⟩, count]
      push_cast
      rfl
  · rw [if_neg fun accepted => own accepted.1, openedBy_other own, List.append_nil, List.append_nil,
      step.other own]
    exact h

theorem Opened.step {opens : List ℚ} {cache after : RateCache} {reply : Option ℤ}
    (hl : 1 ≤ limit) (hw : 1 ≤ window) (h : Opened window opens (cache key))
    (same : call.cacheKey = key → call.limit = limit ∧ call.windowSeconds = window)
    (step : HitStep cache call reply after) :
    Opened window (opens ++ openedBy key ⟨cache, call, reply, after⟩) (after key) := by
  by_cases own : call.cacheKey = key
  · subst own
    obtain ⟨limits, windows⟩ := same rfl
    cases step with
    | unlimited none => omega
    | first missing =>
      rw [openedBy_open fun record found => by simp [missing] at found, RateCache.openWindow,
        set_self]
      exact ⟨call.now, by simp, by rw [windows]⟩
    | next found ended =>
      rw [openedBy_open fun record found' => by
        rwa [Option.some.inj (found'.symm.trans found)], RateCache.openWindow, set_self]
      exact ⟨call.now, by simp, by rw [windows]⟩
    | reject =>
      rw [openedBy_reject, List.append_nil]
      exact h
    | accept found left =>
      obtain ⟨disappearsAt, stored⟩ := get_some found
      rw [stored] at h
      rw [openedBy_accept found left, List.append_nil, set_self]
      exact h
  · rw [openedBy_other own, List.append_nil, step.other own]
    exact h

theorem mem_of_mem_acceptedTimes {t : ℚ} (h : t ∈ acceptedTimes key (hitLog calls)) :
    ∃ c ∈ calls, c.now = t := by
  obtain ⟨e, he, rfl⟩ := List.mem_map.mp h
  exact ⟨e.input, rateLimiter.input_mem_of_mem_log (List.mem_filter.mp he).1, rfl⟩

theorem records_run (hl : 1 ≤ limit) (hw : 1 ≤ window)
    (ordered : calls.Pairwise fun c d => c.now ≤ d.now)
    (same : ∀ c ∈ calls, c.cacheKey = key → c.limit = limit ∧ c.windowSeconds = window)
    (timely : ∀ e ∈ hitLog calls, e.input.cacheKey = key → HitEntry.Timely key e) :
    Records limit window (acceptedTimes key (hitLog calls)) (openings key (hitLog calls))
      (rateLimiter.run .empty calls key) := by
  induction calls using List.reverseRecOn with
  | nil => exact ⟨rfl, rfl⟩
  | append_singleton calls call ih =>
    rw [hitLog_concat] at timely
    obtain ⟨ordered, -, last⟩ := List.pairwise_append.mp ordered
    have h := ih ordered (fun c hc => same c (List.mem_append_left _ hc))
      fun e he => timely e (List.mem_append_left _ he)
    rw [hitLog_concat, acceptedTimes_concat, openings_concat, TransactionMachine.run_concat]
    refine h.step hl hw (fun t ht => ?_) (same call (by simp)) (fun own => ?_) (hit_step _ call)
    · obtain ⟨c, hc, rfl⟩ := mem_of_mem_acceptedTimes ht
      exact last c hc call (by simp)
    · exact timely _ (List.mem_append_right _ (List.mem_singleton_self _)) own

theorem opened_run (hl : 1 ≤ limit) (hw : 1 ≤ window)
    (same : ∀ c ∈ calls, c.cacheKey = key → c.limit = limit ∧ c.windowSeconds = window) :
    Opened window (openings key (hitLog calls)) (rateLimiter.run .empty calls key) := by
  induction calls using List.reverseRecOn with
  | nil => trivial
  | append_singleton calls call ih =>
    have h := ih fun c hc => same c (List.mem_append_left _ hc)
    rw [hitLog_concat, openings_concat, TransactionMachine.run_concat]
    exact h.step hl hw (same call (by simp)) (hit_step _ call)

/-- A rejected hit is told how long the window lasts that was opened last. -/
def RetriesInTime (window : ℤ) (opens : List ℚ) (e : HitEntry) : Prop :=
  ∀ retryAfter, e.output = some retryAfter → ∃ s ∈ opens.getLast?, e.input.now < s + window ∧
    1 ≤ retryAfter ∧ (retryAfter : ℚ) ≤ s + window - e.input.now + 1

theorem HitStep.retries {opens : List ℚ} {cache after : RateCache} {reply : Option ℤ}
    (step : HitStep cache call reply after) (h : Opened window opens (cache call.cacheKey)) :
    RetriesInTime window opens ⟨cache, call, reply, after⟩ := by
  intro retryAfter told
  cases step with
  | reject found left =>
    cases told
    obtain ⟨disappearsAt, stored⟩ := get_some found
    rw [stored] at h
    obtain ⟨s, hs, reset⟩ := h
    rw [reset] at left ⊢
    obtain ⟨least, most⟩ := secondsLeft_bounds left
    exact ⟨s, hs, left, least, most⟩
  | _ => cases told

theorem retries_run (hl : 1 ≤ limit) (hw : 1 ≤ window)
    (same : ∀ c ∈ calls, c.cacheKey = key → c.limit = limit ∧ c.windowSeconds = window)
    {before after : List HitEntry} {e : HitEntry} (log : hitLog calls = before ++ e :: after)
    (own : e.input.cacheKey = key) : RetriesInTime window (openings key before) e := by
  induction calls using List.reverseRecOn generalizing after with
  | nil => cases before <;> cases log
  | append_singleton calls call ih =>
    have earlier : ∀ c ∈ calls, c.cacheKey = key → c.limit = limit ∧ c.windowSeconds = window :=
      fun c hc => same c (List.mem_append_left _ hc)
    rw [hitLog_concat] at log
    rcases List.eq_nil_or_concat after with rfl | ⟨after, last, rfl⟩
    · obtain ⟨rfl, ended⟩ := List.append_inj' log rfl
      obtain rfl := (List.cons.inj ended).1
      subst own
      exact (hit_step _ call).retries (opened_run hl hw earlier)
    · rw [List.concat_eq_append, ← List.cons_append, ← List.append_assoc] at log
      exact ih earlier (List.append_inj' log rfl).1

end Runs

/-- The limit holds in every run in which no hit finds the record of its window gone, and in
all runs a rejected hit is told the time that is left of the window opened last. -/
theorem rate_limit_windows (bucket key : Text) (limit window : ℤ) (hl : 1 ≤ limit)
    (hw : 1 ≤ window) (calls : List HitCall)
    (ordered : calls.Pairwise fun c d => c.now ≤ d.now)
    (same : ∀ c ∈ calls, c.cacheKey = rateCacheKey bucket key →
      c.limit = limit ∧ c.windowSeconds = window) :
    let opens := openings (rateCacheKey bucket key)
    ((∀ e ∈ hitLog calls, e.input.cacheKey = rateCacheKey bucket key →
        e.Timely (rateCacheKey bucket key)) →
      CutsInto limit window (acceptedTimes (rateCacheKey bucket key) (hitLog calls))
        (opens (hitLog calls))) ∧
      ∀ before e after, hitLog calls = before ++ e :: after →
        e.input.cacheKey = rateCacheKey bucket key → RetriesInTime window (opens before) e := by
  refine ⟨fun timely => ?_, fun before e after log own => retries_run hl hw same log own⟩
  have h := records_run hl hw ordered same timely
  cases stored : rateLimiter.run .empty calls (rateCacheKey bucket key) with
  | none =>
    rw [stored] at h
    rw [h.1, h.2]
    exact .nothing
  | some stored' =>
    rw [stored] at h
    exact h.1

section Sample

def sampleHit (now : ℚ) : HitCall := ⟨text "login", text "203.0.113.7", 2, 10, now⟩

/-- Two hits, which are all that ten seconds allow, and a third before the ten seconds are over. -/
def sampleHits : List HitCall := [sampleHit 0, sampleHit (1 / 2), sampleHit (48 / 5)]

/-- The same with a third that is rejected, and one after the ten seconds. -/
def sampleSparseHits : List HitCall := [sampleHit 0, sampleHit (1 / 2), sampleHit 5, sampleHit 10]

theorem acceptedTimes_sampleHits :
    acceptedTimes (rateCacheKey (text "login") (text "203.0.113.7")) (hitLog sampleHits) =
      [0, 1 / 2, 48 / 5] := by
  decide +kernel

/-- The record of the second hit lives nine seconds and the window lasts longer. -/
theorem rate_limit_overrun : ¬ ∀ (bucket key : Text) (limit window : ℤ), 1 ≤ limit → 1 ≤ window →
    ∀ calls : List HitCall, calls.Pairwise (fun c d => c.now ≤ d.now) →
      (∀ c ∈ calls, c.cacheKey = rateCacheKey bucket key →
        c.limit = limit ∧ c.windowSeconds = window) →
      ∃ opens, CutsInto limit window (acceptedTimes (rateCacheKey bucket key) (hitLog calls))
        opens := by
  intro claim
  have ordered : sampleHits.Pairwise fun c d => c.now ≤ d.now := by decide +kernel
  have same : ∀ c ∈ sampleHits, c.cacheKey = rateCacheKey (text "login") (text "203.0.113.7") →
      c.limit = 2 ∧ c.windowSeconds = 10 := by
    intro c hc _
    simp only [sampleHits, List.mem_cons, List.not_mem_nil, or_false] at hc
    rcases hc with rfl | rfl | rfl <;> exact ⟨rfl, rfl⟩
  obtain ⟨opens, cuts⟩ := claim _ _ 2 10 (by decide) (by decide) sampleHits ordered same
  rw [acceptedTimes_sampleHits] at cuts
  obtain ⟨s, hs, lower, -⟩ := cuts.covered 0 (by simp)
  have mem := cuts.accepted hs
  simp only [List.mem_cons, List.not_mem_nil, or_false] at mem
  have zero : s = 0 := by
    rcases mem with rfl | rfl | rfl
    · rfl
    · exact absurd lower (by norm_num)
    · exact absurd lower (by norm_num)
  have few := cuts.few s hs
  rw [zero] at few
  have three : countWithin ((10 : ℤ) : ℚ) [0, 1 / 2, 48 / 5] 0 = 3 := by decide +kernel
  rw [three] at few
  exact absurd few (by decide)

theorem rate_limit_windows_sample :
    let key := rateCacheKey (text "login") (text "203.0.113.7")
    CutsInto 2 10 (acceptedTimes key (hitLog sampleSparseHits))
        (openings key (hitLog sampleSparseHits)) ∧
      openings key (hitLog sampleSparseHits) = [0, 10] ∧
      (hitLog sampleSparseHits).map (·.output) = [none, none, some 5, none] := by
  have ordered : sampleSparseHits.Pairwise fun c d => c.now ≤ d.now := by decide +kernel
  have same : ∀ c ∈ sampleSparseHits,
      c.cacheKey = rateCacheKey (text "login") (text "203.0.113.7") →
        c.limit = 2 ∧ c.windowSeconds = 10 := by
    intro c hc _
    simp only [sampleSparseHits, List.mem_cons, List.not_mem_nil, or_false] at hc
    rcases hc with rfl | rfl | rfl | rfl <;> exact ⟨rfl, rfl⟩
  refine ⟨(rate_limit_windows (text "login") (text "203.0.113.7") 2 10 (by decide) (by decide)
    sampleSparseHits ordered same).1 fun e he _ record disappearsAt stored gone => ?_,
    by decide +kernel, by decide +kernel⟩
  have timely : ((hitLog sampleSparseHits).all fun e =>
      (e.before (rateCacheKey (text "login") (text "203.0.113.7"))).all fun p =>
        e.input.now < p.2 ∨ p.1.resetAt ≤ e.input.now) = true := by
    decide +kernel
  have holds := List.all_eq_true.mp timely e he
  rw [stored, Option.all_some, decide_eq_true_eq] at holds
  exact holds.resolve_left (not_lt.mpr gone)

end Sample

end Privana
