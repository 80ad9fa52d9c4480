import Mathlib.Data.List.AList
import Privana.FairLock
import Privana.TransactionMachine

/-! `AsyncTTLCache`. Between two waits a call runs alone; an entry may expire at any moment, and any
entry may make room for a new one. The lock of a key is found in a table that is cleaned up. -/

namespace Privana

section Cache
variable {K V : Type} [DecidableEq K]

/-- The entries that have not expired; a `None` may be cached too. -/
abbrev CacheContents (K V : Type) := K → Option (Option V)

inductive CallPhase (V : Type) where
  /-- In the queue of the lock. -/
  | waiting (lock : ℕ)
  /-- Under the lock, while the factory runs. -/
  | computing (lock : ℕ)
  /-- Returned what was found in the cache. -/
  | served (value : V)
  /-- Returned what its factory made. -/
  | computed (value : Option V)
  | raised

/-- A call of `get_or_set_async`. -/
structure CacheCall (K V : Type) where
  key : K
  phase : CallPhase V

structure CacheState (K V : Type) where
  contents : CacheContents K V
  locks : AList fun _ : K => ℕ
  /-- The locks made so far, also those that are no longer in the table. -/
  lock : ℕ → FairLock
  created : ℕ
  call : ℕ → Option (CacheCall K V)
  started : ℕ

inductive CacheEvent (K V : Type) where
  | expire (keys : List K)
  | set (key : K) (value : Option V) (evicted : List K)
  | invalidate (key : K)
  /-- A call starts; some entries expire before its clean-up looks at them. -/
  | call (key : K) (expired : List K)
  /-- The first waiter of a lock goes on. -/
  | resume (task : ℕ)
  | finish (task : ℕ) (value : Option V) (evicted : List K)
  /-- The factory raises, or the call is cancelled in it. -/
  | fail (task : ℕ)
  /-- The call is cancelled while it waits for the lock. -/
  | cancel (task : ℕ)

def forget (contents : CacheContents K V) (keys : List K) : CacheContents K V :=
  fun key => if key ∈ keys then none else contents key

/-- `self._cache[key] = value`. -/
def cacheStore (contents : CacheContents K V) (key : K) (value : Option V) (evicted : List K) :
    CacheContents K V := Function.update (forget contents evicted) key (some value)

/-- `self._cache.get(key)`, if it is not `None`. -/
def cachedValue (contents : CacheContents K V) (key : K) : Option V := (contents key).join

/-- A lock leaves the table if it is not held. -/
def dropUnheld (lock : ℕ → FairLock) (locks : AList fun _ : K => ℕ) (key : K) :
    AList fun _ : K => ℕ :=
  match locks.lookup key with
  | none => locks
  | some l => if (lock l).locked then locks else locks.erase key

namespace CacheState

def empty : CacheState K V := ⟨fun _ => none, ∅, fun _ => .new, 0, fun _ => none, 0⟩

def setCall (s : CacheState K V) (i : ℕ) (key : K) (phase : CallPhase V) : CacheState K V :=
  { s with call := Function.update s.call i (some ⟨key, phase⟩) }

def setLock (s : CacheState K V) (l : ℕ) (lock : FairLock) : CacheState K V :=
  { s with lock := Function.update s.lock l lock }

def staleKeys (s : CacheState K V) : List K :=
  s.locks.keys.filter fun key => (s.contents key).isNone

/-- The lazy clean-up of the table. -/
def cleanUp (maxsize : ℕ) (s : CacheState K V) : CacheState K V :=
  if maxsize * 2 < s.locks.keys.length then
    { s with locks := s.staleKeys.foldl (dropUnheld s.lock) s.locks }
  else s

/-- The lock of the key, and the table with it. -/
def lockOf (s : CacheState K V) (key : K) : ℕ × CacheState K V :=
  match s.locks.lookup key with
  | some l => (l, s)
  | none => (s.created, { s.setLock s.created .new with
      locks := s.locks.insert key s.created
      created := s.created + 1 })

/-- The body of `async with lock`, up to its factory. -/
def enter (s : CacheState K V) (i : ℕ) (key : K) (l : ℕ) : CacheState K V :=
  match cachedValue s.contents key with
  | some value => (s.setLock l (s.lock l).release).setCall i key (.served value)
  | none => s.setCall i key (.computing l)

def acquire (s : CacheState K V) (i : ℕ) (key : K) (l : ℕ) : CacheState K V :=
  if (s.lock l).free then (s.setLock l ((s.lock l).take i)).enter i key l
  else (s.setLock l ((s.lock l).wait i)).setCall i key (.waiting l)

/-- `get_or_set_async` up to its first wait. -/
def getOrSet (maxsize : ℕ) (s : CacheState K V) (key : K) (expired : List K) : CacheState K V :=
  let i := s.started
  let s := { s with started := i + 1 }
  match cachedValue s.contents key with
  | some value => s.setCall i key (.served value)
  | none =>
    let found := (cleanUp maxsize { s with contents := forget s.contents expired }).lockOf key
    found.2.acquire i key found.1

/-- The factory has returned; with no room at all the assignment raises. -/
def finish (maxsize : ℕ) (s : CacheState K V) (i : ℕ) (key : K) (l : ℕ) (value : Option V)
    (evicted : List K) : CacheState K V :=
  let released := s.setLock l (s.lock l).release
  if maxsize = 0 then released.setCall i key .raised
  else { released with contents := cacheStore s.contents key value evicted }.setCall i key
    (.computed value)

def exec (maxsize : ℕ) (s : CacheState K V) : CacheEvent K V → Except Unit (CacheState K V × Unit)
  | .expire keys => .ok ({ s with contents := forget s.contents keys }, ())
  | .set key value evicted =>
    if maxsize = 0 then .error ()
    else .ok ({ s with contents := cacheStore s.contents key value evicted }, ())
  | .invalidate key =>
    .ok ({ s with contents := forget s.contents [key], locks := dropUnheld s.lock s.locks key }, ())
  | .call key expired => .ok (s.getOrSet maxsize key expired, ())
  | .resume i =>
    match s.call i with
    | some ⟨key, .waiting l⟩ =>
      if (s.lock l).mayWake i then .ok ((s.setLock l ((s.lock l).wake i)).enter i key l, ())
      else .error ()
    | _ => .error ()
  | .finish i value evicted =>
    match s.call i with
    | some ⟨key, .computing l⟩ => .ok (s.finish maxsize i key l value evicted, ())
    | _ => .error ()
  | .fail i =>
    match s.call i with
    | some ⟨key, .computing l⟩ =>
      .ok ((s.setLock l (s.lock l).release).setCall i key .raised, ())
    | _ => .error ()
  | .cancel i =>
    match s.call i with
    | some ⟨key, .waiting l⟩ =>
      .ok ((s.setLock l ((s.lock l).leave i)).setCall i key .raised, ())
    | _ => .error ()

end CacheState

def cacheMachine (K V : Type) [DecidableEq K] (maxsize : ℕ) :
    TransactionMachine (CacheState K V) (CacheEvent K V) Unit Unit := ⟨CacheState.exec maxsize⟩

end Cache

end Privana
