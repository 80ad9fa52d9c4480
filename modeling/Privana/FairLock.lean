import Mathlib.Data.Option.Basic
import Mathlib.Data.List.Basic

/-! A fair lock. A task takes it at once only if it is free and no other task waits; the first one
that waits takes it when it comes to run after a release. -/

namespace Privana

structure FairLock where
  holder : Option ℕ
  waiters : List ℕ

namespace FairLock

variable {lock : FairLock} {i j : ℕ}

def new : FairLock := ⟨none, []⟩

def locked (lock : FairLock) : Bool := lock.holder.isSome

/-- Nothing is in the way of a task that comes now. -/
def free (lock : FairLock) : Bool := !lock.locked && lock.waiters.isEmpty

def take (lock : FairLock) (i : ℕ) : FairLock := { lock with holder := some i }

def wait (lock : FairLock) (i : ℕ) : FairLock := { lock with waiters := lock.waiters ++ [i] }

/-- The task is the first one that waits, and the lock was released. -/
def mayWake (lock : FairLock) (i : ℕ) : Bool := !lock.locked && lock.waiters.head? = some i

def wake (lock : FairLock) (i : ℕ) : FairLock := ⟨some i, lock.waiters.tail⟩

def release (lock : FairLock) : FairLock := { lock with holder := none }

def leave (lock : FairLock) (i : ℕ) : FairLock :=
  { lock with waiters := lock.waiters.filter (· ≠ i) }

/-- A task has kept its place. -/
def Keeps (j : ℕ) (lock next : FairLock) : Prop :=
  (j ∈ lock.waiters → j ∈ next.waiters) ∧ (lock.holder = some j → next.holder = some j)

theorem Keeps.refl (j : ℕ) (lock : FairLock) : Keeps j lock lock := ⟨id, id⟩

theorem Keeps.trans {a b c : FairLock} (h : Keeps j a b) (h' : Keeps j b c) : Keeps j a c :=
  ⟨fun mem => h'.1 (h.1 mem), fun held => h'.2 (h.2 held)⟩

theorem holder_of_not_locked (h : lock.locked = false) : lock.holder = none :=
  Option.not_isSome_iff_eq_none.mp (Bool.eq_false_iff.mp h)

theorem free_iff : lock.free = true ↔ lock.locked = false ∧ lock.waiters = [] := by
  simp [free]

theorem take_keeps (h : lock.locked = false) : Keeps j lock (lock.take i) := by
  refine ⟨id, fun held => ?_⟩
  rw [holder_of_not_locked h] at held
  cases held

theorem wait_keeps : Keeps j lock (lock.wait i) := ⟨List.mem_append_left _, id⟩

theorem mem_wait : i ∈ (lock.wait i).waiters := List.mem_append_right _ (List.mem_singleton_self i)

theorem wake_keeps (h : lock.mayWake i = true) (other : j ≠ i) : Keeps j lock (lock.wake i) := by
  simp only [mayWake, Bool.and_eq_true, Bool.not_eq_true', decide_eq_true_eq] at h
  refine ⟨fun mem => ?_, fun held => ?_⟩
  · obtain ⟨rest, same⟩ := List.head?_eq_some_iff.mp h.2
    rw [same] at mem
    simp only [wake, same, List.tail_cons]
    exact (List.mem_cons.mp mem).resolve_left other
  · rw [holder_of_not_locked h.1] at held
    cases held

theorem release_keeps (h : lock.holder = some i) (other : j ≠ i) : Keeps j lock lock.release := by
  refine ⟨id, fun held => ?_⟩
  rw [h] at held
  exact (other (Option.some_inj.mp held).symm).elim

theorem leave_keeps (other : j ≠ i) : Keeps j lock (lock.leave i) :=
  ⟨fun mem => List.mem_filter.mpr ⟨mem, decide_eq_true other⟩, id⟩

end FairLock

end Privana
