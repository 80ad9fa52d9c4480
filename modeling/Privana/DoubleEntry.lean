import Mathlib.Algebra.BigOperators.Group.Finset.Basic
import Mathlib.Algebra.BigOperators.Group.Finset.Piecewise
import Mathlib.Algebra.Order.Ring.Nat

/-! Double-entry bookkeeping over arbitrary accounts and tokens. A move takes an
amount out of its source and puts it into its target; without a source it issues,
without a target it retires. `Posts ms b b'` says that the moves `ms` lead from
book `b` to book `b'`, account by account; totals follow by summation. -/

namespace Privana.DoubleEntry

structure Move (α τ : Type*) where
  source : Option α
  target : Option α
  token : τ
  amount : ℕ

variable {α τ : Type*} [DecidableEq α] [DecidableEq τ]

/-- What the moves with end `f` at `a` carry of token `t`. -/
def flow (f : Move α τ → Option α) (ms : List (Move α τ)) (a : Option α) (t : τ) : ℕ :=
  (ms.map fun m => if f m = a ∧ m.token = t then m.amount else 0).sum

abbrev outflow : List (Move α τ) → Option α → τ → ℕ := flow Move.source

abbrev inflow : List (Move α τ) → Option α → τ → ℕ := flow Move.target

def volume (ms : List (Move α τ)) (t : τ) : ℕ :=
  (ms.map fun m => if m.token = t then m.amount else 0).sum

@[simp] theorem flow_nil (f : Move α τ → Option α) (a : Option α) (t : τ) : flow f [] a t = 0 := rfl

@[simp] theorem flow_cons (f : Move α τ → Option α) (m : Move α τ) (ms : List (Move α τ))
    (a : Option α) (t : τ) :
    flow f (m :: ms) a t = (if f m = a ∧ m.token = t then m.amount else 0) + flow f ms a t := by
  simp [flow]

theorem flow_append (f : Move α τ → Option α) (ms ns : List (Move α τ)) (a : Option α) (t : τ) :
    flow f (ms ++ ns) a t = flow f ms a t + flow f ns a t := by
  simp [flow]

/-- The moves lead from book `b` to book `b'`. -/
def Posts (ms : List (Move α τ)) (b b' : α → τ → ℕ) : Prop :=
  ∀ a t, b' a t + outflow ms (some a) t = b a t + inflow ms (some a) t

theorem Posts.refl (b : α → τ → ℕ) : Posts [] b b := fun _ _ => rfl

theorem Posts.append {ms ns : List (Move α τ)} {b b' b'' : α → τ → ℕ} (h : Posts ms b b')
    (h' : Posts ns b' b'') : Posts (ms ++ ns) b b'' := by
  intro a t
  have h1 := h a t
  have h2 := h' a t
  simp only [outflow, inflow, flow_append] at h1 h2 ⊢
  omega

/-- A retirement and an issue of the same amount, in either order, are one transfer. -/
theorem Posts.join {s d : Option α} {t : τ} {n : ℕ} {b b' b'' : α → τ → ℕ}
    (h : Posts [⟨s, none, t, n⟩] b b' ∧ Posts [⟨none, d, t, n⟩] b' b'' ∨
      Posts [⟨none, d, t, n⟩] b b' ∧ Posts [⟨s, none, t, n⟩] b' b'') :
    Posts [⟨s, d, t, n⟩] b b'' := by
  intro a t'
  rcases h with h | h <;>
  · have h1 := h.1 a t'
    have h2 := h.2 a t'
    simp only [outflow, inflow, flow_cons, flow_nil, reduceCtorEq, false_and, if_false] at h1 h2 ⊢
    omega

/-- Every move has one source, or none. -/
theorem sum_flow [Fintype α] (f : Move α τ → Option α) (ms : List (Move α τ)) (t : τ) :
    ∑ a, flow f ms (some a) t + flow f ms none t = volume ms t := by
  induction ms with
  | nil => simp [volume]
  | cons m ms ih =>
    simp only [flow_cons, Finset.sum_add_distrib, volume, List.map_cons, List.sum_cons] at ih ⊢
    have hm : ∑ a, (if f m = some a ∧ m.token = t then m.amount else 0) +
        (if f m = none ∧ m.token = t then m.amount else 0) =
          if m.token = t then m.amount else 0 := by
      cases hf : f m with
      | none => simp
      | some a => by_cases ht : m.token = t <;> simp [ht]
    omega

/-- Totals change by what is issued and retired. -/
theorem Posts.total [Fintype α] {ms : List (Move α τ)} {b b' : α → τ → ℕ} (h : Posts ms b b')
    (t : τ) : ∑ a, b' a t + inflow ms none t = ∑ a, b a t + outflow ms none t := by
  have hsum : ∑ a, b' a t + ∑ a, outflow ms (some a) t =
      ∑ a, b a t + ∑ a, inflow ms (some a) t := by
    rw [← Finset.sum_add_distrib, ← Finset.sum_add_distrib]
    exact Finset.sum_congr rfl fun a _ => h a t
  have hs : ∑ a, outflow ms (some a) t + outflow ms none t = volume ms t :=
    sum_flow Move.source ms t
  have ht : ∑ a, inflow ms (some a) t + inflow ms none t = volume ms t :=
    sum_flow Move.target ms t
  omega

end Privana.DoubleEntry
