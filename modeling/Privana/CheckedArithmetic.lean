import Mathlib.Data.BitVec
import Mathlib.Data.Rat.Floor
import Mathlib.Algebra.Order.Ring.Nat

/-! Guards and checked machine arithmetic in the exception monad: a guard either
reverts or lets the rest run, and an addition or subtraction reverts unless its
mathematical result fits the word. -/

namespace Privana.CheckedArithmetic

universe u
variable {ε : Type*} {α β : Type u} {w : ℕ}

theorem bind_eq_ok {x : Except ε α} {f : α → Except ε β} {b : β} :
    (x >>= f) = .ok b ↔ ∃ a, x = .ok a ∧ f a = .ok b := by
  cases x <;> simp [bind, Except.bind]

theorem bind_eq_error {x : Except ε α} {f : α → Except ε β} {e : ε} :
    (x >>= f) = .error e ↔ x = .error e ∨ ∃ a, x = .ok a ∧ f a = .error e := by
  cases x <;> simp [bind, Except.bind]

/-- A computation runs through if its parts do. -/
theorem exists_bind_eq_ok {x : Except ε α} {f : α → Except ε β} {a : α} (hx : x = .ok a)
    (hf : ∃ b, f a = .ok b) : ∃ b, (x >>= f) = .ok b := by
  obtain ⟨b, hb⟩ := hf
  exact ⟨b, bind_eq_ok.mpr ⟨a, hx, hb⟩⟩

theorem pure_eq_ok {a b : α} : (pure a : Except ε α) = .ok b ↔ a = b := by
  simp [pure, Except.pure]

def revertIf (c : Prop) [Decidable c] (e : ε) : Except ε Unit :=
  if c then .error e else .ok ()

theorem revertIf_eq_ok {c : Prop} [Decidable c] {e : ε} {u : Unit} :
    revertIf c e = .ok u ↔ ¬ c := by
  unfold revertIf
  split <;> simp [*]

theorem revertIf_eq_error {c : Prop} [Decidable c] {e e' : ε} :
    revertIf c e = .error e' ↔ c ∧ e = e' := by
  unfold revertIf
  split <;> simp [*]

theorem exists_revertIf_bind {c : Prop} [Decidable c] {e : ε} {β : Type} {f : Unit → Except ε β} (hc : ¬ c)
    (hf : ∃ b, f () = .ok b) : ∃ b, (revertIf c e >>= f) = .ok b :=
  exists_bind_eq_ok (revertIf_eq_ok.mpr hc) hf

/-- Python's `int` of a number with a fraction. -/
def truncate (q : ℚ) : ℤ := q.num.tdiv q.den

theorem truncate_of_nonneg {q : ℚ} (h : 0 ≤ q) : truncate q = ⌊q⌋ := by
  rw [truncate, Int.tdiv_eq_ediv_of_nonneg (Rat.num_nonneg.mpr h), Rat.floor_def']

def checkedAdd (e : ε) (x y : BitVec w) : Except ε (BitVec w) :=
  if x.toNat + y.toNat < 2 ^ w then .ok (x + y) else .error e

def checkedSub (e : ε) (x y : BitVec w) : Except ε (BitVec w) :=
  if y.toNat ≤ x.toNat then .ok (x - y) else .error e

def checkedMul (e : ε) (x y : BitVec w) : Except ε (BitVec w) :=
  if x.toNat * y.toNat < 2 ^ w then .ok (x * y) else .error e

def checkedDiv (e : ε) (x y : BitVec w) : Except ε (BitVec w) :=
  if y.toNat ≠ 0 then .ok (x / y) else .error e

/-- The sum and the negation of signed integers. -/
def checkedAddInt (e : ε) (x y : BitVec w) : Except ε (BitVec w) :=
  if (x + y).toInt = x.toInt + y.toInt then .ok (x + y) else .error e

def checkedNegInt (e : ε) (x : BitVec w) : Except ε (BitVec w) :=
  if (-x).toInt = -x.toInt then .ok (-x) else .error e

theorem checkedAdd_eq_ok {e : ε} {x y z : BitVec w} :
    checkedAdd e x y = .ok z ↔ z.toNat = x.toNat + y.toNat := by
  unfold checkedAdd
  constructor
  · intro h
    split at h
    · next hlt =>
      obtain rfl := Except.ok.inj h
      rw [BitVec.toNat_add, Nat.mod_eq_of_lt hlt]
    · cases h
  · intro h
    have hlt : x.toNat + y.toNat < 2 ^ w := h ▸ z.isLt
    rw [if_pos hlt]
    congr 1
    apply BitVec.eq_of_toNat_eq
    rw [BitVec.toNat_add, Nat.mod_eq_of_lt hlt, h]

theorem checkedSub_eq_ok {e : ε} {x y z : BitVec w} :
    checkedSub e x y = .ok z ↔ z.toNat + y.toNat = x.toNat := by
  unfold checkedSub
  constructor
  · intro h
    split at h
    · next hle =>
      obtain rfl := Except.ok.inj h
      rw [BitVec.toNat_sub_of_le (BitVec.le_def.mpr hle)]
      omega
    · cases h
  · intro h
    have hle : y.toNat ≤ x.toNat := by omega
    rw [if_pos hle]
    congr 1
    apply BitVec.eq_of_toNat_eq
    rw [BitVec.toNat_sub_of_le (BitVec.le_def.mpr hle)]
    omega

theorem checkedMul_eq_ok {e : ε} {x y z : BitVec w} :
    checkedMul e x y = .ok z ↔ z.toNat = x.toNat * y.toNat := by
  unfold checkedMul
  constructor
  · intro h
    split at h
    · next hlt =>
      obtain rfl := Except.ok.inj h
      rw [BitVec.toNat_mul, Nat.mod_eq_of_lt hlt]
    · cases h
  · intro h
    have hlt : x.toNat * y.toNat < 2 ^ w := h ▸ z.isLt
    rw [if_pos hlt]
    congr 1
    apply BitVec.eq_of_toNat_eq
    rw [BitVec.toNat_mul, Nat.mod_eq_of_lt hlt, h]

theorem checkedDiv_eq_ok {e : ε} {x y z : BitVec w} :
    checkedDiv e x y = .ok z ↔ y.toNat ≠ 0 ∧ z.toNat = x.toNat / y.toNat := by
  unfold checkedDiv
  constructor
  · intro h
    split at h
    · next nonzero =>
      obtain rfl := Except.ok.inj h
      exact ⟨nonzero, BitVec.toNat_udiv⟩
    · cases h
  · rintro ⟨nonzero, h⟩
    rw [if_pos nonzero]
    congr 1
    apply BitVec.eq_of_toNat_eq
    rw [BitVec.toNat_udiv, h]

theorem checkedAddInt_eq_ok {e : ε} {x y z : BitVec w} :
    checkedAddInt e x y = .ok z ↔ z.toInt = x.toInt + y.toInt := by
  unfold checkedAddInt
  constructor
  · intro h
    split at h
    · next fits =>
      obtain rfl := Except.ok.inj h
      exact fits
    · cases h
  · intro h
    have sum : x + y = z := by
      apply BitVec.eq_of_toInt_eq
      rw [BitVec.toInt_add, ← h, BitVec.toInt_bmod_cancel]
    rw [if_pos (sum ▸ h), sum]

theorem checkedNegInt_eq_ok {e : ε} {x z : BitVec w} :
    checkedNegInt e x = .ok z ↔ z.toInt = -x.toInt := by
  unfold checkedNegInt
  constructor
  · intro h
    split at h
    · next fits =>
      obtain rfl := Except.ok.inj h
      exact fits
    · cases h
  · intro h
    have negated : -x = z := by
      apply BitVec.eq_of_toInt_eq
      rw [BitVec.toInt_neg, ← h, BitVec.toInt_bmod_cancel]
    rw [if_pos (negated ▸ h), negated]

end Privana.CheckedArithmetic
