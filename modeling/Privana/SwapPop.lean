import Mathlib.Data.List.Induction
import Mathlib.Data.List.Perm.Basic

/-! Removal from an unordered array: the last element is moved into the freed
slot and the array is shortened by one. Only the order of the others changes. -/

namespace Privana.SwapPop

variable {α : Type*}

def swapPop (xs : List α) (i : ℕ) : List α :=
  match xs.getLast? with
  | none => []
  | some last => (xs.set i last).dropLast

theorem swapPop_concat (xs : List α) (last : α) (i : ℕ) :
    swapPop (xs ++ [last]) i = ((xs ++ [last]).set i last).dropLast := by
  simp [swapPop]

theorem swapPop_perm {xs : List α} {i : ℕ} (h : i < xs.length) :
    (swapPop xs i).Perm (xs.eraseIdx i) := by
  induction xs using List.reverseRecOn with
  | nil => simp at h
  | append_singleton xs last _ =>
    rw [swapPop_concat]
    rcases Nat.lt_or_ge i xs.length with hi | hi
    · rw [List.set_append_left _ _ hi, List.dropLast_concat, List.eraseIdx_append_of_lt_length hi]
      exact (List.set_perm_cons_eraseIdx hi last).trans (List.perm_append_singleton last _).symm
    · have he : i = xs.length := by
        simp at h
        omega
      subst he
      rw [List.eraseIdx_append_of_length_le (Nat.le_refl _)]
      simp

theorem swapPop_set_perm {xs : List α} {i : ℕ} (h : i < xs.length) (x : α) :
    (swapPop (xs.set i x) i).Perm (xs.eraseIdx i) := by
  have hlt : i < (xs.set i x).length := by simpa using h
  have hp := swapPop_perm hlt
  rwa [List.eraseIdx_set_eq] at hp

/-- The slots from `i` on after slot `i` was filled from the end: all of them
were behind slot `i` before. -/
theorem mem_drop_swapPop {xs : List α} {i : ℕ} {y : α} (h : i < xs.length)
    (hy : y ∈ (swapPop xs i).drop i) : y ∈ xs.drop (i + 1) := by
  induction xs using List.reverseRecOn with
  | nil => simp at h
  | append_singleton xs last _ =>
    rw [swapPop_concat] at hy
    rcases Nat.lt_or_ge i xs.length with hi | hi
    · rw [List.set_append_left _ _ hi, List.dropLast_concat, List.drop_set,
        if_neg (Nat.lt_irrefl i), Nat.sub_self] at hy
      rw [List.drop_append_of_le_length hi]
      rw [List.drop_eq_getElem_cons hi, List.set_cons_zero, List.mem_cons] at hy
      rcases hy with rfl | hy
      · simp
      · exact List.mem_append_left _ hy
    · have he : i = xs.length := by
        simp at h
        omega
      subst he
      simp at hy

end Privana.SwapPop
