import Mathlib.Data.List.Sort
import Privana.CheckedArithmetic

/-! Walks over a list that was taken beforehand. What is visited and what is waiting are part of the
invariant, so that a step can say what it finds of both. -/

namespace Privana.ListWalk
open CheckedArithmetic

variable {ε α σ : Type} {f : σ → α → Except ε σ}

theorem foldlM_cons_eq_ok {a : α} {waiting : List α} {s t : σ} :
    (a :: waiting).foldlM f s = .ok t ↔ ∃ u, f s a = .ok u ∧ waiting.foldlM f u = .ok t := by
  rw [List.foldlM_cons, bind_eq_ok]

theorem foldlM_split_eq_ok {visited waiting : List α} {a : α} {s t : σ} :
    (visited ++ a :: waiting).foldlM f s = .ok t ↔
      ∃ u, visited.foldlM f s = .ok u ∧ ∃ v, f u a = .ok v ∧ waiting.foldlM f v = .ok t := by
  simp only [List.foldlM_append, bind_eq_ok, foldlM_cons_eq_ok]

section Invariant
variable {inv : List α → List α → σ → Prop}

theorem walk_keeps (step : ∀ visited a waiting s t, inv visited (a :: waiting) s → f s a = .ok t →
      inv (visited ++ [a]) waiting t) {waiting after : List α} :
    ∀ {visited : List α} {s t : σ}, inv visited (waiting ++ after) s →
      waiting.foldlM f s = .ok t → inv (visited ++ waiting) after t := by
  induction waiting with
  | nil =>
    intro visited s t holds walked
    rw [List.append_nil]
    cases walked
    exact holds
  | cons a waiting ih =>
    intro visited s t holds walked
    obtain ⟨u, first, walked⟩ := foldlM_cons_eq_ok.mp walked
    have last := ih (step visited a (waiting ++ after) s u holds first) walked
    rwa [List.append_assoc, List.singleton_append] at last

theorem walk_ends (step : ∀ visited a waiting s t, inv visited (a :: waiting) s → f s a = .ok t →
      inv (visited ++ [a]) waiting t)
    (proceeds : ∀ visited a waiting s, inv visited (a :: waiting) s → ∃ t, f s a = .ok t)
    {waiting : List α} : ∀ {visited : List α} {s : σ}, inv visited waiting s →
      ∃ t, waiting.foldlM f s = .ok t ∧ inv (visited ++ waiting) [] t := by
  induction waiting with
  | nil =>
    intro visited s holds
    exact ⟨s, rfl, (visited.append_nil).symm ▸ holds⟩
  | cons a waiting ih =>
    intro visited s holds
    obtain ⟨u, first⟩ := proceeds visited a waiting s holds
    obtain ⟨t, walked, last⟩ := ih (step visited a waiting s u holds first)
    rw [List.append_assoc, List.singleton_append] at last
    exact ⟨t, foldlM_cons_eq_ok.mpr ⟨u, first, walked⟩, last⟩

/-- What a step keeps from anywhere is kept by a walk. -/
theorem walk_keeps_always {kept : σ → Prop} (step : ∀ a s t, kept s → f s a = .ok t → kept t)
    {waiting : List α} {s t : σ} (holds : kept s) (walked : waiting.foldlM f s = .ok t) : kept t := by
  induction waiting generalizing s with
  | nil =>
    cases walked
    exact holds
  | cons a waiting ih =>
    obtain ⟨u, first, walked⟩ := foldlM_cons_eq_ok.mp walked
    exact ih (step a s u holds first) walked

end Invariant

section Sorted
variable [LinearOrder α] {visited waiting : List α} {a b : α}

theorem lt_of_visited (sorted : (visited ++ a :: waiting).Pairwise (· ≤ ·))
    (nodup : (visited ++ a :: waiting).Nodup) (h : b ∈ visited) : b < a := by
  have before := (List.pairwise_append.mp sorted).2.2 b h a List.mem_cons_self
  have apart := (List.nodup_append.mp nodup).2.2 b h a List.mem_cons_self
  exact lt_of_le_of_ne before apart

theorem lt_of_waiting (sorted : (visited ++ a :: waiting).Pairwise (· ≤ ·))
    (nodup : (visited ++ a :: waiting).Nodup) (h : b ∈ waiting) : a < b := by
  have after := List.rel_of_pairwise_cons (List.pairwise_append.mp sorted).2.1 h
  have apart := (List.nodup_cons.mp (List.nodup_append.mp nodup).2.1).1
  exact lt_of_le_of_ne after fun same => apart (same ▸ h)

end Sorted

end Privana.ListWalk
