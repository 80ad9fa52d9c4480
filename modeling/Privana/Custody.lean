import Mathlib.Data.List.Nodup
import Mathlib.Logic.Function.Basic

/-! The custody of what can be taken once. A task that takes something holds it until it
answers for it; so nothing is answered for twice, and never by two tasks. -/

namespace Privana

structure Custody {γ : Type} (taken : γ → Prop) (holding : ℕ → Option γ) (answered : List γ)
    (tasks : ℕ) : Prop where
  answeredOnce : answered.Nodup
  answered_taken : ∀ {g}, g ∈ answered → taken g
  held_taken : ∀ {i g}, holding i = some g → taken g
  held_unanswered : ∀ {i g}, holding i = some g → g ∉ answered
  apart : ∀ {i j g}, holding i = some g → holding j = some g → i = j
  vacant : ∀ {i}, tasks ≤ i → holding i = none

namespace Custody

variable {γ : Type} {taken taken' : γ → Prop} {holding : ℕ → Option γ} {answered : List γ}
  {tasks : ℕ} {i : ℕ} {g : γ}

theorem nothing (taken : γ → Prop) : Custody taken (fun _ => none) [] tasks where
  answeredOnce := List.nodup_nil
  answered_taken h := (List.not_mem_nil h).elim
  held_taken h := by cases h
  held_unanswered h := by cases h
  apart h := by cases h
  vacant _ := rfl

variable (custody : Custody taken holding answered tasks)
include custody

theorem mono (grows : ∀ g, taken g → taken' g) : Custody taken' holding answered tasks :=
  { custody with
    answered_taken := fun h => grows _ (custody.answered_taken h)
    held_taken := fun h => grows _ (custody.held_taken h) }

/-- Task `i` takes what nobody had taken. -/
theorem seize (grows : ∀ g, taken g → taken' g) (untaken : ¬ taken g) (now : taken' g)
    (hi : i < tasks) : Custody taken' (Function.update holding i (some g)) answered tasks := by
  have other {j : ℕ} {h : γ} (holds : Function.update holding i (some g) j = some h) :
      j = i ∧ h = g ∨ j ≠ i ∧ holding j = some h := by
    rcases eq_or_ne j i with rfl | ne
    · rw [Function.update_self, Option.some_inj] at holds
      exact .inl ⟨rfl, holds.symm⟩
    · rw [Function.update_of_ne ne] at holds
      exact .inr ⟨ne, holds⟩
  refine ⟨custody.answeredOnce, fun h => grows _ (custody.answered_taken h), fun h => ?_,
    fun h => ?_, fun h h' => ?_, fun h => ?_⟩
  · rcases other h with ⟨-, rfl⟩ | ⟨-, h⟩
    · exact now
    · exact grows _ (custody.held_taken h)
  · rcases other h with ⟨-, rfl⟩ | ⟨-, h⟩
    · exact fun mem => untaken (custody.answered_taken mem)
    · exact custody.held_unanswered h
  · rcases other h with ⟨here, same⟩ | ⟨-, h⟩
    · rcases other h' with ⟨here', -⟩ | ⟨-, h'⟩
      · rw [here, here']
      · exact absurd (same ▸ custody.held_taken h') untaken
    · rcases other h' with ⟨-, same⟩ | ⟨-, h'⟩
      · exact absurd (same ▸ custody.held_taken h) untaken
      · exact custody.apart h h'
  · rw [Function.update_of_ne (by omega), custody.vacant h]

theorem release : Custody taken (Function.update holding i none) answered tasks := by
  have other {j : ℕ} {h : γ} (holds : Function.update holding i none j = some h) :
      holding j = some h := by
    rcases eq_or_ne j i with rfl | ne
    · rw [Function.update_self] at holds
      cases holds
    · rwa [Function.update_of_ne ne] at holds
  refine { custody with
    held_taken := fun h => custody.held_taken (other h)
    held_unanswered := fun h => custody.held_unanswered (other h)
    apart := fun h h' => custody.apart (other h) (other h')
    vacant := fun {j} h => ?_ }
  rcases eq_or_ne j i with rfl | ne
  · exact Function.update_self ..
  · rw [Function.update_of_ne ne, custody.vacant h]

/-- Task `i` answers for what it holds. -/
theorem answer (holds : holding i = some g) :
    Custody taken (Function.update holding i none) (g :: answered) tasks where
  answeredOnce := List.nodup_cons.mpr ⟨custody.held_unanswered holds, custody.answeredOnce⟩
  answered_taken h := by
    rcases List.mem_cons.mp h with rfl | h
    · exact custody.held_taken holds
    · exact custody.answered_taken h
  held_taken h := custody.release.held_taken h
  held_unanswered {j h} holds' mem := by
    rcases List.mem_cons.mp mem with rfl | mem
    · rcases eq_or_ne j i with rfl | ne
      · rw [Function.update_self] at holds'
        cases holds'
      · rw [Function.update_of_ne ne] at holds'
        exact ne (custody.apart holds' holds)
    · exact custody.release.held_unanswered holds' mem
  apart h h' := custody.release.apart h h'
  vacant h := custody.release.vacant h

theorem more : Custody taken holding answered (tasks + 1) :=
  { custody with vacant := fun h => custody.vacant (by omega) }

/-- The tasks are gone; what was answered stays so. -/
theorem restart : Custody taken (fun _ => none) answered 0 where
  answeredOnce := custody.answeredOnce
  answered_taken := custody.answered_taken
  held_taken h := by cases h
  held_unanswered h := by cases h
  apart h := by cases h
  vacant _ := rfl

end Custody
end Privana
