import Mathlib.Data.List.Induction

/-! A machine that executes inputs one after the other: each input either
succeeds with a new state and an output, or fails and leaves the state as it
was. `log` keeps the successful executions in order, each with the state it
started from. Invariants of runs are proved once here, from one step. -/

namespace Privana

structure TransactionMachine (σ ι ω ε : Type*) where
  exec : σ → ι → Except ε (σ × ω)

namespace TransactionMachine

variable {σ ι ω ε : Type*} (M : TransactionMachine σ ι ω ε)

/-- One successful execution. -/
structure Entry (σ ι ω : Type*) where
  before : σ
  input : ι
  output : ω
  after : σ

def step (s : σ) (i : ι) : σ :=
  match M.exec s i with
  | .ok r => r.1
  | .error _ => s

def record (s : σ) (i : ι) : List (Entry σ ι ω) :=
  match M.exec s i with
  | .ok r => [⟨s, i, r.2, r.1⟩]
  | .error _ => []

def run (s : σ) (is : List ι) : σ := is.foldl M.step s

def log (s : σ) : List ι → List (Entry σ ι ω)
  | [] => []
  | i :: is => M.record s i ++ log (M.step s i) is

@[simp] theorem run_nil (s : σ) : M.run s [] = s := rfl

@[simp] theorem log_nil (s : σ) : M.log s [] = [] := rfl

theorem run_append (s : σ) (is js : List ι) : M.run s (is ++ js) = M.run (M.run s is) js :=
  List.foldl_append

theorem run_concat (s : σ) (is : List ι) (i : ι) :
    M.run s (is ++ [i]) = M.step (M.run s is) i := by
  rw [run_append]
  rfl

theorem log_append (s : σ) (is js : List ι) :
    M.log s (is ++ js) = M.log s is ++ M.log (M.run s is) js := by
  induction is generalizing s with
  | nil => rfl
  | cons i is ih => simp only [List.cons_append, log, ih, List.append_assoc]; rfl

theorem log_concat (s : σ) (is : List ι) (i : ι) :
    M.log s (is ++ [i]) = M.log s is ++ M.record (M.run s is) i := by
  rw [log_append, log, log_nil, List.append_nil]

theorem step_of_ok {s s' : σ} {i : ι} {o : ω} (h : M.exec s i = .ok (s', o)) :
    M.step s i = s' := by
  rw [step, h]

theorem record_of_ok {s s' : σ} {i : ι} {o : ω} (h : M.exec s i = .ok (s', o)) :
    M.record s i = [⟨s, i, o, s'⟩] := by
  rw [record, h]

theorem step_of_error {s : σ} {i : ι} {e : ε} (h : M.exec s i = .error e) :
    M.step s i = s := by
  rw [step, h]

theorem record_of_error {s : σ} {i : ι} {e : ε} (h : M.exec s i = .error e) :
    M.record s i = [] := by
  rw [record, h]

/-- What holds of the log and the state at the start and is kept by every
successful execution holds along every run. -/
theorem run_induction {I : List (Entry σ ι ω) → σ → Prop} {s : σ} (init : I [] s)
    (ok : ∀ l t i t' o, I l t → M.exec t i = .ok (t', o) → I (l ++ [⟨t, i, o, t'⟩]) t')
    (is : List ι) : I (M.log s is) (M.run s is) := by
  induction is using List.reverseRecOn with
  | nil => exact init
  | append_singleton is i ih =>
    rw [log_concat, run_concat]
    cases h : M.exec (M.run s is) i with
    | ok r =>
      rw [step_of_ok M h, record_of_ok M h]
      exact ok _ _ _ _ _ ih h
    | error e =>
      rw [step_of_error M h, record_of_error M h, List.append_nil]
      exact ih

/-- The same where only the inputs of the run matter. -/
theorem run_induction_of_mem {I : List (Entry σ ι ω) → σ → Prop} {s : σ} (init : I [] s)
    (is : List ι) (ok : ∀ l t i t' o, i ∈ is → I l t → M.exec t i = .ok (t', o) →
      I (l ++ [⟨t, i, o, t'⟩]) t') : I (M.log s is) (M.run s is) := by
  induction is using List.reverseRecOn with
  | nil => exact init
  | append_singleton is i ih =>
    have before := ih fun l t j t' o hj => ok l t j t' o (List.mem_append_left _ hj)
    rw [log_concat, run_concat]
    cases h : M.exec (M.run s is) i with
    | ok r =>
      rw [step_of_ok M h, record_of_ok M h]
      exact ok _ _ _ _ _ (by simp) before h
    | error e =>
      rw [step_of_error M h, record_of_error M h, List.append_nil]
      exact before

/-- The same for a property of the state alone. -/
theorem run_invariant {I : σ → Prop} {s : σ} (init : I s)
    (ok : ∀ t i t' o, I t → M.exec t i = .ok (t', o) → I t') (is : List ι) :
    I (M.run s is) :=
  M.run_induction (I := fun _ t => I t) init (fun _ t i t' o h => ok t i t' o h) is

/-- The same for runs whose successful executions are all of a kind. -/
theorem run_invariant_where {I : σ → Prop} {C : Entry σ ι ω → Prop} {s : σ} (init : I s)
    (ok : ∀ t i t' o, I t → M.exec t i = .ok (t', o) → C ⟨t, i, o, t'⟩ → I t') (is : List ι)
    (steps : ∀ e ∈ M.log s is, C e) : I (M.run s is) := by
  induction is using List.reverseRecOn with
  | nil => exact init
  | append_singleton is i ih =>
    rw [log_concat] at steps
    have hs := ih fun e he => steps e (List.mem_append_left _ he)
    rw [run_concat]
    cases h : M.exec (M.run s is) i with
    | ok r =>
      rw [step_of_ok M h]
      exact ok _ _ _ _ hs h (steps _ (by simp [record_of_ok M h]))
    | error e => rwa [step_of_error M h]

theorem mem_log_of_prefix {s : σ} {is js : List ι} (h : js <+: is) {e : Entry σ ι ω}
    (he : e ∈ M.log s js) : e ∈ M.log s is := by
  obtain ⟨ks, rfl⟩ := h
  rw [log_append]
  exact List.mem_append_left _ he

theorem input_mem_of_mem_log {s : σ} {is : List ι} {e : Entry σ ι ω} (he : e ∈ M.log s is) :
    e.input ∈ is := by
  induction is generalizing s with
  | nil => cases he
  | cons i is ih =>
    rcases List.mem_append.mp he with he | he
    · unfold record at he
      split at he
      · obtain rfl := List.mem_singleton.mp he
        exact List.mem_cons_self
      · cases he
    · exact List.mem_cons_of_mem _ (ih he)

/-- Every entry of the log is an execution from a state that a prefix of the run
reaches. -/
theorem exists_prefix_of_mem_log {s : σ} {is : List ι} {e : Entry σ ι ω}
    (h : e ∈ M.log s is) :
    ∃ js ks, is = js ++ e.input :: ks ∧ e.before = M.run s js ∧
      M.exec e.before e.input = .ok (e.after, e.output) := by
  induction is using List.reverseRecOn with
  | nil => simp at h
  | append_singleton is i ih =>
    rw [log_concat, List.mem_append] at h
    rcases h with h | h
    · obtain ⟨js, ks, rfl, hb, he⟩ := ih h
      exact ⟨js, ks ++ [i], by simp, hb, he⟩
    · cases hx : M.exec (M.run s is) i with
      | ok r =>
        rw [record_of_ok M hx, List.mem_singleton] at h
        subst h
        exact ⟨is, [], rfl, rfl, hx⟩
      | error x =>
        rw [record_of_error M hx] at h
        cases h

/-- What stands before an entry of the log is the log of the run up to it. -/
theorem exists_prefix_of_log_split {s : σ} {is : List ι} {before after : List (Entry σ ι ω)}
    {e : Entry σ ι ω} (h : M.log s is = before ++ e :: after) :
    ∃ js ks, is = js ++ e.input :: ks ∧ M.log s js = before ∧ e.before = M.run s js ∧
      M.exec e.before e.input = .ok (e.after, e.output) := by
  induction is using List.reverseRecOn generalizing after with
  | nil => simp at h
  | append_singleton is i ih =>
    rw [log_concat] at h
    have earlier {after : List (Entry σ ι ω)} (h : M.log s is = before ++ e :: after) :
        ∃ js ks, is ++ [i] = js ++ e.input :: ks ∧ M.log s js = before ∧ e.before = M.run s js ∧
          M.exec e.before e.input = .ok (e.after, e.output) := by
      obtain ⟨js, ks, rfl, hl, hb, he⟩ := ih h
      exact ⟨js, ks ++ [i], by simp, hl, hb, he⟩
    cases hx : M.exec (M.run s is) i with
    | error x =>
      rw [record_of_error M hx, List.append_nil] at h
      exact earlier h
    | ok r =>
      rw [record_of_ok M hx] at h
      rcases after.eq_nil_or_concat with rfl | ⟨after, last, rfl⟩
      · obtain ⟨hl, he⟩ := List.append_inj' h rfl
        obtain rfl := (List.cons.inj he).1
        exact ⟨is, [], rfl, hl, rfl, hx⟩
      · rw [List.concat_eq_append, ← List.cons_append, ← List.append_assoc] at h
        exact earlier (List.append_inj' h rfl).1

end TransactionMachine

end Privana
