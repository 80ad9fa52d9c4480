import Mathlib.Data.List.Basic

/-! De-duplication by a key that not every item has. The first item of a key stays, and so does
every item without one; what is left is told by what comes before an item. -/

namespace Privana

variable {α κ : Type} [DecidableEq κ] {key : α → Option κ}

def dedupeFrom (key : α → Option κ) (seen : List κ) : List α → List α
  | [] => []
  | a :: as =>
    match key a with
    | some k => if k ∈ seen then dedupeFrom key seen as else a :: dedupeFrom key (k :: seen) as
    | none => a :: dedupeFrom key seen as

def dedupeBy (key : α → Option κ) (as : List α) : List α := dedupeFrom key [] as

/-- No item before this one has its key. -/
def FirstOfKey (key : α → Option κ) (as : List α) (a : α) : Prop :=
  ∃ pre post, as = pre ++ a :: post ∧ ∀ k, key a = some k → ∀ b ∈ pre, key b ≠ some k

theorem mem_dedupeFrom {seen : List κ} {as : List α} {a : α} :
    a ∈ dedupeFrom key seen as ↔ ∃ pre post, as = pre ++ a :: post ∧
      ∀ k, key a = some k → k ∉ seen ∧ ∀ b ∈ pre, key b ≠ some k := by
  induction as generalizing seen with
  | nil => simp [dedupeFrom]
  | cons b as ih =>
    have shift {seen' : List κ} (h : a ∈ dedupeFrom key seen' as)
        (others : ∀ k, key a = some k → k ∉ seen' → k ∉ seen ∧ key b ≠ some k) :
        ∃ pre post, b :: as = pre ++ a :: post ∧
          ∀ k, key a = some k → k ∉ seen ∧ ∀ c ∈ pre, key c ≠ some k := by
      obtain ⟨pre, post, rfl, first⟩ := ih.mp h
      refine ⟨b :: pre, post, rfl, fun k hk => ⟨(others k hk (first k hk).1).1, fun c hc => ?_⟩⟩
      rcases List.mem_cons.mp hc with rfl | hc
      · exact (others k hk (first k hk).1).2
      · exact (first k hk).2 c hc
    have unshift {seen' : List κ} {pre post : List α} (split : as = pre ++ a :: post)
        (first : ∀ k, key a = some k → k ∉ seen' ∧ ∀ c ∈ pre, key c ≠ some k) :
        a ∈ dedupeFrom key seen' as := ih.mpr ⟨pre, post, split, first⟩
    rw [dedupeFrom]
    cases keyed : key b with
    | none =>
      constructor
      · intro h
        rcases List.mem_cons.mp h with rfl | h
        · exact ⟨[], as, rfl, fun k hk => by cases keyed.symm.trans hk⟩
        · exact shift h fun k hk fresh => ⟨fresh, fun same => by cases keyed.symm.trans same⟩
      · rintro ⟨pre, post, split, first⟩
        cases pre with
        | nil =>
          cases split
          exact List.mem_cons_self
        | cons c pre =>
          cases split
          exact List.mem_cons_of_mem _ (unshift rfl fun k hk =>
            ⟨(first k hk).1, fun d hd => (first k hk).2 d (List.mem_cons_of_mem _ hd)⟩)
    | some l =>
      simp only
      split
      · next old =>
        constructor
        · intro h
          refine shift h fun k _ fresh => ⟨fresh, fun same => ?_⟩
          cases keyed.symm.trans same
          exact fresh old
        · rintro ⟨pre, post, split, first⟩
          cases pre with
          | nil =>
            cases split
            exact absurd old (first l keyed).1
          | cons c pre =>
            cases split
            exact unshift rfl fun k hk =>
              ⟨(first k hk).1, fun d hd => (first k hk).2 d (List.mem_cons_of_mem _ hd)⟩
      · next new =>
        constructor
        · intro h
          rcases List.mem_cons.mp h with rfl | h
          · refine ⟨[], as, rfl, fun k hk => ⟨?_, fun c hc => by cases hc⟩⟩
            cases keyed.symm.trans hk
            exact new
          · refine shift h fun k _ fresh => ⟨fun old => fresh (List.mem_cons_of_mem _ old),
              fun same => ?_⟩
            cases keyed.symm.trans same
            exact fresh List.mem_cons_self
        · rintro ⟨pre, post, split, first⟩
          cases pre with
          | nil =>
            cases split
            exact List.mem_cons_self
          | cons c pre =>
            cases split
            refine List.mem_cons_of_mem _ (unshift rfl fun k hk => ⟨fun old => ?_, fun d hd =>
              (first k hk).2 d (List.mem_cons_of_mem _ hd)⟩)
            rcases List.mem_cons.mp old with rfl | old
            · exact (first k hk).2 b List.mem_cons_self keyed
            · exact (first k hk).1 old

/-- What is left is what comes first under its key. -/
theorem mem_dedupeBy {as : List α} {a : α} : a ∈ dedupeBy key as ↔ FirstOfKey key as a := by
  simp only [dedupeBy, mem_dedupeFrom, List.not_mem_nil, not_false_eq_true, true_and, FirstOfKey]

theorem dedupeFrom_sublist (seen : List κ) (as : List α) :
    (dedupeFrom key seen as).Sublist as := by
  induction as generalizing seen with
  | nil => exact .slnil
  | cons a as ih =>
    rw [dedupeFrom]
    cases key a with
    | none => exact (ih seen).cons_cons a
    | some k =>
      simp only
      split
      · exact (ih seen).cons a
      · exact (ih (k :: seen)).cons_cons a

/-- No two that are left have one key. -/
theorem dedupeFrom_apart (seen : List κ) (as : List α) :
    (dedupeFrom key seen as).Pairwise fun a b => ∀ k, key a = some k → key b ≠ some k := by
  induction as generalizing seen with
  | nil => exact .nil
  | cons a as ih =>
    rw [dedupeFrom]
    cases keyed : key a with
    | none =>
      exact .cons (fun b _ k same => by cases keyed.symm.trans same) (ih seen)
    | some l =>
      simp only
      split
      · exact ih seen
      · refine .cons (fun b left k same again => ?_) (ih (l :: seen))
        cases keyed.symm.trans same
        obtain ⟨_, _, -, new⟩ := mem_dedupeFrom.mp left
        exact (new l again).1 List.mem_cons_self

/-- A key that an item has is not lost. -/
theorem exists_mem_dedupeBy {as : List α} {a : α} (mem : a ∈ as) {k : κ} (keyed : key a = some k) :
    ∃ b ∈ dedupeBy key as, key b = some k := by
  have found : (as.find? fun b => key b = some k).isSome :=
    List.find?_isSome.mpr ⟨a, mem, by simp [keyed]⟩
  obtain ⟨b, first⟩ := Option.isSome_iff_exists.mp found
  obtain ⟨same, pre, post, split, before⟩ := List.find?_eq_some_iff_append.mp first
  have same : key b = some k := by simpa using same
  refine ⟨b, mem_dedupeBy.mpr ⟨pre, post, split, fun l keyed c hc again => ?_⟩, same⟩
  cases same.symm.trans keyed
  simpa [again] using before c hc

theorem mem_dedupeBy_of_alone {as : List α} {a : α} (mem : a ∈ as)
    (alone : ∀ b ∈ as, ∀ k, key a = some k → key b = some k → b = a) : a ∈ dedupeBy key as := by
  cases keyed : key a with
  | none =>
    obtain ⟨pre, post, split⟩ := List.append_of_mem mem
    exact mem_dedupeBy.mpr ⟨pre, post, split, fun k same => by cases keyed.symm.trans same⟩
  | some k =>
    obtain ⟨b, left, same⟩ := exists_mem_dedupeBy mem keyed
    have again := alone b ((dedupeFrom_sublist [] as).subset left) k keyed same
    exact again ▸ left

end Privana
