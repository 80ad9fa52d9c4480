import Mathlib.Data.List.Sort

/-! Lists in descending order of a key. Where the keys are distinct the order is that of a
single list, and it is cut where the keys are. -/

namespace Descending
variable {α β : Type*} [LinearOrder β] (key : α → β)

/-- Stable: elements of one key keep their order. -/
def descending (l : List α) : List α := l.mergeSort fun a b => decide (key b ≤ key a)

theorem descending_perm (l : List α) : (descending key l).Perm l := List.mergeSort_perm l _

@[simp] theorem mem_descending {l : List α} {a : α} : a ∈ descending key l ↔ a ∈ l :=
  (descending_perm key l).mem_iff

theorem descending_pairwise (l : List α) :
    (descending key l).Pairwise fun a b => key b ≤ key a := by
  have sorted : (descending key l).Pairwise fun a b => decide (key b ≤ key a) = true := by
    refine List.pairwise_mergeSort (fun a b c hab hbc => ?_) (fun a b => ?_) l
    · simp only [decide_eq_true_eq] at hab hbc ⊢
      exact hbc.trans hab
    · simp only [Bool.or_eq_true, decide_eq_true_eq]
      exact le_total (key b) (key a)
  exact sorted.imp fun h => of_decide_eq_true h

theorem descending_strict {l : List α} (distinct : (l.map key).Nodup) :
    (descending key l).Pairwise fun a b => key b < key a := by
  have distinct : (descending key l).Pairwise fun a b => key a ≠ key b :=
    List.pairwise_map.mp (((descending_perm key l).map key).nodup_iff.mpr distinct)
  exact (descending_pairwise key l).imp₂ (fun _ _ le ne => lt_of_le_of_ne le ne.symm) distinct

variable {key}

theorem eq_of_strict {l₁ l₂ : List α} (perm : l₁.Perm l₂)
    (h₁ : l₁.Pairwise fun a b => key b < key a) (h₂ : l₂.Pairwise fun a b => key b < key a) :
    l₁ = l₂ :=
  perm.eq_of_pairwise (fun _ _ _ _ hab hba => absurd hab hba.asymm) h₁ h₂

theorem descending_congr {l₁ l₂ : List α} (perm : l₁.Perm l₂) (distinct : (l₁.map key).Nodup) :
    descending key l₁ = descending key l₂ :=
  eq_of_strict (((descending_perm key l₁).trans perm).trans (descending_perm key l₂).symm)
    (descending_strict key distinct)
    (descending_strict key ((perm.map key).nodup_iff.mp distinct))

theorem descending_append {l₁ l₂ : List α} (distinct : ((l₁ ++ l₂).map key).Nodup)
    (above : ∀ a ∈ l₁, ∀ b ∈ l₂, key b < key a) :
    descending key (l₁ ++ l₂) = descending key l₁ ++ descending key l₂ := by
  have parts := List.nodup_append.mp (List.map_append ▸ distinct)
  refine eq_of_strict ?_ (descending_strict key distinct) ?_
  · exact (descending_perm key _).trans
      ((descending_perm key l₁).append (descending_perm key l₂)).symm
  · refine List.pairwise_append.mpr
      ⟨descending_strict key parts.1, descending_strict key parts.2.1, fun a ha b hb => ?_⟩
    exact above a ((mem_descending key).mp ha) b ((mem_descending key).mp hb)

/-- The elements that one of two tests selects, cut where the keys are. -/
theorem descending_filter_or {l : List α} (p q : α → Bool) (distinct : (l.map key).Nodup)
    (above : ∀ a, p a = true → ∀ b, q b = true → key b < key a) :
    descending key (l.filter fun a => p a || q a) =
      descending key (l.filter p) ++ descending key (l.filter q) := by
  have apart : ∀ a, p a = true → q a = false := by
    intro a hp
    by_contra hq
    exact lt_irrefl _ (above a hp a (Bool.not_eq_false _ ▸ hq))
  have perm : (l.filter fun a => p a || q a).Perm (l.filter p ++ l.filter q) := by
    clear distinct
    induction l with
    | nil => rfl
    | cons a l ih =>
      cases hp : p a with
      | true => simpa [hp, apart a hp] using ih
      | false =>
        cases hq : q a with
        | true => simpa [hp, hq] using (ih.cons a).trans List.perm_middle.symm
        | false => simpa [hp, hq] using ih
  have sub : ((l.filter fun a => p a || q a).map key).Nodup :=
    distinct.sublist (List.filter_sublist.map key)
  rw [descending_congr perm sub]
  refine descending_append ((perm.map key).nodup_iff.mp sub) fun a ha b hb => ?_
  exact above a (List.mem_filter.mp ha).2 b (List.mem_filter.mp hb).2

/-- In strict order at most one element has a given key. -/
theorem countP_eq_one {l : List α} (strict : l.Pairwise fun a b => key b < key a) {p : α → Bool}
    {k : β} (keyed : ∀ a ∈ l, p a = true → key a = k) {a : α} (mem : a ∈ l) (ha : p a = true) :
    l.countP p = 1 := by
  induction l with
  | nil => cases mem
  | cons b l ih =>
    obtain ⟨first, strict⟩ := List.pairwise_cons.mp strict
    rcases List.mem_cons.mp mem with rfl | tail
    · have rest : l.countP p = 0 := List.countP_eq_zero.mpr fun c hc hpc => by
        have lt := first c hc
        rw [keyed a List.mem_cons_self ha, keyed c (List.mem_cons_of_mem _ hc) hpc] at lt
        exact lt_irrefl k lt
      rw [List.countP_cons_of_pos ha, rest]
    · have other : ¬ p b = true := fun hb => by
        have lt := first a tail
        rw [keyed b List.mem_cons_self hb, keyed a mem ha] at lt
        exact lt_irrefl k lt
      rw [List.countP_cons_of_neg other]
      exact ih strict (fun c hc => keyed c (List.mem_cons_of_mem _ hc)) tail

end Descending
