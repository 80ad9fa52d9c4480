import Mathlib.Data.List.Nodup

/-! A store of one-time keys. A key is put once, when it is drawn, and leaves by being
taken, which returns its value, or by being dropped. The store remembers what it issued,
what was taken and what was dropped, so that an issued key is always accounted for. -/

namespace Privana

structure OneTimeStore (κ ν : Type) where
  entries : List (κ × ν) := []
  issued : List (κ × ν) := []
  taken : List (κ × ν) := []
  dropped : List κ := []

namespace OneTimeStore

variable {κ ν : Type} [DecidableEq κ] (s : OneTimeStore κ ν) (k : κ) (v : ν)

def find : Option ν := (s.entries.find? fun e => e.1 = k).map Prod.snd

def has : Bool := (s.find k).isSome

def without : List (κ × ν) := s.entries.filter fun e => e.1 ≠ k

def put : OneTimeStore κ ν :=
  { s with entries := (k, v) :: s.entries, issued := (k, v) :: s.issued }

def take : OneTimeStore κ ν :=
  match s.find k with
  | some v => { s with entries := s.without k, taken := (k, v) :: s.taken }
  | none => s

def drop : OneTimeStore κ ν := { s with entries := s.without k, dropped := k :: s.dropped }

structure Sound : Prop where
  issuedOnce : (s.issued.map Prod.fst).Nodup
  entries_issued : s.entries ⊆ s.issued
  taken_issued : s.taken ⊆ s.issued
  takenOnce : (s.taken.map Prod.fst).Nodup
  apart : ∀ {k v v'}, (k, v) ∈ s.taken → (k, v') ∉ s.entries
  accounted : ∀ {k v}, (k, v) ∈ s.issued → (k, v) ∈ s.entries ∨ (k, v) ∈ s.taken ∨ k ∈ s.dropped

variable {s k v}

omit [DecidableEq κ] in
theorem sound_empty : ({} : OneTimeStore κ ν).Sound where
  issuedOnce := List.nodup_nil
  entries_issued := List.nil_subset _
  taken_issued := List.nil_subset _
  takenOnce := List.nodup_nil
  apart h := (List.not_mem_nil h).elim
  accounted h := (List.not_mem_nil h).elim

theorem mem_of_find (h : s.find k = some v) : (k, v) ∈ s.entries := by
  obtain ⟨⟨k', v'⟩, found, rfl⟩ := Option.map_eq_some_iff.mp h
  have same : k' = k := by simpa using List.find?_some found
  rw [← same]
  exact List.mem_of_find?_eq_some found

theorem find_isSome (h : (k, v) ∈ s.entries) : (s.find k).isSome = true := by
  rw [find, Option.isSome_map]
  exact List.find?_isSome.mpr ⟨(k, v), h, decide_eq_true rfl⟩

theorem mem_without {e : κ × ν} : e ∈ s.without k ↔ e ∈ s.entries ∧ e.1 ≠ k := by
  simp [without, List.mem_filter]

namespace Sound

variable (sound : s.Sound)
include sound

omit [DecidableEq κ] in
/-- A key has one value. -/
theorem value_unique {v' : ν} (h : (k, v) ∈ s.issued) (h' : (k, v') ∈ s.issued) : v = v' :=
  (Prod.mk.inj (List.inj_on_of_nodup_map sound.issuedOnce h h' rfl)).2

theorem find_of_mem (h : (k, v) ∈ s.entries) : s.find k = some v := by
  obtain ⟨v', found⟩ := Option.isSome_iff_exists.mp (find_isSome h)
  rw [found, sound.value_unique (sound.entries_issued (mem_of_find found)) (sound.entries_issued h)]

/-- What was issued, not taken and not dropped is found. -/
theorem find_of_issued (h : (k, v) ∈ s.issued) (taken : (k, v) ∉ s.taken)
    (dropped : k ∉ s.dropped) : s.find k = some v :=
  sound.find_of_mem (by
    rcases sound.accounted h with mem | mem | mem
    · exact mem
    · exact absurd mem taken
    · exact absurd mem dropped)

omit [DecidableEq κ] in
theorem put (fresh : k ∉ s.issued.map Prod.fst) : (s.put k v).Sound where
  issuedOnce := List.nodup_cons.mpr ⟨fresh, sound.issuedOnce⟩
  entries_issued := List.cons_subset_cons _ sound.entries_issued
  taken_issued := List.subset_cons_of_subset _ sound.taken_issued
  takenOnce := sound.takenOnce
  apart := by
    intro k' v' v'' h h'
    rcases List.mem_cons.mp h' with same | h'
    · rw [Prod.mk.inj same |>.1] at h
      exact fresh (List.mem_map_of_mem (sound.taken_issued h))
    · exact sound.apart h h'
  accounted := by
    intro k' v' h
    rcases List.mem_cons.mp h with same | h
    · exact .inl (same ▸ List.mem_cons_self)
    · exact (sound.accounted h).imp_left (List.mem_cons_of_mem _)

theorem untaken_of_find (found : s.find k = some v) : k ∉ s.taken.map Prod.fst := by
  intro h
  obtain ⟨⟨k', v'⟩, h, same⟩ := List.mem_map.mp h
  have same : k' = k := same
  exact sound.apart h (same ▸ mem_of_find found)

theorem take : (s.take k).Sound := by
  unfold OneTimeStore.take
  split
  · next v found =>
    have present := mem_of_find found
    have untaken := sound.untaken_of_find found
    refine ⟨sound.issuedOnce, fun e he => sound.entries_issued (mem_without.mp he).1, ?_,
      List.nodup_cons.mpr ⟨untaken, sound.takenOnce⟩, ?_, ?_⟩
    · exact List.cons_subset.mpr ⟨sound.entries_issued present, sound.taken_issued⟩
    · intro k' v' v'' h h'
      obtain ⟨h', other⟩ := mem_without.mp h'
      rcases List.mem_cons.mp h with same | h
      · exact other (Prod.mk.inj same).1
      · exact sound.apart h h'
    · intro k' v' h
      rcases sound.accounted h with mem | mem | mem
      · by_cases same : k' = k
        · subst same
          rw [sound.value_unique h (sound.entries_issued present)]
          exact .inr (.inl List.mem_cons_self)
        · exact .inl (mem_without.mpr ⟨mem, same⟩)
      · exact .inr (.inl (List.mem_cons_of_mem _ mem))
      · exact .inr (.inr mem)
  · exact sound

theorem drop : (s.drop k).Sound where
  issuedOnce := sound.issuedOnce
  entries_issued e he := sound.entries_issued (mem_without.mp he).1
  taken_issued := sound.taken_issued
  takenOnce := sound.takenOnce
  apart h h' := sound.apart h (mem_without.mp h').1
  accounted := by
    intro k' v' h
    rcases sound.accounted h with mem | mem | mem
    · by_cases same : k' = k
      · exact .inr (.inr (same ▸ List.mem_cons_self))
      · exact .inl (mem_without.mpr ⟨mem, same⟩)
    · exact .inr (.inl mem)
    · exact .inr (.inr (List.mem_cons_of_mem _ mem))

end Sound

/-- What a change of the store keeps: nothing issued or taken is forgotten. -/
structure Grows (s t : OneTimeStore κ ν) : Prop where
  issued : s.issued ⊆ t.issued
  taken : s.taken ⊆ t.taken

omit [DecidableEq κ] in
theorem Grows.refl (s : OneTimeStore κ ν) : s.Grows s :=
  ⟨List.Subset.refl _, List.Subset.refl _⟩

omit [DecidableEq κ] in
theorem grows_put : s.Grows (s.put k v) :=
  ⟨List.subset_cons_self _ _, List.Subset.refl _⟩

theorem grows_take : s.Grows (s.take k) := by
  unfold take
  split
  · exact ⟨List.Subset.refl _, List.subset_cons_self _ _⟩
  · exact Grows.refl s

theorem grows_drop : s.Grows (s.drop k) := ⟨List.Subset.refl _, List.Subset.refl _⟩

theorem take_of_find (h : s.find k = some v) :
    s.take k = { s with entries := s.without k, taken := (k, v) :: s.taken } := by
  rw [take, h]

theorem mem_taken_of_find (h : s.find k = some v) : k ∈ (s.take k).taken.map Prod.fst := by
  rw [take_of_find h]
  exact List.mem_cons_self

/-- Taking or dropping a key leaves the other keys. -/
theorem eq_of_taken {e : κ × ν} (before : e ∈ s.entries) (after : e ∉ (s.take k).entries) :
    e.1 = k := by
  by_contra other
  rcases found : s.find k with - | v
  · rw [take, found] at after
    exact after before
  · rw [take_of_find found] at after
    exact after (mem_without.mpr ⟨before, other⟩)

theorem eq_of_dropped {e : κ × ν} (before : e ∈ s.entries) (after : e ∉ (s.drop k).entries) :
    e.1 = k :=
  by_contra fun other => after (mem_without.mpr ⟨before, other⟩)

end OneTimeStore
end Privana
