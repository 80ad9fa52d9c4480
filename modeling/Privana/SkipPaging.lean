import Mathlib.Data.List.NodupEquivFin
import Privana.CheckedArithmetic

/-! Pages of a remote list, read one after the other with a skip and a limit until one is taken for
the last. The list may grow at any place between two requests: an item only moves to the back, so
that it is met on the page that its position has reached. -/

namespace Privana.SkipPaging
open CheckedArithmetic

variable {ε α : Type} {limit : ℕ} {ask : ℕ → Except ε (List α × Option ℕ)} {x : α}

/-- Whether a page is short, or reaches the number of items that came with it. -/
def endsList (limit skip : ℕ) (page : List α × Option ℕ) : Bool :=
  page.1.length < limit || page.2.any fun total => total ≤ skip + page.1.length

/-- So many pages at most, from one page on. -/
def readPages (limit : ℕ) (ask : ℕ → Except ε (List α × Option ℕ)) :
    (pages page : ℕ) → Except ε (List α)
  | 0, _ => .ok []
  | pages + 1, page => do
    let answer ← ask page
    if endsList limit (page * limit) answer then .ok answer.1
    else do
      let rest ← readPages limit ask pages (page + 1)
      return answer.1 ++ rest

theorem readPages_succ_eq_ok {pages page : ℕ} {items : List α} :
    readPages limit ask (pages + 1) page = .ok items ↔ ∃ answer, ask page = .ok answer ∧
      ((endsList limit (page * limit) answer = true ∧ items = answer.1) ∨
        endsList limit (page * limit) answer = false ∧
          ∃ rest, readPages limit ask pages (page + 1) = .ok rest ∧ items = answer.1 ++ rest) := by
  rw [readPages, bind_eq_ok]
  refine exists_congr fun answer => and_congr_right fun _ => ?_
  cases endsList limit (page * limit) answer with
  | true => simp [eq_comm]
  | false =>
    rw [if_neg Bool.false_ne_true, bind_eq_ok]
    simp only [pure_eq_ok, Bool.false_eq_true, false_and, false_or, true_and, @eq_comm _ _ items]

/-- The answers are the pages of one list, which grows from request to request. -/
structure PagesOf (limit : ℕ) (ask : ℕ → Except ε (List α × Option ℕ)) (book : ℕ → List α) :
    Prop where
  page : ∀ k answer, ask k = .ok answer → answer.1 = ((book k).drop (k * limit)).take limit
  total : ∀ k answer, ask k = .ok answer → ∀ total ∈ answer.2, (book k).length ≤ total
  grows : ∀ k, (book k).Sublist (book (k + 1))

variable {book : ℕ → List α}

theorem getElem?_of_sublist {l l' : List α} (sub : l.Sublist l') {i : ℕ} (h : l[i]? = some x) :
    ∃ j, i ≤ j ∧ l'[j]? = some x := by
  obtain ⟨f, same⟩ := List.sublist_iff_exists_orderEmbedding_getElem?_eq.mp sub
  exact ⟨f i, f.strictMono.le_apply, (same i).symm.trans h⟩

/-- A page holds what its positions hold, and what lies behind it is not given up. -/
theorem PagesOf.met (h : PagesOf limit ask book) {k : ℕ} {answer : List α × Option ℕ}
    (asked : ask k = .ok answer) {i : ℕ} (at_ : (book k)[i]? = some x) (low : k * limit ≤ i) :
    x ∈ answer.1 ∨ (k + 1) * limit ≤ i ∧ endsList limit (k * limit) answer = false := by
  have inside := (List.getElem?_eq_some_iff.mp at_).1
  rw [Nat.add_mul, one_mul]
  by_cases near : i < k * limit + limit
  · left
    rw [h.page k answer asked]
    refine List.mem_of_getElem? (i := i - k * limit) ?_
    rw [List.getElem?_take_of_lt (by omega), List.getElem?_drop, Nat.add_sub_cancel' low, at_]
  · right
    have full : answer.1.length = limit := by
      rw [h.page k answer asked, List.length_take, List.length_drop]
      omega
    refine ⟨by omega, ?_⟩
    rw [endsList, full, decide_eq_false (lt_irrefl limit), Bool.false_or, ← Bool.not_eq_true,
      Option.any_eq_true]
    rintro ⟨total, told, reached⟩
    have enough := h.total k answer asked total told
    have reached := of_decide_eq_true reached
    omega

/-- An item that is on the list when the first of so many pages is asked for, and that the last of
them still reaches when it is asked for. -/
structure OnBooks (limit pages : ℕ) (ask : ℕ → Except ε (List α × Option ℕ)) (book : ℕ → List α)
    (x : α) : Prop where
  pagesOf : PagesOf limit ask book
  mem : x ∈ book 0
  reach : ∀ i, (book (pages - 1))[i]? = some x → i < pages * limit

theorem OnBooks.read {pages : ℕ} (h : OnBooks limit pages ask book x) {items : List α}
    (read : readPages limit ask pages 0 = .ok items) : x ∈ items := by
  have from_ (n page : ℕ) : n + page = pages → ∀ items, readPages limit ask n page = .ok items →
      ∀ i, page * limit ≤ i → (book page)[i]? = some x → n ≠ 0 → x ∈ items := by
    induction n generalizing page with
    | zero => exact fun _ _ _ _ _ _ none => absurd rfl none
    | succ n ih =>
      intro same items read i low at_ _
      obtain ⟨answer, asked, shape⟩ := readPages_succ_eq_ok.mp read
      rcases h.pagesOf.met asked at_ low with met | ⟨far, goes⟩
      · rcases shape with ⟨-, rfl⟩ | ⟨-, rest, -, rfl⟩
        · exact met
        · exact List.mem_append_left rest met
      · rcases shape with ⟨ends, -⟩ | ⟨-, rest, readRest, rfl⟩
        · cases goes.symm.trans ends
        · have more : n ≠ 0 := by
            rintro rfl
            have last : page = pages - 1 := by omega
            rw [last] at at_
            have reached := h.reach i at_
            rw [show pages = page + 1 by omega] at reached
            exact absurd far (not_le.mpr reached)
          obtain ⟨j, le, at'⟩ := getElem?_of_sublist (h.pagesOf.grows page) at_
          exact List.mem_append_right _
            (ih (page + 1) (by omega) rest readRest j (far.trans le) at' more)
  obtain ⟨i, at_⟩ := List.mem_iff_getElem?.mp h.mem
  refine from_ pages 0 rfl items read i (by omega) at_ ?_
  rintro rfl
  exact absurd (h.reach i at_) (by omega)

end Privana.SkipPaging
