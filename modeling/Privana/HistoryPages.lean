import Mathlib.Algebra.Order.Floor.Div
import Privana.PrivateReads
import Privana.WithdrawalPayout

/-! The pages of `getHistory`. The offsets from zero on and the negative ones from the end walk
through the same pages, which make up the history; every other offset reads an empty page. -/

namespace Privana
open BigEndian CheckedArithmetic

section Pages
variable {α : Type*}

/-- Page `i` of a list, with `p` entries a page. -/
def pageAt (p i : ℕ) (all : List α) : List α := (all.drop (i * p)).take p

def pagesOf (p : ℕ) (all : List α) : List (List α) :=
  (List.range (all.length ⌈/⌉ p)).map fun i => pageAt p i all

theorem length_pagesOf (p : ℕ) (all : List α) : (pagesOf p all).length = all.length ⌈/⌉ p := by
  simp [pagesOf]

theorem flatten_pages (p k : ℕ) (all : List α) :
    ((List.range k).map fun i => pageAt p i all).flatten = all.take (k * p) := by
  induction k with
  | zero => simp
  | succ k ih =>
    rw [List.range_succ, List.map_append, List.flatten_append, ih, Nat.succ_mul, List.take_add]
    simp [pageAt]

theorem flatten_pagesOf {p : ℕ} (positive : 0 < p) (all : List α) :
    (pagesOf p all).flatten = all := by
  rw [pagesOf, flatten_pages, List.take_of_length_le]
  rw [Nat.mul_comm]
  exact le_smul_ceilDiv positive

theorem getD_pagesOf {p i : ℕ} {all : List α} (h : i < all.length ⌈/⌉ p) :
    (pagesOf p all).getD i [] = pageAt p i all := by
  simp [pagesOf, List.getD_eq_getElem?_getD, h]

theorem page_start_lt {p i n : ℕ} (positive : 0 < p) (h : i < n ⌈/⌉ p) : i * p < n := by
  by_contra past
  have below : n ⌈/⌉ p ≤ i := by
    rw [ceilDiv_le_iff_le_mul positive, Nat.mul_comm]
    exact not_lt.mp past
  omega

theorem mapM_range_eq {ε : Type} {f : ℕ → Except ε α} {l : List α}
    (h : ∀ i (hi : i < l.length), f i = .ok l[i]) : (List.range l.length).mapM f = .ok l := by
  induction l using List.reverseRecOn with
  | nil => rfl
  | append_singleton l x ih =>
    have front : (List.range l.length).mapM f = .ok l := by
      apply ih
      intro i hi
      rw [h i (by simp; omega), List.getElem_append_left hi]
    have last : f l.length = .ok x := by
      rw [h l.length (by simp)]
      simp
    rw [List.length_append, List.length_singleton, List.range_succ, List.mapM_append, front]
    simp [last, bind, Except.bind, pure, Except.pure]

end Pages

/-- The size of the pages that a limit asks for. -/
def historyPageSize (limit : U256) : ℕ := min limit.toNat 100

theorem toNat_pageSize (limit : U256) :
    (if limit.toNat > maxHistoryPageSize.toNat then maxHistoryPageSize else limit).toNat =
      historyPageSize limit := by
  have hundred : maxHistoryPageSize.toNat = 100 := rfl
  rw [historyPageSize]
  split <;> omega

theorem historyPage_eq {all : List HistoryEntry} {start pageSize : U256}
    (size : all.length < 2 ^ 256) (inside : start.toNat ≤ all.length) :
    historyPage all start pageSize = .ok ((all.drop start.toNat).take pageSize.toNat) := by
  have total : (BitVec.ofNat 256 all.length).toNat = all.length := by
    rw [BitVec.toNat_ofNat, Nat.mod_eq_of_lt size]
  have remaining : checkedSub ViewError.panic (.ofNat 256 all.length) start =
      .ok (.ofNat 256 (all.length - start.toNat)) := by
    rw [checkedSub_eq_ok, BitVec.toNat_ofNat, Nat.mod_eq_of_lt (by omega), total]
    omega
  have left : (BitVec.ofNat 256 (all.length - start.toNat)).toNat = all.length - start.toNat := by
    rw [BitVec.toNat_ofNat, Nat.mod_eq_of_lt (by omega)]
  have entries : (if (BitVec.ofNat 256 (all.length - start.toNat)).toNat < pageSize.toNat then
      BitVec.ofNat 256 (all.length - start.toNat) else pageSize).toNat =
        ((all.drop start.toNat).take pageSize.toNat).length := by
    rw [List.length_take, List.length_drop]
    split <;> omega
  simp only [historyPage, remaining, bind, Except.bind, entries]
  apply mapM_range_eq
  intro i hi
  rw [List.length_take, List.length_drop, lt_inf_iff] at hi
  have index : checkedAdd ViewError.panic start (.ofNat 256 i) = .ok (.ofNat 256 (start.toNat + i)) := by
    rw [checkedAdd_eq_ok, BitVec.toNat_ofNat, BitVec.toNat_ofNat, Nat.mod_eq_of_lt (by omega),
      Nat.mod_eq_of_lt (by omega)]
  have place : (BitVec.ofNat 256 (start.toNat + i)).toNat = start.toNat + i := by
    rw [BitVec.toNat_ofNat, Nat.mod_eq_of_lt (by omega)]
  simp only [index, place]
  rw [List.getElem?_eq_getElem (by omega)]
  simp

/-- The distance from the end, counted without negating the least `int256`. -/
theorem pageFromEnd_of_neg {offset : BitVec 256} (negative : offset.toInt < 0) :
    ∃ next negated pageFromEnd : BitVec 256,
      checkedAddInt ViewError.panic offset 1 = .ok next ∧
      checkedNegInt ViewError.panic next = .ok negated ∧
      checkedAdd ViewError.panic negated 1 = .ok pageFromEnd ∧
      pageFromEnd.toNat = (-offset.toInt).toNat := by
  have least := BitVec.le_toInt offset
  have one : (1 : BitVec 256).toInt = 1 := rfl
  have oneNat : (1 : BitVec 256).toNat = 1 := rfl
  refine ⟨.ofInt 256 (offset.toInt + 1), .ofNat 256 (-offset.toInt - 1).toNat,
    .ofNat 256 (-offset.toInt).toNat, ?_, ?_, ?_, ?_⟩
  · rw [checkedAddInt_eq_ok, one, BitVec.toInt_ofInt_eq_self (by decide) (by omega) (by omega)]
  · rw [checkedNegInt_eq_ok, BitVec.toInt_ofInt_eq_self (by decide) (by omega) (by omega),
      BitVec.toInt_eq_toNat_of_lt]
    · rw [BitVec.toNat_ofNat, Nat.mod_eq_of_lt (by omega)]
      omega
    · rw [BitVec.toNat_ofNat, Nat.mod_eq_of_lt (by omega)]
      omega
  · rw [checkedAdd_eq_ok, oneNat, BitVec.toNat_ofNat, BitVec.toNat_ofNat,
      Nat.mod_eq_of_lt (by omega), Nat.mod_eq_of_lt (by omega)]
    omega
  · rw [BitVec.toNat_ofNat, Nat.mod_eq_of_lt (by omega)]

section Storage
variable {all : List HistoryEntry}

/-- The length at which the `push` of the compiled contract panics. -/
def maxArrayLength : ℕ := 2 ^ 64

/-- `history[user].push(entry)`. -/
def pushEntry (all : List HistoryEntry) (entry : HistoryEntry) :
    Except Error (List HistoryEntry) :=
  if all.length < maxArrayLength then .ok (all ++ [entry]) else .error .panic

/-- A history that pushes have made, none of which has panicked. -/
inductive Storable : List HistoryEntry → Prop
  | empty : Storable []
  | push {all longer : List HistoryEntry} {entry : HistoryEntry} (before : Storable all)
      (pushed : pushEntry all entry = .ok longer) : Storable longer

theorem pushEntry_eq_ok {entry : HistoryEntry} {longer : List HistoryEntry} :
    pushEntry all entry = .ok longer ↔ all.length < maxArrayLength ∧ longer = all ++ [entry] := by
  unfold pushEntry
  split
  · next room => simp [room, eq_comm]
  · next full => simp [full]

theorem storable_iff : Storable all ↔ all.length ≤ maxArrayLength := by
  constructor
  · intro h
    induction h with
    | empty => exact Nat.zero_le _
    | push _ pushed ih =>
      obtain ⟨room, rfl⟩ := pushEntry_eq_ok.mp pushed
      rw [List.length_append]
      exact room
  · intro h
    induction all using List.reverseRecOn with
    | nil => exact .empty
    | append_singleton all entry ih =>
      rw [List.length_append, List.length_singleton] at h
      exact .push (ih (Nat.le_of_succ_le h)) (pushEntry_eq_ok.mpr ⟨h, rfl⟩)

theorem historyPageSize_le (limit : U256) : historyPageSize limit ≤ 100 := Nat.min_le_right _ _

/-- A stored history leaves room for rounding up to whole pages. -/
theorem Storable.fits (h : Storable all) (limit : U256) :
    all.length + historyPageSize limit < 2 ^ 256 := by
  have length : all.length ≤ 2 ^ 64 := storable_iff.mp h
  have page := historyPageSize_le limit
  omega

/-- What the contract appends is what its push makes of the history. -/
theorem Storable.appendHistory {s : State} {m : Msg} {user : Address} {kind : HistoryKind}
    {payload : Bytes} {longer : List HistoryEntry} (h : Storable (s.history user))
    (pushed : pushEntry (s.history user) ⟨kind, m.timestamp.setWidth 64, payload⟩ = .ok longer) :
    Storable ((s.appendHistory m user kind payload).history user) := by
  have appended : (s.appendHistory m user kind payload).history user = longer := by
    rw [(pushEntry_eq_ok.mp pushed).2]
    simp [State.appendHistory]
  rw [appended]
  exact .push h pushed

end Storage

section Paged
variable {all : List HistoryEntry} {limit offset : U256}

/-- The rounded division of a non-empty history. -/
theorem pagedHistory_eq (offset : U256) (fits : all.length + historyPageSize limit < 2 ^ 256)
    (entries : 0 < all.length) (positive : 0 < historyPageSize limit) :
    let pageCount := all.length ⌈/⌉ historyPageSize limit
    pagedHistory offset limit all =
      if offset.toInt < 0 then
        if (-offset.toInt).toNat > pageCount then .ok ([], .ofNat 256 all.length)
        else .ok (pageAt (historyPageSize limit) (pageCount - (-offset.toInt).toNat) all,
          .ofNat 256 all.length)
      else if offset.toNat ≥ pageCount then .ok ([], .ofNat 256 all.length)
      else .ok (pageAt (historyPageSize limit) offset.toNat all, .ofNat 256 all.length) := by
  have size := toNat_pageSize limit
  unfold pagedHistory
  generalize (if limit.toNat > maxHistoryPageSize.toNat then maxHistoryPageSize else limit) =
    pageSize at size
  rw [← size] at fits positive
  rw [← size]
  have total : (BitVec.ofNat 256 all.length).toNat = all.length := by
    rw [BitVec.toNat_ofNat, Nat.mod_eq_of_lt (by omega)]
  have some : ¬ (BitVec.ofNat 256 all.length = 0 ∨ pageSize = 0) := by
    rintro (zero | zero)
    · rw [zero] at total
      exact entries.ne total
    · rw [zero] at positive
      exact absurd positive (lt_irrefl _)
  have padded : checkedAdd ViewError.panic (.ofNat 256 all.length) pageSize =
      .ok (.ofNat 256 (all.length + pageSize.toNat)) := by
    rw [checkedAdd_eq_ok, total, BitVec.toNat_ofNat, Nat.mod_eq_of_lt fits]
  have last : checkedSub ViewError.panic (.ofNat 256 (all.length + pageSize.toNat)) (1 : U256) =
      .ok (.ofNat 256 (all.length + pageSize.toNat - 1)) := by
    have one : (1 : U256).toNat = 1 := rfl
    rw [checkedSub_eq_ok, BitVec.toNat_ofNat, BitVec.toNat_ofNat, Nat.mod_eq_of_lt fits,
      Nat.mod_eq_of_lt (by omega), one]
    omega
  have pages : (BitVec.ofNat 256 (all.length ⌈/⌉ pageSize.toNat)).toNat =
      all.length ⌈/⌉ pageSize.toNat := by
    rw [BitVec.toNat_ofNat, Nat.mod_eq_of_lt]
    have bound : all.length ⌈/⌉ pageSize.toNat ≤ all.length := by
      rw [ceilDiv_le_iff_le_mul positive]
      exact Nat.le_mul_of_pos_left _ positive
    omega
  have divided : checkedDiv ViewError.panic (.ofNat 256 (all.length + pageSize.toNat - 1)) pageSize =
      .ok (.ofNat 256 (all.length ⌈/⌉ pageSize.toNat)) := by
    rw [checkedDiv_eq_ok, pages, Nat.ceilDiv_eq_add_pred_div, BitVec.toNat_ofNat,
      Nat.mod_eq_of_lt (by omega)]
    exact ⟨positive.ne', rfl⟩
  simp only [bind, Except.bind, pure, Except.pure, if_neg some, padded, last, divided, pages]
  have read (i : ℕ) (hi : i < all.length ⌈/⌉ pageSize.toNat) (index : U256)
      (at_i : index.toNat = i) : ∃ start, checkedMul ViewError.panic index pageSize = .ok start ∧
        historyPage all start pageSize = .ok (pageAt pageSize.toNat i all) := by
    have before := page_start_lt positive hi
    have place : (BitVec.ofNat 256 (i * pageSize.toNat)).toNat = i * pageSize.toNat := by
      rw [BitVec.toNat_ofNat, Nat.mod_eq_of_lt (by omega)]
    refine ⟨.ofNat 256 (i * pageSize.toNat), ?_, ?_⟩
    · rw [checkedMul_eq_ok, place, at_i]
    · rw [historyPage_eq (by omega) (by omega), place, pageAt]
  by_cases negative : offset.toInt < 0
  · obtain ⟨next, negated, pageFromEnd, hnext, hnegated, hpage, distance⟩ :=
      pageFromEnd_of_neg negative
    simp only [if_pos negative, hnext, hnegated, hpage, distance]
    by_cases past : (-offset.toInt).toNat > all.length ⌈/⌉ pageSize.toNat
    · rw [if_pos past, if_pos past]
    · rw [if_neg past, if_neg past]
      have index : checkedSub ViewError.panic (.ofNat 256 (all.length ⌈/⌉ pageSize.toNat))
          pageFromEnd = .ok (.ofNat 256 (all.length ⌈/⌉ pageSize.toNat -
            (-offset.toInt).toNat)) := by
        rw [checkedSub_eq_ok, distance, pages, BitVec.toNat_ofNat, Nat.mod_eq_of_lt (by omega)]
        omega
      have place : (BitVec.ofNat 256 (all.length ⌈/⌉ pageSize.toNat -
          (-offset.toInt).toNat)).toNat = all.length ⌈/⌉ pageSize.toNat - (-offset.toInt).toNat := by
        rw [BitVec.toNat_ofNat, Nat.mod_eq_of_lt (by omega)]
      obtain ⟨start, hstart, hread⟩ := read _ (by omega) _ place
      simp only [index, hstart, hread]
  · rw [if_neg negative, if_neg negative]
    by_cases past : offset.toNat ≥ all.length ⌈/⌉ pageSize.toNat
    · rw [if_pos past, if_pos past]
    · rw [if_neg past, if_neg past]
      obtain ⟨start, hstart, hread⟩ := read offset.toNat (by omega) offset rfl
      simp only [hstart, hread]

/-- Every read of the history, one page size after the other. -/
structure ExactPages (all : List HistoryEntry) (pageSize : ℕ)
    (read : BitVec 256 → Except ViewError (List HistoryEntry × U256)) : Prop where
  whole : (pagesOf pageSize all).flatten = all
  count : (pagesOf pageSize all).length = all.length ⌈/⌉ pageSize
  fromStart : ∀ offset : BitVec 256, 0 ≤ offset.toInt → offset.toInt < (all.length ⌈/⌉ pageSize : ℕ) →
    read offset = .ok ((pagesOf pageSize all).getD offset.toNat [], .ofNat 256 all.length)
  fromEnd : ∀ (offset : BitVec 256) (j : ℕ), 1 ≤ j → j ≤ all.length ⌈/⌉ pageSize → offset.toInt = -j →
    read offset = .ok ((pagesOf pageSize all).getD (all.length ⌈/⌉ pageSize - j) [],
      .ofNat 256 all.length)
  outside : ∀ offset : BitVec 256, ((all.length ⌈/⌉ pageSize : ℕ) ≤ offset.toInt ∨
    offset.toInt < -((all.length ⌈/⌉ pageSize : ℕ) : ℤ)) →
    read offset = .ok ([], .ofNat 256 all.length)

theorem pagedHistory_nil (total : all = [] ∨ historyPageSize limit = 0) :
    pagedHistory offset limit all = .ok ([], .ofNat 256 all.length) := by
  have nothing : (BitVec.ofNat 256 all.length = 0 ∨
      (if limit.toNat > maxHistoryPageSize.toNat then maxHistoryPageSize else limit) = 0) := by
    rcases total with rfl | total
    · exact .inl rfl
    · rw [← toNat_pageSize] at total
      exact .inr (BitVec.eq_of_toNat_eq total)
  unfold pagedHistory
  exact if_pos nothing

theorem toInt_of_nonneg {x : BitVec 256} (h : 0 ≤ x.toInt) : x.toInt = x.toNat := by
  rw [BitVec.toInt_eq_toNat_cond] at h ⊢
  split at h <;> omega

theorem exactPages (fits : all.length + historyPageSize limit < 2 ^ 256)
    (positive : 0 < historyPageSize limit) :
    ExactPages all (historyPageSize limit) (pagedHistory · limit all) := by
  have read (offset : U256) (entries : 0 < all.length) := pagedHistory_eq offset fits
    entries positive
  constructor
  · exact flatten_pagesOf positive all
  · exact length_pagesOf _ all
  · intro offset nonneg before
    rw [toInt_of_nonneg nonneg, Nat.cast_lt] at before
    have entries := (Nat.zero_le _).trans_lt (page_start_lt positive before)
    rw [read offset entries, if_neg (not_lt.mpr nonneg), if_neg (not_le.mpr before),
      getD_pagesOf before]
  · intro offset j least most distance
    have entries : 0 < all.length :=
      (Nat.zero_le _).trans_lt (page_start_lt (i := 0) positive (by omega))
    have count : (-offset.toInt).toNat = j := by omega
    rw [read offset entries, if_pos (by omega), count, if_neg (by omega),
      getD_pagesOf (by omega)]
  · intro offset away
    by_cases entries : 0 < all.length
    · rw [read offset entries]
      rcases away with past | past
      · have nonneg : 0 ≤ offset.toInt := le_trans (Int.natCast_nonneg _) past
        rw [toInt_of_nonneg nonneg, Nat.cast_le] at past
        rw [if_neg (not_lt.mpr nonneg), if_pos past]
      · rw [if_pos (by omega), if_pos (by omega)]
    · exact pagedHistory_nil (.inl (List.length_eq_zero_iff.mp (by omega)))

end Paged

section Authenticated
variable (P : Platform) (T : TokenPlatform) (auth : SiweAuthState) (m : Msg) (s : State)

theorem getHistory_eq {P : Platform} {T : TokenPlatform} {auth : SiweAuthState} {m : Msg}
    {s : State} {user : Address} {token : Bytes}
    (authenticated : authSender P T auth m token = .ok user) (known : user ≠ 0)
    (offset limit : U256) :
    getHistory P T auth m offset limit token s = pagedHistory offset limit (s.history user) := by
  simp only [getHistory, authenticated, requireUser, if_neg known, bind, Except.bind]

theorem pages_of_fits {user : Address} {token : Bytes}
    (authenticated : authSender P T auth m token = .ok user) (known : user ≠ 0) (limit : U256)
    (fits : (s.history user).length + historyPageSize limit < 2 ^ 256) :
    (0 < historyPageSize limit → ExactPages (s.history user) (historyPageSize limit)
      (getHistory P T auth m · limit token s)) ∧
    ∀ offset, ∃ page total, getHistory P T auth m offset limit token s = .ok (page, total) ∧
      total.toNat = (s.history user).length := by
  have reads : (getHistory P T auth m · limit token s) =
      (pagedHistory · limit (s.history user)) :=
    funext fun offset => getHistory_eq authenticated known offset limit
  have total : (BitVec.ofNat 256 (s.history user).length).toNat = (s.history user).length := by
    rw [BitVec.toNat_ofNat, Nat.mod_eq_of_lt (by omega)]
  constructor
  · intro positive
    rw [reads]
    exact exactPages fits positive
  · intro offset
    rw [getHistory_eq authenticated known]
    by_cases entries : s.history user = [] ∨ historyPageSize limit = 0
    · exact ⟨_, _, pagedHistory_nil entries, total⟩
    · rw [not_or] at entries
      rw [pagedHistory_eq _ fits (List.length_pos_iff.mpr entries.1) (Nat.pos_of_ne_zero entries.2)]
      split_ifs <;> exact ⟨_, _, rfl, total⟩

/-- The pages of an authenticated history are exact for every limit and offset, and every
read answers with the total, whatever history the pushes of the contract have made. -/
theorem history_pages_exact {user : Address} {token : Bytes}
    (authenticated : authSender P T auth m token = .ok user) (known : user ≠ 0) (limit : U256)
    (storable : Storable (s.history user)) :
    (0 < historyPageSize limit → ExactPages (s.history user) (historyPageSize limit)
      (getHistory P T auth m · limit token s)) ∧
    ∀ offset, ∃ page total, getHistory P T auth m offset limit token s = .ok (page, total) ∧
      total.toNat = (s.history user).length :=
  pages_of_fits P T auth m s authenticated known limit (storable.fits limit)

end Authenticated

def sampleTokenPlatform : TokenPlatform := ⟨fun _ _ => none, fun _ => none⟩

def sampleAuth : SiweAuthState := ⟨0, fun _ => false⟩

theorem history_pages_exact_sample :
    let s := (accounting samplePlatform).run (accountingInit sampleEvm sampleGasTank) sampleTxs
    ExactPages (s.history sampleUser) 1 (getHistory samplePlatform sampleTokenPlatform sampleAuth
      ⟨sampleUser, false, 9, 1700000000⟩ · 1 [] s) ∧ (s.history sampleUser).length = 2 := by
  have length : (((accounting samplePlatform).run (accountingInit sampleEvm sampleGasTank)
    sampleTxs).history sampleUser).length = 2 := by decide +kernel
  have page : historyPageSize 1 = 1 := rfl
  refine ⟨?_, length⟩
  rw [← page]
  exact (history_pages_exact samplePlatform sampleTokenPlatform sampleAuth _ _ rfl (by decide) 1
    (storable_iff.mpr (by rw [length]; decide))).1 (by decide)

end Privana
