import Privana.ExecuteStep
import Privana.HistoryCodec
import Privana.LedgerBook

/-! The journal of a step: the moves it posts on the ledger and the lines it
writes into the histories, with the proof that the two agree for every user. -/

namespace Privana
open BigEndian DoubleEntry HistoryEntry

variable {P : Platform} {m : Msg}

/-- A history entry with the user it is appended for. -/
structure Line where
  user : Address
  entry : HistoryEntry

def linesOf (lines : List Line) (u : Address) : List HistoryEntry :=
  (lines.filter fun x => x.user = u).map Line.entry

def incomingSum (t : Bytes32) (es : List HistoryEntry) : ℕ := (es.map (·.incoming t)).sum

def outgoingSum (u : Address) (t : Bytes32) (es : List HistoryEntry) : ℕ :=
  (es.map (·.outgoing u t)).sum

/-- What a user owns of a token: the free balance and the active locks. -/
def State.wealth (s : State) (u : Address) (t : Bytes32) : ℕ :=
  s.book (.free u) t + s.book (.locked u) t

@[simp, grind =] theorem linesOf_nil (u : Address) : linesOf [] u = [] := rfl

theorem linesOf_cons (x : Line) (xs : List Line) (u : Address) :
    linesOf (x :: xs) u = if x.user = u then x.entry :: linesOf xs u else linesOf xs u := by
  unfold linesOf
  by_cases h : x.user = u <;> simp [h]

theorem linesOf_append (xs ys : List Line) (u : Address) :
    linesOf (xs ++ ys) u = linesOf xs u ++ linesOf ys u := by
  simp [linesOf]

theorem incomingSum_append (t : Bytes32) (es es' : List HistoryEntry) :
    incomingSum t (es ++ es') = incomingSum t es + incomingSum t es' := by
  simp [incomingSum]

theorem outgoingSum_append (u : Address) (t : Bytes32) (es es' : List HistoryEntry) :
    outgoingSum u t (es ++ es') = outgoingSum u t es + outgoingSum u t es' := by
  simp [outgoingSum]

@[simp, grind =] theorem incomingSum_nil (t : Bytes32) : incomingSum t [] = 0 := rfl

@[simp, grind =] theorem outgoingSum_nil (u : Address) (t : Bytes32) : outgoingSum u t [] = 0 := rfl

@[simp, grind =] theorem incomingSum_linesOf_cons (t : Bytes32) (x : Line) (xs : List Line) (u : Address) :
    incomingSum t (linesOf (x :: xs) u) =
      (if x.user = u then x.entry.incoming t else 0) + incomingSum t (linesOf xs u) := by
  rw [linesOf_cons]
  split <;> simp [incomingSum]

@[simp, grind =] theorem outgoingSum_linesOf_cons (t : Bytes32) (x : Line) (xs : List Line) (u : Address) :
    outgoingSum u t (linesOf (x :: xs) u) =
      (if x.user = u then x.entry.outgoing u t else 0) + outgoingSum u t (linesOf xs u) := by
  rw [linesOf_cons]
  split <;> simp [outgoingSum]

theorem history_appendHistory (s : State) (m : Msg) (w u : Address) (kind : HistoryKind)
    (payload : Bytes) :
    (s.appendHistory m w kind payload).history u =
      s.history u ++ linesOf [⟨w, ⟨kind, m.timestamp.setWidth 64, payload⟩⟩] u := by
  by_cases h : w = u
  · subst h
    simp [linesOf_cons]
  · simp [linesOf_cons, h, Ne.symm h]

theorem history_appendUserCounterpartyHistory (s : State) (m : Msg) (w u c : Address)
    (kind : HistoryKind) (t : Bytes32) (n : U256) :
    (s.appendUserCounterpartyHistory m w kind t n c).history u =
      s.history u ++ linesOf [⟨w, .withCounterparty m kind t n c⟩] u :=
  history_appendHistory _ _ _ _ _ _

/-- The user whose wealth an account is part of. -/
def Account.owner? : Account → Option Address
  | .free u => some u
  | .locked u => some u
  | .queued => none

/-- User `u` is at one of the ends of a move. -/
def Involves (x : Move Account Bytes32) (u : Address) : Prop :=
  x.source.bind Account.owner? = some u ∨ x.target.bind Account.owner? = some u

structure Journal (s s' : State) where
  moves : List (Move Account Bytes32)
  lines : List Line
  posts : Posts moves s.book s'.book
  appended : ∀ u, s'.history u = s.history u ++ linesOf lines u
  /-- A move is noted in the history of every user it involves. -/
  noted : ∀ x ∈ moves, ∀ u, Involves x u →
    ∃ y ∈ lines, y.user = u ∧ y.entry.Carries x.token x.amount
  /-- A line is about a move that involves its user. -/
  backed : ∀ y ∈ lines, ∃ x ∈ moves, Involves x y.user ∧ y.entry.Carries x.token x.amount
  /-- What the moves bring a user and take away is what the lines say. -/
  recorded : ∀ u t,
    inflow moves (some (.free u)) t + inflow moves (some (.locked u)) t +
        outgoingSum u t (linesOf lines u) =
      outflow moves (some (.free u)) t + outflow moves (some (.locked u)) t +
        incomingSum t (linesOf lines u)

namespace Journal

/-- A step that moves nothing and writes nothing. -/
def quiet {s s' : State} (book : s'.book = s.book) (history : s'.history = s.history) :
    Journal s s' where
  moves := []
  lines := []
  posts := book ▸ Posts.refl _
  appended := by simp [history]
  noted := by simp
  backed := by simp
  recorded := by simp

section Append

variable {s s' s'' : State} (j : Journal s s') (k : Journal s' s'')

theorem append_posts : Posts (j.moves ++ k.moves) s.book s''.book := j.posts.append k.posts

theorem append_appended (u : Address) :
    s''.history u = s.history u ++ linesOf (j.lines ++ k.lines) u := by
  rw [k.appended, j.appended, linesOf_append, List.append_assoc]

theorem append_noted (x : Move Account Bytes32) (hx : x ∈ j.moves ++ k.moves) (u : Address)
    (hu : Involves x u) :
    ∃ y ∈ j.lines ++ k.lines, y.user = u ∧ y.entry.Carries x.token x.amount := by
  rcases List.mem_append.mp hx with hx | hx
  · obtain ⟨y, hy, h⟩ := j.noted x hx u hu
    exact ⟨y, List.mem_append_left _ hy, h⟩
  · obtain ⟨y, hy, h⟩ := k.noted x hx u hu
    exact ⟨y, List.mem_append_right _ hy, h⟩

theorem append_backed (y : Line) (hy : y ∈ j.lines ++ k.lines) :
    ∃ x ∈ j.moves ++ k.moves, Involves x y.user ∧ y.entry.Carries x.token x.amount := by
  rcases List.mem_append.mp hy with hy | hy
  · obtain ⟨x, hx, h⟩ := j.backed y hy
    exact ⟨x, List.mem_append_left _ hx, h⟩
  · obtain ⟨x, hx, h⟩ := k.backed y hy
    exact ⟨x, List.mem_append_right _ hx, h⟩

theorem append_recorded (u : Address) (t : Bytes32) :
    inflow (j.moves ++ k.moves) (some (.free u)) t +
          inflow (j.moves ++ k.moves) (some (.locked u)) t +
        outgoingSum u t (linesOf (j.lines ++ k.lines) u) =
      outflow (j.moves ++ k.moves) (some (.free u)) t +
          outflow (j.moves ++ k.moves) (some (.locked u)) t +
        incomingSum t (linesOf (j.lines ++ k.lines) u) := by
  have hj := j.recorded u t
  have hk := k.recorded u t
  simp only [inflow, outflow, flow_append, linesOf_append, outgoingSum_append,
    incomingSum_append] at hj hk ⊢
  omega

def append : Journal s s'' where
  moves := j.moves ++ k.moves
  lines := j.lines ++ k.lines
  posts := append_posts j k
  appended := append_appended j k
  noted := append_noted j k
  backed := append_backed j k
  recorded := append_recorded j k

end Append

/-- The change of a user's wealth is what the new history entries say. -/
theorem wealth {s s' : State} (j : Journal s s') (u : Address) (t : Bytes32) :
    s'.wealth u t + outgoingSum u t (linesOf j.lines u) =
      s.wealth u t + incomingSum t (linesOf j.lines u) := by
  have hf := j.posts (.free u) t
  have hl := j.posts (.locked u) t
  have hr := j.recorded u t
  simp only [State.wealth]
  omega

end Journal

/-- The amount of token `t` that a call brings in from outside. -/
def Call.credited (call : Call) (t : Bytes32) : ℕ :=
  match call with
  | .creditDeposit _ tokenId amount _ => if tokenId = t then amount.toNat else 0
  | _ => 0

/-- There is a journal that issues the given amounts and retires nothing. -/
def Journaled (issued : Bytes32 → ℕ) (s s' : State) : Prop :=
  ∃ j : Journal s s', (∀ t, inflow j.moves none t = 0) ∧ ∀ t, outflow j.moves none t = issued t

theorem Journaled.quiet {s s' : State} (book : s'.book = s.book)
    (history : s'.history = s.history) : Journaled (fun _ => 0) s s' :=
  ⟨.quiet book history, fun _ => rfl, fun _ => rfl⟩

theorem Journaled.append {s s' s'' : State} (h : Journaled (fun _ => 0) s s')
    (h' : Journaled (fun _ => 0) s' s'') : Journaled (fun _ => 0) s s'' := by
  obtain ⟨j, hin, hout⟩ := h
  obtain ⟨k, kin, kout⟩ := h'
  refine ⟨j.append k, fun t => ?_, fun t => ?_⟩
  · exact (flow_append _ _ _ _ _).trans (congrArg₂ (· + ·) (hin t) (kin t))
  · exact (flow_append _ _ _ _ _).trans (congrArg₂ (· + ·) (hout t) (kout t))

/-- One transfer between two accounts of the ledger. -/
theorem Journaled.transfer {s s' : State} {a b : Account} {t : Bytes32} {n : ℕ} (lines : List Line)
    (posts : Posts [⟨some a, some b, t, n⟩] s.book s'.book)
    (appended : ∀ u, s'.history u = s.history u ++ linesOf lines u)
    (carries : ∀ y ∈ lines, y.entry.Carries t n)
    (users : ∀ u, (a.owner? = some u ∨ b.owner? = some u) ↔ ∃ y ∈ lines, y.user = u)
    (recorded : ∀ u t', (if (b = .free u ∨ b = .locked u) ∧ t = t' then n else 0) +
        outgoingSum u t' (linesOf lines u) =
      (if (a = .free u ∨ a = .locked u) ∧ t = t' then n else 0) +
        incomingSum t' (linesOf lines u)) : Journaled (fun _ => 0) s s' := by
  refine ⟨⟨_, lines, posts, appended, fun x hx u hu => ?_, fun y hy => ?_, fun u t' => ?_⟩,
    fun _ => by simp, fun _ => by simp⟩
  · obtain rfl := List.mem_singleton.mp hx
    obtain ⟨y, hy, hyu⟩ := (users u).mp hu
    exact ⟨y, hy, hyu, carries y hy⟩
  · exact ⟨_, List.mem_singleton_self _, (users y.user).mpr ⟨y, hy, rfl⟩, carries y hy⟩
  have h := recorded u t'
  have split_ends (c : Account) : (if c = .free u ∧ t = t' then n else 0) +
      (if c = .locked u ∧ t = t' then n else 0) =
        if (c = .free u ∨ c = .locked u) ∧ t = t' then n else 0 := by
    cases c <;> simp
  simp only [inflow, outflow, flow_cons, flow_nil, Option.some.injEq, Nat.add_zero, split_ends]
  exact h

theorem Unlock.journaled {u : Address} {l : FundLock} {s s' : State} (h : Unlock m u l s s') :
    Journaled (fun _ => 0) s s' := by
  obtain ⟨b, locks, hb, hl, rfl⟩ := h.moved
  have hdebit : Posts [⟨some (.locked u), none, l.tokenId, l.amount.toNat⟩]
      (s.setBalance u l.tokenId b).book ((s.setBalance u l.tokenId b).setLocks u locks).book :=
    posts_lockDebit fun t => by
      rw [State.activeLocks_setBalance, lockedAmount_perm hl, lockedAmount_cons, Nat.add_comm]
  have hposts := Posts.join (.inr ⟨posts_credit hb, hdebit⟩)
  refine .transfer [⟨u, .withCounterparty m .UnlockLock l.tokenId l.amount l.serviceId⟩]
    hposts ?_ (by simp [withCounterparty_carries])
        (by simp [Account.owner?]) ?_
  · exact fun w => history_appendUserCounterpartyHistory _ _ _ _ _ _ _ _
  · grind

theorem Unlocks.journaled {u : Address} {ls : List FundLock} {s s' : State}
    (h : Unlocks m u ls s s') : Journaled (fun _ => 0) s s' := by
  induction h with
  | nil => exact .quiet rfl rfl
  | cons first _ ih => exact first.journaled.append ih

/-- Every step of the contract has a journal; deposits are the only issue. -/
theorem Step.journaled {call : Call} {s s' : State} {o : Output P} (h : Step P m call s s' o) :
    Journaled call.credited s s' := by
  cases h with
  | setGasPrice => exact .quiet rfl rfl
  | setRoflSignerAddress => exact .quiet rfl rfl
  | generateSweepNativeTransfer => exact .quiet rfl rfl
  | generateSweepERC20Transfer => exact .quiet rfl rfl
  | generateGasFundingTx => exact .quiet rfl rfl
  | @creditDeposit _ beneficiary tokenId depositId amount b _ _ _ _ _ balance =>
    refine ⟨⟨[⟨none, some (.free beneficiary), tokenId, amount.toNat⟩],
      [⟨beneficiary, .deposit m tokenId amount depositId⟩], ?_, ?_, ?_, ?_, ?_⟩, ?_, ?_⟩
    · exact posts_credit (s := { s with processedDeposits := _ }) balance
    · exact fun w => history_appendHistory _ _ _ _ _ _
    · simp [Involves, Account.owner?, deposit_carries]
    · simp [Involves, Account.owner?, deposit_carries]
    · intro u t
      by_cases hu : beneficiary = u <;> by_cases ht : tokenId = t <;> simp [hu, ht]
    · simp
    · simp [Call.credited]
  | requestEmergencyWithdraw => exact .quiet rfl rfl
  | executeEmergencyWithdraw => exact .quiet rfl rfl
  | @createLock _ serviceAddress tokenId amount expiry _ b _ _ a v _ _ _ _ _ _ balance =>
    have hcredit := posts_lockCredit (s := (s.withVerifier v).setBalance a.signer tokenId b)
      (lockedAmount_concat (s.activeLocks a.signer)
        ⟨s.nextLockId, serviceAddress, tokenId, amount, expiry⟩)
    refine .transfer [⟨a.signer, .withCounterparty m .CreateLock tokenId amount serviceAddress⟩]
      (Posts.join (.inl ⟨posts_debit (s := s.withVerifier v) balance, hcredit⟩)) ?_
      (by simp [withCounterparty_carries])
        (by simp [Account.owner?]) ?_
    · exact fun w => history_appendUserCounterpartyHistory _ _ _ _ _ _ _ _
    · grind
  | @modifyLock _ _ amount _ _ b _ _ a v l _ _ _ _ _ found _ _ _ balance added left =>
    have hcredit := posts_lockCredit (s := (s.withVerifier v).setBalance a.signer l.tokenId b)
      (lockedAmount_resized found left rfl added)
    refine .transfer [⟨a.signer, .withCounterparty m .ModifyLock l.tokenId amount l.serviceId⟩]
      (Posts.join (.inl ⟨posts_debit (s := s.withVerifier v) balance, hcredit⟩)) ?_
      (by simp [withCounterparty_carries])
        (by simp [Account.owner?]) ?_
    · exact fun w => history_appendUserCounterpartyHistory _ _ _ _ _ _ _ _
    · grind
  | unlockSingleLock _ unlock => exact unlock.journaled
  | dropEmptyLock _ empty found =>
    refine .quiet (book_setLocks fun t => ?_) rfl
    simp [lockedAmount_perm found, empty]
  | unlockAllExpiredLocks unlocks => exact unlocks.journaled
  | @transferFromLock _ userAddress toAddress _ amount _ b _ _ a v l _ _ _ _ _ _ _ _ found _ taken
      balance left =>
    have hdebit := posts_lockDebit (s := (s.withVerifier v).setBalance toAddress l.tokenId b)
      (lockedAmount_remainder found left taken)
    have hposts := Posts.join (.inr ⟨posts_credit (s := s.withVerifier v) balance, hdebit⟩)
    by_cases hself : toAddress = userAddress
    · subst hself
      refine .transfer [⟨toAddress, .withCounterparty m .TransferFromLockOut l.tokenId amount
        toAddress⟩] (by simpa using hposts) ?_ (by simp [withCounterparty_carries])
        (by simp [Account.owner?]) ?_
      · intro w
        simp [history_appendUserCounterpartyHistory]
      · grind
    · refine .transfer [⟨userAddress, .withCounterparty m .TransferFromLockOut l.tokenId amount
        toAddress⟩, ⟨toAddress, .withCounterparty m .TransferFromLockIn l.tokenId amount
        userAddress⟩] (by simpa [hself] using hposts) ?_ (by simp [withCounterparty_carries])
        (by simp [Account.owner?]) ?_
      · intro w
        simp only [ne_eq, hself, not_false_eq_true, if_true,
          history_appendUserCounterpartyHistory, List.append_assoc, ← linesOf_append]
        rfl
      · grind
  | @transferToLock _ userAddress _ amount _ b _ _ a v l _ _ _ _ _ _ _ found _ balance added left =>
    have hcredit := posts_lockCredit (s := (s.withVerifier v).setBalance l.serviceId l.tokenId b)
      (lockedAmount_resized found left rfl added)
    have hposts := Posts.join (.inl ⟨posts_debit (s := s.withVerifier v) balance, hcredit⟩)
    refine .transfer [⟨l.serviceId, .withCounterparty m .TransferToLockOut l.tokenId amount
      userAddress⟩, ⟨userAddress, .withCounterparty m .TransferToLockIn l.tokenId amount
      l.serviceId⟩] (by simpa using hposts) ?_ (by simp [withCounterparty_carries])
        (by simp [Account.owner?]) ?_
    · intro w
      simp only [history_appendUserCounterpartyHistory, List.append_assoc, ← linesOf_append]
      rfl
    · grind
  | @withdrawFromLock _ s' userAddress toAddress _ amount _ _ _ _ a v l _ locks' _ _ _ _ _ _ found _
      taken left schedules =>
    have hdebit := posts_lockDebit (s := s.withVerifier v) (lockedAmount_remainder found left taken)
    refine .transfer [⟨userAddress, .withCounterparty m .Withdraw l.tokenId amount toAddress⟩]
      (by simpa using Posts.join (.inl ⟨hdebit, posts_queue schedules⟩)) ?_
      (by simp [withCounterparty_carries])
        (by simp [Account.owner?]) ?_
    · intro w
      simp [history_appendUserCounterpartyHistory, schedules.history]
    · grind
  | @transferBalance _ toAddress tokenId amount _ b b' _ a v _ _ _ _ _ debit credit =>
    have hposts := Posts.join (.inl ⟨posts_debit (s := s.withVerifier v) debit,
      posts_credit credit⟩)
    by_cases hself : toAddress = a.signer
    · subst hself
      refine .transfer [⟨a.signer, .withCounterparty m .TransferBalanceOut tokenId amount
        a.signer⟩] (by simpa using hposts) ?_ (by simp [withCounterparty_carries])
        (by simp [Account.owner?]) ?_
      · intro w
        simp [history_appendUserCounterpartyHistory]
      · grind
    · refine .transfer [⟨a.signer, .withCounterparty m .TransferBalanceOut tokenId amount
        toAddress⟩, ⟨toAddress, .withCounterparty m .TransferBalanceIn tokenId amount a.signer⟩]
        (by simpa [hself] using hposts) ?_ (by simp [withCounterparty_carries])
        (by simp [Account.owner?]) ?_
      · intro w
        simp only [ne_eq, hself, not_false_eq_true, if_true,
          history_appendUserCounterpartyHistory, List.append_assoc, ← linesOf_append]
        rfl
      · grind
  | @requestWithdrawal _ s' tokenId amount _ b _ _ a v _ _ _ _ debit schedules =>
    have hdebit := posts_debit (s := s.withVerifier v) debit
    refine .transfer [⟨a.signer, .withCounterparty m .Withdraw tokenId amount a.signer⟩]
      (by simpa using Posts.join (.inl ⟨hdebit, posts_queue schedules⟩)) ?_
      (by simp [withCounterparty_carries])
        (by simp [Account.owner?]) ?_
    · intro w
      simp [history_appendUserCounterpartyHistory, schedules.history]
    · grind
  | resolveWithdrawal entry => exact .quiet (book_setResolved entry) rfl
  | setTokenInfo => exact .quiet rfl rfl

end Privana
