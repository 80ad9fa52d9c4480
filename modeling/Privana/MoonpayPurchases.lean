import Privana.MoonpayRecords

/-! What de-duplication costs. A paid purchase keeps its row exactly if an entry that is admitted for
it comes first under its identifier; a copy that came earlier takes the row with it. -/

namespace Privana
open BigEndian CheckedArithmetic

section MapM
variable {ε α β : Type} {f : α → Except ε β}

theorem mapM_cons_eq_ok {a : α} {as : List α} {bs : List β} :
    (a :: as).mapM f = .ok bs ↔ ∃ b bs', f a = .ok b ∧ as.mapM f = .ok bs' ∧ b :: bs' = bs := by
  simp only [List.mapM_cons, bind_eq_ok, pure_eq_ok, exists_and_left]

theorem exists_mapM_eq_ok {as : List α} :
    (∃ bs, as.mapM f = .ok bs) ↔ ∀ a ∈ as, ∃ b, f a = .ok b := by
  induction as with
  | nil => exact ⟨fun _ a h => (List.not_mem_nil h).elim, fun _ => ⟨[], rfl⟩⟩
  | cons a as ih =>
    constructor
    · rintro ⟨bs, h⟩ c hc
      obtain ⟨b, bs', hb, rest, -⟩ := mapM_cons_eq_ok.mp h
      rcases List.mem_cons.mp hc with rfl | hc
      · exact ⟨b, hb⟩
      · exact ih.mp ⟨bs', rest⟩ c hc
    · intro h
      obtain ⟨b, hb⟩ := h a List.mem_cons_self
      obtain ⟨bs, rest⟩ := ih.mpr fun c hc => h c (List.mem_cons_of_mem _ hc)
      exact ⟨b :: bs, mapM_cons_eq_ok.mpr ⟨b, bs, hb, rest, rfl⟩⟩

theorem mem_mapM {as : List α} {bs : List β} (h : as.mapM f = .ok bs) {b : β} :
    b ∈ bs ↔ ∃ a ∈ as, f a = .ok b := by
  induction as generalizing bs with
  | nil =>
    cases h
    exact ⟨fun h => (List.not_mem_nil h).elim, fun ⟨_, h, _⟩ => (List.not_mem_nil h).elim⟩
  | cons a as ih =>
    obtain ⟨c, bs, hc, rest, rfl⟩ := mapM_cons_eq_ok.mp h
    have head : f a = .ok b ↔ b = c := by rw [hc, Except.ok.injEq, eq_comm]
    simp only [List.mem_cons, ih rest, or_and_right, exists_or, exists_eq_left, head]

end MapM

variable {M : MoonpayPlatform} {user wallet : Text} {transactions : List JsonObject}
  {row record : OnrampRecord}

/-- A row for the same purchase: the same MoonPay id, or the same hash when there is no id. -/
def SamePurchase (record row : OnrampRecord) : Prop :=
  match record.moonpayTransactionId with
  | some (c :: id) => row.moonpayTransactionId = some (c :: id)
  | _ => row.onChainTxHash = record.onChainTxHash

/-- The transaction gets a row of its own. -/
def Admitted (M : MoonpayPlatform) (user wallet : Text) (transaction : JsonObject)
    (record : OnrampRecord) : Prop :=
  moonpayOutcome M user wallet transaction = .ok (.ok record)

/-- Every admitted transaction has a row for its purchase. -/
def KeepsPurchases (M : MoonpayPlatform) (user wallet : Text) (transactions : List JsonObject) :
    Prop :=
  ∀ transaction ∈ transactions, ∀ record, Admitted M user wallet transaction record →
    ∃ rows diagnostics, pendingRecordsFromMoonpayTransactions M
        (dedupeMoonpayTransactions M transactions) user wallet = .ok (rows, diagnostics) ∧
      ∃ row ∈ rows, SamePurchase record row

theorem mem_includedRecords {outcomes : List MoonpayOutcome} :
    row ∈ includedRecords outcomes ↔ .ok row ∈ outcomes := by
  rw [includedRecords, List.mem_mergeSort, List.mem_filterMap]
  constructor
  · rintro ⟨outcome, mem, included⟩
    cases outcome with
    | ok record =>
      cases included
      exact mem
    | error reason => cases included
  · exact fun mem => ⟨_, mem, rfl⟩

/-- The rows are those of the transactions that are admitted, if no other one raises. -/
theorem pendingRecords_iff :
    (∃ rows diagnostics, pendingRecordsFromMoonpayTransactions M transactions user wallet =
        .ok (rows, diagnostics) ∧ ∃ row ∈ rows, SamePurchase record row) ↔
      (∀ t ∈ transactions, ∃ outcome, moonpayOutcome M user wallet t = .ok outcome) ∧
        ∃ t ∈ transactions, ∃ row, Admitted M user wallet t row ∧ SamePurchase record row := by
  rw [← exists_mapM_eq_ok]
  constructor
  · rintro ⟨rows, diagnostics, made, row, hr, same⟩
    obtain ⟨outcomes, judged, kept⟩ := bind_eq_ok.mp made
    cases kept
    obtain ⟨t, ht, admitted⟩ := (mem_mapM judged).mp (mem_includedRecords.mp hr)
    exact ⟨⟨outcomes, judged⟩, t, ht, row, admitted, same⟩
  · rintro ⟨⟨outcomes, judged⟩, t, ht, row, admitted, same⟩
    refine ⟨_, _, bind_eq_ok.mpr ⟨outcomes, judged, rfl⟩, row, ?_, same⟩
    exact mem_includedRecords.mpr ((mem_mapM judged).mpr ⟨t, ht, admitted⟩)

/-- De-duplication keeps the paid purchases exactly if, for each, an entry that is admitted for it
comes first under its identifier, and no entry that comes first makes the conversion raise. -/
theorem dedup_keeps_purchases (M : MoonpayPlatform) (user wallet : Text)
    (transactions : List JsonObject) :
    KeepsPurchases M user wallet transactions ↔
      ∀ transaction ∈ transactions, ∀ record, Admitted M user wallet transaction record →
        (∀ t, FirstOfKey (dedupeKey M) transactions t →
          ∃ outcome, moonpayOutcome M user wallet t = .ok outcome) ∧
        ∃ t, FirstOfKey (dedupeKey M) transactions t ∧
          ∃ row, Admitted M user wallet t row ∧ SamePurchase record row := by
  simp only [KeepsPurchases, pendingRecords_iff, dedupeMoonpayTransactions, mem_dedupeBy]

section Sample

def sampleMoonpay : MoonpayPlatform where
  intents := sampleIntentPlatform sampleIntentDigest
  keyRing := some sampleKeyRing
  now := 1700000060
  str value :=
    match value with
    | .str s => s
    | _ => text "value"
  str_text _ := rfl
  floatIsZero _ := false
  intOfFloat _ := none
  isoTimestamp _ := none

/-- A purchase as MoonPay reports it with a status. -/
def sampleTransaction (status : String) : JsonObject :=
  [(text "id", .str (text "moonpay-1")),
    (text "externalTransactionId", .str (signedToken (sampleIntentPlatform sampleIntentDigest)
      sampleKeyRing.currentKey (sampleIntentPayload (hexDigits (word sampleTokenId))))),
    (text "walletAddress", .str sampleIntentWallet), (text "status", .str (text status)),
    (text "cryptoTransactionId", .str (text "0xabcd"))]

theorem sampleTransaction_outcomes :
    (∃ record, Admitted sampleMoonpay sampleIntentUser sampleIntentWallet
      (sampleTransaction "completed") record) ∧
    moonpayOutcome sampleMoonpay sampleIntentUser sampleIntentWallet (sampleTransaction "pending") =
      .ok (.error (text "not_completed")) ∧
    dedupeMoonpayTransactions sampleMoonpay
      [sampleTransaction "pending", sampleTransaction "completed"] =
        [sampleTransaction "pending"] := by
  refine ⟨?_, by decide +kernel, ?_⟩
  · have included : (moonpayOutcome sampleMoonpay sampleIntentUser sampleIntentWallet
        (sampleTransaction "completed")).toOption.any (·.toOption.isSome) = true := by
      decide +kernel
    unfold Admitted
    revert included
    cases moonpayOutcome sampleMoonpay sampleIntentUser sampleIntentWallet
        (sampleTransaction "completed") with
    | error e => exact fun included => (by cases included)
    | ok outcome =>
      cases outcome with
      | error reason => exact fun included => (by cases included)
      | ok record => exact fun _ => ⟨record, rfl⟩
  · have key (status : String) :
        dedupeKey sampleMoonpay (sampleTransaction status) = some (text "moonpay-1") := rfl
    simp [dedupeMoonpayTransactions, dedupeBy, dedupeFrom, key]

/-- The completed purchase goes with the older copy of it. -/
theorem dedup_loses_purchase : ¬ ∀ M user wallet transactions,
    KeepsPurchases M user wallet transactions := by
  intro claim
  obtain ⟨⟨record, admitted⟩, pending, deduped⟩ := sampleTransaction_outcomes
  obtain ⟨rows, diagnostics, made, row, hr, -⟩ := claim sampleMoonpay sampleIntentUser
    sampleIntentWallet [sampleTransaction "pending", sampleTransaction "completed"]
    (sampleTransaction "completed") (by simp) record admitted
  rw [deduped] at made
  obtain ⟨outcomes, judged, kept⟩ := bind_eq_ok.mp made
  cases kept
  obtain ⟨t, ht, admitted'⟩ := (mem_mapM judged).mp (mem_includedRecords.mp hr)
  rw [List.mem_singleton.mp ht, pending] at admitted'
  cases admitted'

end Sample

end Privana
