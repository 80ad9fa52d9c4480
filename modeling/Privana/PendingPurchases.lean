import Privana.ListWalk
import Privana.MoonpayPurchases
import Privana.PendingOnramps

/-! What the listing of pending purchases shows: rows of the caller alone, each once and in order,
and every completed purchase that a lookup which succeeded has on record. -/

namespace Privana
open BigEndian CheckedArithmetic Descending SkipPaging

section Rows
variable {S : OnrampService} {user deposit : Text} {row : OnrampRecord}

theorem mapError_eq_ok {ε ε' α : Type} {f : ε → ε'} {x : Except ε α} {a : α} :
    x.mapError f = .ok a ↔ x = .ok a := by
  cases x <;> simp [Except.mapError]

theorem mem_toOption {outcomes : List MoonpayOutcome} :
    row ∈ outcomes.filterMap Except.toOption ↔ .ok row ∈ outcomes := by
  rw [List.mem_filterMap]
  constructor
  · rintro ⟨outcome, mem, included⟩
    cases outcome with
    | ok record =>
      cases included
      exact mem
    | error reason => cases included
  · exact fun mem => ⟨_, mem, rfl⟩

theorem mem_moonpayRows {transactions : List JsonObject} {rows : List OnrampRecord}
    {diagnostics : MoonpayDiagnostics}
    (made : S.moonpayRows user deposit transactions = .ok (rows, diagnostics)) :
    row ∈ rows ↔
      ∃ t ∈ transactions, Admitted S.platform.toMoonpayPlatform user deposit t row := by
  unfold OnrampService.moonpayRows at made
  split at made
  · next whole read =>
    cases made
    obtain ⟨outcomes, judged, kept⟩ := bind_eq_ok.mp read
    cases kept
    rw [mem_includedRecords, mem_mapM judged]
    exact Iff.rfl
  · cases made
  · cases made

theorem mem_transakRows {asset : OnrampAsset} {transactionId : Option Text}
    {orders : List JsonObject} {rows : List OnrampRecord} {diagnostics : MoonpayDiagnostics}
    (made : S.transakRows user deposit asset transactionId orders = .ok (rows, diagnostics)) :
    row ∈ rows ↔ ∃ order ∈ orders, transakOrderToOnrampRecord S.platform
      (asset.filter user deposit transactionId) order = .ok (.ok row) := by
  obtain ⟨outcomes, judged, kept⟩ := bind_eq_ok.mp (mapError_eq_ok.mp made)
  cases kept
  rw [mem_descending, mem_toOption, mem_mapM judged]

end Rows

section Listed
variable {rows : List OnrampRecord} {row : OnrampRecord}

theorem mem_of_mem_dedupeOnrampRows (mem : row ∈ dedupeOnrampRows rows) : row ∈ rows :=
  (dedupeFrom_sublist [] rows).subset ((mem_descending rowOrder).mp mem)

theorem dedupeOnrampRows_ordered :
    (dedupeOnrampRows rows).Pairwise fun a b => rowOrder b ≤ rowOrder a :=
  descending_pairwise rowOrder _

theorem dedupeOnrampRows_apart :
    (dedupeOnrampRows rows).Pairwise fun a b => ∀ k, rowKey a = some k → rowKey b ≠ some k :=
  (descending_perm rowOrder (dedupeBy rowKey rows)).symm.pairwise (dedupeFrom_apart [] rows)
    fun apart k again same => apart k same again

/-- A row is shown, or another one for the same purchase. -/
theorem exists_mem_dedupeOnrampRows (mem : row ∈ rows) :
    ∃ listed ∈ dedupeOnrampRows rows, rowKey listed = rowKey row := by
  cases keyed : rowKey row with
  | none =>
    refine ⟨row, (mem_descending rowOrder).mpr (mem_dedupeBy_of_alone mem ?_), keyed⟩
    intro _ _ k same
    cases keyed.symm.trans same
  | some k =>
    obtain ⟨listed, left, same⟩ := exists_mem_dedupeBy mem keyed
    exact ⟨listed, (mem_descending rowOrder).mpr left, same⟩

end Listed

/-- A row of a completed purchase that the user's own signed intent stands for, to the deposit
address; and an order of Transak is one for the configured asset. -/
structure OwnRow (S : OnrampService) (user deposit : Text) (row : OnrampRecord) : Prop where
  signed : ∃ intent, decodeIntent S.platform.intents S.platform.keyRing S.platform.now true
      row.transactionId = .ok intent ∧
    S.platform.intents.toChecksumAddress (text "0x" ++ intent.u) =
      S.platform.intents.toChecksumAddress user ∧
    row.walletAddress = S.platform.intents.toChecksumAddress (text "0x" ++ intent.w) ∧
    row.provider = intent.p ∧ row.chainId = intent.c ∧
    row.tokenId = text "0x" ++ S.platform.intents.lower intent.t ∧
    row.providerAssetCode = S.platform.intents.lower intent.a
  wallet : row.walletAddress = S.platform.intents.toChecksumAddress deposit
  completed : row.status = text "completed"
  asset : row.provider = text "transak" → ∃ attempt asset, S.findAsset attempt = .ok asset ∧
    row.chainId = asset.config.chainId ∧
    row.tokenId = S.platform.intents.lower asset.tokenId ∧
    row.providerAssetCode = asset.config.canonicalAssetCode S.platform

section Own
variable {S : OnrampService} {user deposit : Text} {row : OnrampRecord}

theorem checkOrderIntent_eq_ok {M : OrderPlatform} {f : OrderFilter} {intent : IntentPayload}
    {u : Unit} (h : checkOrderIntent M f intent = .ok u) :
    intent.p = text "transak" ∧
      M.intents.toChecksumAddress (text "0x" ++ intent.u) =
        M.intents.toChecksumAddress f.userAddress ∧
      M.intents.toChecksumAddress (text "0x" ++ intent.w) =
        M.intents.toChecksumAddress f.walletAddress ∧
      intent.c = f.config.chainId ∧
      text "0x" ++ M.intents.lower intent.t = M.intents.lower f.tokenId ∧
      M.intents.lower intent.a = f.config.canonicalAssetCode M := by
  simpa [checkOrderIntent, bind_eq_ok, revertIf_eq_ok] using h

theorem transakOrder_own {asset : OnrampAsset} {attempt : ℕ}
    (found : S.findAsset attempt = .ok asset) {transactionId : Option Text} {order : JsonObject}
    (made : transakOrderToOnrampRecord S.platform
      (asset.filter user deposit transactionId) order = .ok (.ok row)) :
    OwnRow S user deposit row := by
  unfold transakOrderToOnrampRecord at made
  split at made
  · cases made
  · cases made
  · next providerTransactionId signedId _ _ =>
    split_ifs at made with other
    · cases made
    split at made
    · cases made
    · cases made
    · next intent decoded =>
      obtain ⟨_, agrees, kept⟩ := bind_eq_ok.mp (Except.ok.inj made)
      obtain ⟨onChainTxHash, _, kept⟩ := bind_eq_ok.mp kept
      cases kept
      obtain ⟨provider, owner, wallet, chain, token, code⟩ := checkOrderIntent_eq_ok agrees
      exact
        { signed := ⟨intent, decoded, owner, rfl, rfl, rfl, rfl, rfl⟩
          wallet
          completed := rfl
          asset := fun _ => ⟨attempt, asset, found, chain, token, code⟩ }

theorem excluded_iff {c : Prop} [Decidable c] {reason : Text}
    {rest : Except MoonpayFault MoonpayOutcome} :
    (if c then .ok (.error reason) else rest) = .ok (.ok row) ↔ ¬ c ∧ rest = .ok (.ok row) := by
  split <;> simp [*]

theorem moonpay_own
    (checksums : ∀ s, S.platform.intents.toChecksumAddress
      (S.platform.intents.toChecksumAddress s) = S.platform.intents.toChecksumAddress s)
    {t : JsonObject} (admitted : Admitted S.platform.toMoonpayPlatform user deposit t row) :
    OwnRow S user deposit row := by
  unfold Admitted moonpayOutcome moonpayTransactionToOnrampRecord at admitted
  dsimp only at admitted
  split at admitted
  · cases admitted
  · cases admitted
  · next transactionId _ _ =>
    split at admitted
    · cases admitted
    · cases admitted
    · next intent decoded =>
      obtain ⟨payload, read, known⟩ := bind_eq_ok.mp decoded
      split_ifs at known with other
      cases known
      rw [not_not] at other
      unfold intentRecord at admitted
      dsimp only at admitted
      obtain ⟨owner, admitted⟩ := excluded_iff.mp admitted
      obtain ⟨wallet, admitted⟩ := excluded_iff.mp admitted
      obtain ⟨-, admitted⟩ := excluded_iff.mp admitted
      obtain ⟨-, admitted⟩ := excluded_iff.mp admitted
      rw [not_not, checksums] at owner wallet
      split at admitted
      · cases admitted
      · next hash _ =>
        obtain ⟨-, admitted⟩ := excluded_iff.mp admitted
        rw [← bind_pure_comp] at admitted
        obtain ⟨record, made, same⟩ := bind_eq_ok.mp admitted
        cases same
        obtain ⟨createdAt, -, made⟩ := bind_eq_ok.mp made
        obtain ⟨updatedAt, -, made⟩ := bind_eq_ok.mp made
        cases made
        exact
          { signed := ⟨intent, read, owner, rfl, rfl, rfl, rfl, rfl⟩
            wallet
            completed := rfl
            asset := fun same => by
              rw [other] at same
              cases same }

end Own

/-- An intent that the service has signed, with what it says. -/
def Decoded (S : OnrampService) (x : Text × IntentPayload) : Prop :=
  decodeIntent S.platform.intents S.platform.keyRing S.platform.now true x.1 = .ok x.2

namespace OnrampLookup
variable (S : OnrampService) (user deposit : Text)

/-- The lookup that a signed intent asks for. -/
def ForIntent (intentId : Text) : OnrampLookup → Prop
  | .moonpayIntent i => i = intentId ∧ ∃ intent, Decoded S (i, intent) ∧ intent.p = text "moonpay"
  | .transakIntent asset i intent => i = intentId ∧ Decoded S (i, intent) ∧
      intent.p = text "transak" ∧ ∃ attempt, asset = S.findAsset attempt
  | _ => False

/-- The lookup of the wallet, with the provider that is configured. -/
def ForWallet : OnrampLookup → Prop
  | .moonpayWallet => S.onrampProvider = some (text "moonpay")
  | .transakWallet asset => S.onrampProvider = some (text "transak") ∧
      ∃ attempt, asset = S.findAsset attempt
  | _ => False

/-- A completed order on the provider's books, within the pages that are read. -/
def OrderOnRecord (filter : OrderFilter) (pages : ℕ)
    (page : ℕ → Except TransakError (List JsonObject × Option ℕ)) (row : OnrampRecord) : Prop :=
  ∃ book order, OnBooks transakOrderPageLimit pages page book order ∧
    transakOrderToOnrampRecord S.platform filter order = .ok (.ok row)

/-- A completed purchase that the provider has when the lookup is made. The wallet's transactions
of MoonPay are de-duplicated, so that one counts if it is read first under its identifier. -/
def OnRecord : OnrampLookup → OnrampRecord → Prop
  | .moonpayIntent intentId, row => ∃ transactions,
      S.fetchMoonpayBuyTransactionsByExternalId intentId = .ok transactions ∧
      ∃ t ∈ transactions, Admitted S.platform.toMoonpayPlatform user deposit t row
  | .transakIntent asset intentId intent, row => ∀ found, asset = .ok found →
      OrderOnRecord S (found.filter user deposit (some intentId)) 1
        (getOrdersPage S.partner found.config (text "filter[partnerOrderId]", intentId)
          (some (exactOrderDateBounds S.platform intent.iat S.now)) true) row
  | .moonpayWallet, row => ∃ book t,
      OnBooks moonpayTransactionPageLimit moonpayTransactionMaxPages (S.moonpayPage user) book t ∧
      (∀ transactions, S.fetchMoonpayBuyTransactions user = .ok transactions → t ∈ transactions →
        FirstOfKey (dedupeKey S.platform.toMoonpayPlatform) transactions t) ∧
      Admitted S.platform.toMoonpayPlatform user deposit t row
  | .transakWallet asset, row => ∀ found, asset = .ok found →
      OrderOnRecord S (found.filter user deposit none) transakOrderMaxPages
        (getOrdersPage S.partner found.config (walletFilter S.platform deposit) none false) row

variable {S user deposit} {lookup : OnrampLookup} {rows : List OnrampRecord} {row : OnrampRecord}
  {diagnostics : MoonpayDiagnostics}

theorem OnRecord.shown (held : lookup.OnRecord S user deposit row)
    (ran : S.runLookup user deposit lookup = .ok (rows, diagnostics)) : row ∈ rows := by
  cases lookup with
  | moonpayIntent intentId =>
    obtain ⟨transactions, fetched, made⟩ := bind_eq_ok.mp ran
    obtain ⟨transactions', fetched', t, ht, admitted⟩ := held
    cases fetched.symm.trans fetched'
    exact (mem_moonpayRows made).mpr ⟨t, ht, admitted⟩
  | transakIntent asset intentId intent =>
    obtain ⟨found, has, ran⟩ := bind_eq_ok.mp ran
    obtain ⟨_, -, ran⟩ := bind_eq_ok.mp ran
    obtain ⟨orders, read, made⟩ := bind_eq_ok.mp ran
    obtain ⟨book, order, held, admitted⟩ := held found has
    exact (mem_transakRows made).mpr ⟨order, held.read (mapError_eq_ok.mp read), admitted⟩
  | moonpayWallet =>
    obtain ⟨transactions, fetched, made⟩ := bind_eq_ok.mp ran
    obtain ⟨_, -, read⟩ := bind_eq_ok.mp fetched
    obtain ⟨book, t, held, first, admitted⟩ := held
    have kept := mem_dedupeBy.mpr (first transactions fetched (held.read read))
    exact (mem_moonpayRows made).mpr ⟨t, kept, admitted⟩
  | transakWallet asset =>
    obtain ⟨found, has, ran⟩ := bind_eq_ok.mp ran
    obtain ⟨orders, read, made⟩ := bind_eq_ok.mp ran
    obtain ⟨book, order, held, admitted⟩ := held found has
    exact (mem_transakRows made).mpr ⟨order, held.read (mapError_eq_ok.mp read), admitted⟩

/-- What a lookup finds is the caller's own. -/
theorem own
    (checksums : ∀ s, S.platform.intents.toChecksumAddress
      (S.platform.intents.toChecksumAddress s) = S.platform.intents.toChecksumAddress s)
    (made : (∃ intentId, lookup.ForIntent S intentId) ∨ lookup.ForWallet S)
    (ran : S.runLookup user deposit lookup = .ok (rows, diagnostics)) (mem : row ∈ rows) :
    OwnRow S user deposit row := by
  cases lookup with
  | moonpayIntent intentId =>
    obtain ⟨transactions, -, ran⟩ := bind_eq_ok.mp ran
    obtain ⟨t, -, admitted⟩ := (mem_moonpayRows ran).mp mem
    exact moonpay_own checksums admitted
  | transakIntent asset intentId intent =>
    obtain ⟨found, has, ran⟩ := bind_eq_ok.mp ran
    obtain ⟨_, -, ran⟩ := bind_eq_ok.mp ran
    obtain ⟨orders, -, ran⟩ := bind_eq_ok.mp ran
    obtain ⟨order, -, admitted⟩ := (mem_transakRows ran).mp mem
    rcases made with ⟨_, -, -, -, attempt, rfl⟩ | none
    · exact transakOrder_own has admitted
    · cases none
  | moonpayWallet =>
    obtain ⟨transactions, -, ran⟩ := bind_eq_ok.mp ran
    obtain ⟨t, -, admitted⟩ := (mem_moonpayRows ran).mp mem
    exact moonpay_own checksums admitted
  | transakWallet asset =>
    obtain ⟨found, has, ran⟩ := bind_eq_ok.mp ran
    obtain ⟨orders, -, ran⟩ := bind_eq_ok.mp ran
    obtain ⟨order, -, admitted⟩ := (mem_transakRows ran).mp mem
    rcases made with ⟨_, none⟩ | ⟨-, attempt, rfl⟩
    · cases none
    · exact transakOrder_own has admitted

end OnrampLookup

section Lookups
variable {S : OnrampService} {user deposit : Text} {s t : ExactLookups} {x : Text × IntentPayload}
  {visited : List (Text × IntentPayload)}

/-- The diagnostics are those of a lookup for an intent, whose rows are among some. -/
def ReportOf (S : OnrampService) (user deposit : Text) (rows : List OnrampRecord) (intentId : Text)
    (d : LookupDiagnostics) : Prop :=
  ∃ lookup : OnrampLookup, lookup.ForIntent S intentId ∧
    d.outcome = (S.runLookup user deposit lookup).map Prod.snd ∧
    ∀ found diagnostics, S.runLookup user deposit lookup = .ok (found, diagnostics) → found ⊆ rows

/-- What the lookups of some intents have come to. -/
structure Explored (S : OnrampService) (user deposit : Text)
    (visited : List (Text × IntentPayload)) (s : ExactLookups) : Prop where
  asset : ∀ asset ∈ s.asset, ∃ attempt, S.findAsset attempt = .ok asset
  own : ∀ row ∈ s.rows, OwnRow S user deposit row
  reports : List.Forall₂ (fun x d => ReportOf S user deposit s.rows x.1 d) visited s.diagnostics
  succeeded : s.succeeded = s.diagnostics.any fun d => d.outcome.isOk

theorem Explored.currentAsset (h : Explored S user deposit visited s) :
    Explored S user deposit visited (S.currentAsset s).2 ∧
      ∃ attempt, (S.currentAsset s).1 = S.findAsset attempt := by
  unfold OnrampService.currentAsset
  split
  · next asset known =>
    obtain ⟨attempt, found⟩ := h.asset asset known
    exact ⟨h, attempt, found.symm⟩
  · split
    · next asset found =>
      refine ⟨{ h with asset := fun a same => ?_ }, s.attempts, found.symm⟩
      cases same
      exact ⟨s.attempts, found⟩
    · next fault lacks => exact ⟨{ h with asset := h.asset }, s.attempts, lacks.symm⟩

theorem ReportOf.mono {rows rows' : List OnrampRecord} {intentId : Text} {d : LookupDiagnostics}
    (h : ReportOf S user deposit rows intentId d) (sub : rows ⊆ rows') :
    ReportOf S user deposit rows' intentId d := by
  obtain ⟨lookup, asked, same, shown⟩ := h
  exact ⟨lookup, asked, same, fun found diagnostics ran =>
    List.Subset.trans (shown found diagnostics ran) sub⟩

theorem Explored.record
    (checksums : ∀ s, S.platform.intents.toChecksumAddress
      (S.platform.intents.toChecksumAddress s) = S.platform.intents.toChecksumAddress s)
    (h : Explored S user deposit visited s) (lookup : OnrampLookup)
    (asked : lookup.ForIntent S x.1) {provider : Text}
    (recorded : OnrampService.recordExact s provider (S.runLookup user deposit lookup) = .ok t) :
    Explored S user deposit (visited ++ [x]) t := by
  unfold OnrampService.recordExact at recorded
  split at recorded
  · next rows diagnostics ran =>
    cases recorded
    have old : List.Forall₂ (fun x d => ReportOf S user deposit (s.rows ++ rows) x.1 d) visited
        s.diagnostics :=
      h.reports.imp fun _ _ known => known.mono (List.subset_append_left _ _)
    exact
      { asset := h.asset
        own := fun row mem => (List.mem_append.mp mem).elim (h.own row)
          (OnrampLookup.own checksums (.inl ⟨x.1, asked⟩) ran)
        reports := List.rel_append old (.cons ⟨lookup, asked, by rw [ran]; rfl,
          fun found _ again => by
            cases ran.symm.trans again
            exact List.subset_append_right _ _⟩ .nil)
        succeeded := by simp [Except.isOk, Except.toBool] }
  · next fault ran =>
    split_ifs at recorded with caught
    cases recorded
    exact
      { asset := h.asset
        own := h.own
        reports := List.rel_append h.reports (.cons ⟨lookup, asked, by rw [ran]; rfl,
          fun _ _ again => by cases ran.symm.trans again⟩ .nil)
        succeeded := by simp [h.succeeded, Except.isOk, Except.toBool] }

/-- One intent is looked up with its provider. -/
theorem Explored.step
    (checksums : ∀ s, S.platform.intents.toChecksumAddress
      (S.platform.intents.toChecksumAddress s) = S.platform.intents.toChecksumAddress s)
    (h : Explored S user deposit visited s) (decoded : Decoded S x)
    (looked : S.exactLookup user deposit s x = .ok t) :
    Explored S user deposit (visited ++ [x]) t := by
  unfold OnrampService.exactLookup at looked
  split_ifs at looked with moonpay transak
  · exact h.record checksums (.moonpayIntent x.1) ⟨rfl, x.2, decoded, moonpay⟩ looked
  · obtain ⟨kept, attempt, found⟩ := h.currentAsset
    exact kept.record checksums (.transakIntent (S.currentAsset s).1 x.1 x.2)
      ⟨rfl, decoded, transak, attempt, found⟩ looked
  · obtain ⟨keys, key, -, -, -, valid, -⟩ := signedToken_of_decodeIntent decoded
    rcases List.mem_pair.mp (validatePayload_members valid).2.p with same | same
    · exact absurd same moonpay
    · exact absurd same transak

theorem recordExact_error {provider : Text} {found : LookupRows} {fault : OnrampFault}
    (failed : OnrampService.recordExact s provider found = .error fault) :
    fault.isOnRampError = false := by
  unfold OnrampService.recordExact at failed
  split at failed
  · cases failed
  · split_ifs at failed with caught
    cases failed
    exact Bool.not_eq_true _ ▸ caught

/-- The lookups of intents end a request only by an exception of another kind. -/
theorem exactLookup_error {fault : OnrampFault}
    (failed : S.exactLookup user deposit s x = .error fault) : fault.isOnRampError = false := by
  unfold OnrampService.exactLookup at failed
  split_ifs at failed
  · exact recordExact_error failed
  · exact recordExact_error failed

theorem foldlM_exactLookup_error {intents : List (Text × IntentPayload)} {fault : OnrampFault}
    (failed : intents.foldlM (S.exactLookup user deposit) s = .error fault) :
    fault.isOnRampError = false := by
  induction intents generalizing s with
  | nil => cases failed
  | cons x intents ih =>
    rw [List.foldlM_cons] at failed
    cases looked : S.exactLookup user deposit s x with
    | error e =>
      rw [looked] at failed
      cases failed
      exact exactLookup_error looked
    | ok t =>
      rw [looked] at failed
      exact ih failed

theorem Explored.walk
    (checksums : ∀ s, S.platform.intents.toChecksumAddress
      (S.platform.intents.toChecksumAddress s) = S.platform.intents.toChecksumAddress s)
    {intents : List (Text × IntentPayload)} (decoded : ∀ x ∈ intents, Decoded S x)
    (walked : intents.foldlM (S.exactLookup user deposit) ⟨[], [], false, none, 0⟩ = .ok s) :
    Explored S user deposit intents s := by
  have start : Explored S user deposit [] ⟨[], [], false, none, 0⟩ :=
    { asset := fun _ none => by cases none
      own := fun _ none => by cases none
      reports := .nil
      succeeded := rfl }
  have kept := @ListWalk.walk_keeps _ _ _ (S.exactLookup user deposit) (fun visited waiting s =>
    Explored S user deposit visited s ∧ ∀ x ∈ waiting, Decoded S x) ?_ intents [] [] _ s
    ⟨start, by rwa [List.append_nil]⟩ walked
  · exact kept.1
  · intro visited x waiting s t ⟨h, decoded⟩ looked
    exact ⟨h.step checksums (decoded x List.mem_cons_self) looked,
      fun y mem => decoded y (List.mem_cons_of_mem _ mem)⟩

theorem validatedIntent_eq_ok {intentId : Text}
    (valid : S.validatedIntent user deposit intentId = .ok x) : x.1 = intentId ∧ Decoded S x := by
  obtain ⟨intent, decoded, valid⟩ := bind_eq_ok.mp valid
  obtain ⟨_, -, valid⟩ := bind_eq_ok.mp valid
  obtain ⟨_, -, valid⟩ := bind_eq_ok.mp valid
  cases valid
  exact ⟨rfl, mapError_eq_ok.mp decoded⟩

theorem mapM_validatedIntent {intentIds : List Text} {intents : List (Text × IntentPayload)}
    (valid : intentIds.mapM (S.validatedIntent user deposit) = .ok intents) :
    intents.map Prod.fst = intentIds ∧ ∀ x ∈ intents, Decoded S x := by
  constructor
  · induction intentIds generalizing intents with
    | nil =>
      cases valid
      rfl
    | cons intentId intentIds ih =>
      obtain ⟨x, intents, first, rest, rfl⟩ := mapM_cons_eq_ok.mp valid
      rw [List.map_cons, ih rest, (validatedIntent_eq_ok first).1]
  · intro x mem
    obtain ⟨intentId, -, valid⟩ := (mem_mapM valid).mp mem
    exact (validatedIntent_eq_ok valid).2

theorem configuredProvider_eq_ok {provider : Text} (h : S.configuredProvider = .ok provider) :
    S.onrampProvider = some provider ∧ provider ∈ intentProviders := by
  unfold OnrampService.configuredProvider at h
  split at h
  · next configured same =>
    split_ifs at h with known
    cases h
    exact ⟨same, List.contains_iff_mem.mp known⟩
  · cases h

theorem Explored.walletLookup (h : Explored S user deposit visited s) {provider : Text}
    (configured : S.configuredProvider = .ok provider) :
    (S.walletLookup s provider).ForWallet S := by
  obtain ⟨same, known⟩ := configuredProvider_eq_ok configured
  unfold OnrampService.walletLookup
  split_ifs with moonpay
  · rw [moonpay] at same
    exact same
  · rcases List.mem_pair.mp known with moonpay' | transak
    · exact absurd moonpay' moonpay
    · rw [transak] at same
      exact ⟨same, h.currentAsset.2⟩

end Lookups

/-- The diagnostics of a lookup; where it succeeds, whatever it has on record is listed. -/
def Shows (S : OnrampService) (user deposit : Text) (pending : List OnrampRecord)
    (d : LookupDiagnostics) (lookup : OnrampLookup) : Prop :=
  d.outcome = (S.runLookup user deposit lookup).map Prod.snd ∧
    (d.outcome.isOk = true → ∀ row, lookup.OnRecord S user deposit row →
      ∃ listed ∈ pending, rowKey listed = rowKey row)

/-- The rows are the caller's own, one for each purchase and in order, and leave out nothing that
a lookup which succeeded has on record. -/
structure ListsPurchases (S : OnrampService) (user deposit : Text) (intentIds : List Text)
    (response : PendingOnramps) : Prop where
  own : ∀ row ∈ response.pending, OwnRow S user deposit row
  apart : response.pending.Pairwise fun a b => ∀ k, rowKey a = some k → rowKey b ≠ some k
  ordered : response.pending.Pairwise fun a b => rowOrder b ≤ rowOrder a
  exact_ : List.Forall₂ (fun intentId d => ∃ lookup : OnrampLookup, lookup.ForIntent S intentId ∧
    Shows S user deposit response.pending d lookup) (dedupeBy some intentIds) response.exactLookups
  wallet : ∃ lookup : OnrampLookup, lookup.ForWallet S ∧
    Shows S user deposit response.pending response.walletLookup lookup
  succeeded : response.walletLookup.outcome.isOk = true ∨
    ∃ d ∈ response.exactLookups, d.outcome.isOk = true

/-- No lookup of the wallet or of an intent has succeeded. -/
def NothingFound (S : OnrampService) (user deposit : Text) (intentIds : List Text)
    (fault : OnrampFault) : Prop :=
  (∃ lookup : OnrampLookup, lookup.ForWallet S ∧ S.runLookup user deposit lookup = .error fault) ∧
    ∀ intentId ∈ intentIds, ∃ lookup : OnrampLookup, lookup.ForIntent S intentId ∧
      ∃ e, S.runLookup user deposit lookup = .error e

section Conclusion
variable {S : OnrampService} {user deposit : Text} {s : ExactLookups} {intentIds : List Text}
  {rows : List OnrampRecord} {d : LookupDiagnostics} {lookup : OnrampLookup}

theorem shows_of_subset (same : d.outcome = (S.runLookup user deposit lookup).map Prod.snd)
    (shown : ∀ found diagnostics, S.runLookup user deposit lookup = .ok (found, diagnostics) →
      found ⊆ rows) : Shows S user deposit (dedupeOnrampRows rows) d lookup := by
  refine ⟨same, fun succeeded row held => ?_⟩
  cases ran : S.runLookup user deposit lookup with
  | error fault =>
    rw [same, ran] at succeeded
    cases succeeded
  | ok found =>
    exact exists_mem_dedupeOnrampRows (shown found.1 found.2 ran (held.shown ran))

theorem ReportOf.shows {intentId : Text} (h : ReportOf S user deposit rows intentId d) :
    ∃ lookup : OnrampLookup, lookup.ForIntent S intentId ∧
      Shows S user deposit (dedupeOnrampRows rows) d lookup := by
  obtain ⟨lookup, asked, same, shown⟩ := h
  exact ⟨lookup, asked, shows_of_subset same shown⟩

theorem Explored.concluded {intents : List (Text × IntentPayload)}
    (checksums : ∀ s, S.platform.intents.toChecksumAddress
      (S.platform.intents.toChecksumAddress s) = S.platform.intents.toChecksumAddress s)
    (h : Explored S user deposit intents s) (same : intents.map Prod.fst = dedupeBy some intentIds)
    {provider : Text} (wallet : lookup.ForWallet S) {response : PendingOnramps}
    (concluded : OnrampService.concludeListing s provider (S.runLookup user deposit lookup) =
      .ok response) : ListsPurchases S user deposit intentIds response := by
  have reports {rows : List OnrampRecord} (sub : s.rows ⊆ rows) :
      List.Forall₂ (fun intentId d => ∃ lookup : OnrampLookup, lookup.ForIntent S intentId ∧
        Shows S user deposit (dedupeOnrampRows rows) d lookup) (dedupeBy some intentIds)
        s.diagnostics := by
    rw [← same]
    exact List.forall₂_map_left_iff.mpr (h.reports.imp fun _ _ known => (known.mono sub).shows)
  unfold OnrampService.concludeListing at concluded
  split at concluded
  · next rows diagnostics ran =>
    cases concluded
    exact
      { own := fun row mem => (List.mem_append.mp (mem_of_mem_dedupeOnrampRows mem)).elim
          (h.own row) (OnrampLookup.own checksums (.inr wallet) ran)
        apart := dedupeOnrampRows_apart
        ordered := dedupeOnrampRows_ordered
        exact_ := reports (List.subset_append_left _ _)
        wallet := ⟨lookup, wallet, shows_of_subset (by rw [ran]; rfl) fun found _ again => by
          cases ran.symm.trans again
          exact List.subset_append_right _ _⟩
        succeeded := .inl rfl }
  · next fault ran =>
    split_ifs at concluded with caught
    cases concluded
    have some_ := (Bool.and_eq_true_iff.mp caught).2
    rw [h.succeeded, List.any_eq_true] at some_
    exact
      { own := fun row mem => h.own row (mem_of_mem_dedupeOnrampRows mem)
        apart := dedupeOnrampRows_apart
        ordered := dedupeOnrampRows_ordered
        exact_ := reports (List.Subset.refl _)
        wallet := ⟨lookup, wallet, shows_of_subset (by rw [ran]; rfl) fun found _ again => by
          cases ran.symm.trans again⟩
        succeeded := .inr some_ }

theorem exists_of_forall₂ {α β : Type} {r : α → β → Prop} {as : List α} {bs : List β}
    (h : List.Forall₂ r as bs) {a : α} (mem : a ∈ as) : ∃ b ∈ bs, r a b := by
  induction h with
  | nil => cases mem
  | @cons c b as bs related _ ih =>
    rcases List.mem_cons.mp mem with rfl | mem
    · exact ⟨b, List.mem_cons_self, related⟩
    · obtain ⟨b', hb, related⟩ := ih mem
      exact ⟨b', List.mem_cons_of_mem _ hb, related⟩

theorem Explored.gaveUp {intents : List (Text × IntentPayload)}
    (h : Explored S user deposit intents s) (same : intents.map Prod.fst = dedupeBy some intentIds)
    {provider : Text} (wallet : lookup.ForWallet S) {fault : OnrampFault}
    (kind : fault.isOnRampError = true)
    (failed : OnrampService.concludeListing s provider (S.runLookup user deposit lookup) =
      .error fault) : NothingFound S user deposit intentIds fault := by
  unfold OnrampService.concludeListing at failed
  split at failed
  · cases failed
  · next e ran =>
    split_ifs at failed with caught
    cases failed
    refine ⟨⟨lookup, wallet, ran⟩, fun intentId mem => ?_⟩
    have none : s.succeeded = false := by
      rw [kind, Bool.true_and] at caught
      exact Bool.not_eq_true _ ▸ caught
    obtain ⟨_, left, key⟩ : ∃ b ∈ dedupeBy some intentIds, some b = some intentId :=
      exists_mem_dedupeBy mem rfl
    cases key
    rw [← same] at left
    obtain ⟨x, hx, rfl⟩ := List.mem_map.mp left
    obtain ⟨d, hd, lookup, asked, outcome, -⟩ := exists_of_forall₂ h.reports hx
    refine ⟨lookup, asked, ?_⟩
    cases ran : S.runLookup user deposit lookup with
    | error e => exact ⟨e, rfl⟩
    | ok found =>
      rw [h.succeeded, List.any_eq_false] at none
      rw [ran] at outcome
      exact absurd (outcome ▸ rfl) (none d hd)

/-- The listing of a caller's purchases. What it shows is the caller's own, complete for every
lookup that succeeds, and one that a provider fails takes no rows of another with it; only where
nothing succeeds is the exception of the wallet's lookup the answer. -/
theorem pending_onramps_listed (S : OnrampService) (user : Text) (intentIds : List Text)
    (checksums : ∀ s, S.platform.intents.toChecksumAddress
      (S.platform.intents.toChecksumAddress s) = S.platform.intents.toChecksumAddress s) :
    (∀ response, S.getPendingOnramps user intentIds = .ok response →
      ∃ deposit, S.depositAddress = .ok deposit ∧ ListsPurchases S user
        (S.platform.intents.toChecksumAddress deposit) intentIds response) ∧
    ∀ fault, S.getPendingOnramps user intentIds = .error fault → fault.isOnRampError = true →
      S.depositAddress = .error fault ∨ S.configuredProvider = .error fault ∨
        ∃ deposit, S.depositAddress = .ok deposit ∧
          let deposit := S.platform.intents.toChecksumAddress deposit
          S.validatedOnrampPendingIntents user deposit intentIds = .error fault ∨
            NothingFound S user deposit intentIds fault := by
  have parts {deposit : Text} {intents : List (Text × IntentPayload)} {s : ExactLookups}
      {provider : Text}
      (valid : S.validatedOnrampPendingIntents user deposit intentIds = .ok intents)
      (walked : intents.foldlM (S.exactLookup user deposit) ⟨[], [], false, none, 0⟩ = .ok s)
      (configured : S.configuredProvider = .ok provider) :
      Explored S user deposit intents s ∧ intents.map Prod.fst = dedupeBy some intentIds ∧
        (S.walletLookup s provider).ForWallet S := by
    unfold OnrampService.validatedOnrampPendingIntents at valid
    dsimp only at valid
    split_ifs at valid with many
    obtain ⟨same, decoded⟩ := mapM_validatedIntent valid
    have explored := Explored.walk checksums decoded walked
    exact ⟨explored, same, explored.walletLookup configured⟩
  constructor
  · intro response listed
    obtain ⟨_, -, listed⟩ := bind_eq_ok.mp listed
    obtain ⟨deposit, address, listed⟩ := bind_eq_ok.mp listed
    obtain ⟨intents, valid, listed⟩ := bind_eq_ok.mp listed
    obtain ⟨s, walked, listed⟩ := bind_eq_ok.mp listed
    obtain ⟨provider, configured, concluded⟩ := bind_eq_ok.mp listed
    obtain ⟨explored, same, wallet⟩ := parts valid walked configured
    exact ⟨deposit, address, explored.concluded checksums same wallet concluded⟩
  · intro fault failed kind
    rcases bind_eq_error.mp failed with limited | ⟨_, -, failed⟩
    · cases (revertIf_eq_error.mp limited).2
      cases kind
    rcases bind_eq_error.mp failed with address | ⟨deposit, address, failed⟩
    · exact .inl address
    rcases bind_eq_error.mp failed with invalid | ⟨intents, valid, failed⟩
    · exact .inr (.inr ⟨deposit, address, .inl invalid⟩)
    rcases bind_eq_error.mp failed with broken | ⟨s, walked, failed⟩
    · rw [foldlM_exactLookup_error broken] at kind
      cases kind
    rcases bind_eq_error.mp failed with unset | ⟨provider, configured, failed⟩
    · exact .inr (.inl unset)
    obtain ⟨explored, same, wallet⟩ := parts valid walked configured
    exact .inr (.inr ⟨deposit, address, .inr (explored.gaveUp same wallet kind failed)⟩)

end Conclusion

namespace SamplePurchase

def platform : OrderPlatform where
  toMoonpayPlatform := sampleMoonpay
  upper s := s.map Char.toUpper
  floatValue _ := none
  isoInstant _ := none
  isHttpsBase _ := true
  isoDate _ := text "2023-11-14"

def intentId : Text :=
  signedToken (sampleIntentPlatform sampleIntentDigest) sampleKeyRing.currentKey
    { sampleIntentPayload (hexDigits (word sampleTokenId)) with p := text "transak" }

def order : JsonObject :=
  [(text "_id", .str (text "order-1")), (text "partnerOrderId", .str intentId),
    (text "walletAddress", .str sampleIntentWallet), (text "status", .str (text "completed")),
    (text "isBuyOrSell", .str (text "BUY")), (text "cryptoCurrency", .str (text "USDC")),
    (text "network", .str (text "base")),
    (text "transactionHash", .str (List.replicate 64 'a'))]

/-- A service with one completed order on the books of the partner. -/
def service : OnrampService where
  platform
  settings :=
    { apiKey := some (text "key")
      apiSecret := some (text "secret")
      apiBaseUrl := some (text "https://api/")
      gatewayBaseUrl := some (text "https://gateway/")
      referrerDomain := some (text "privana.app")
      cryptoCurrencyCode := some (text "USDC")
      network := some (text "base")
      chainId := some 84532
      tokenAddress := some sampleIntentUser }
  onrampProvider := some (text "transak")
  moonpaySecretKey := none
  now := 1700000060
  limited := false
  depositAddress := .ok sampleIntentWallet
  partner _ _ := .ok ⟨200, .obj [(text "data", .arr [.obj order])]⟩
  moonpayByExternalId _ := none
  moonpayTransactions _ _ := none
  getTokenId _ _ _ := .ok sampleTokenId
  isTokenRegistered _ _ := .ok true

/-- The order is found by its intent and by the wallet, and listed once. -/
theorem pending_onramps_listed_sample :
    ∃ response, service.getPendingOnramps sampleIntentUser [intentId] = .ok response ∧
      response.pending.length = 1 ∧
      ListsPurchases service sampleIntentUser sampleIntentWallet [intentId] response := by
  have answered : (service.getPendingOnramps sampleIntentUser [intentId]).toOption.any
      (fun response => response.pending.length = 1) = true := by
    decide +kernel
  cases listed : service.getPendingOnramps sampleIntentUser [intentId] with
  | error fault =>
    rw [listed] at answered
    cases answered
  | ok response =>
    rw [listed] at answered
    obtain ⟨deposit, address, lists⟩ := (pending_onramps_listed service sampleIntentUser [intentId]
      fun _ => rfl).1 response listed
    cases address
    exact ⟨response, rfl, of_decide_eq_true answered, lists⟩

end SamplePurchase

end Privana
