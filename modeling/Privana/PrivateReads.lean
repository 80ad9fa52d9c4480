import Privana.Accounting

/-! The private views of `Accounting.sol`, and `AccountingSiweAuth` behind them. What a
caller reads depends on the data of the authenticated account and, for `getServiceLocks`,
on the locks that name it; on nothing else of the other accounts. -/

namespace Privana
open BigEndian CheckedArithmetic

inductive ViewError where
  | Unauthorized
  | SiweAuth_Expired
  | A13e_RevokedAuthToken
  | decrypt
  | abiDecode
  | panic
  deriving DecidableEq

/-- The fields of an `AuthToken` that the contract reads. -/
structure AuthToken where
  userAddr : Address
  validUntil : U256

/-- `Sapphire.decrypt` without associated data, and the decoder of the token struct. -/
structure TokenPlatform where
  decrypt : Bytes32 → Bytes → Option Bytes
  decodeAuthToken : Bytes → Option AuthToken

structure SiweAuthState where
  authTokenEncKey : Bytes32
  revokedAuthTokens : Bytes32 → Bool

section Authentication
variable (P : Platform) (T : TokenPlatform) (auth : SiweAuthState) (m : Msg)

def decodeAndValidateToken (token : Bytes) : Except ViewError AuthToken :=
  match T.decrypt auth.authTokenEncKey token with
  | none => .error .decrypt
  | some authTokenEncoded =>
    match T.decodeAuthToken authTokenEncoded with
    | none => .error .abiDecode
    | some b => if b.validUntil < m.timestamp then .error .SiweAuth_Expired else .ok b

def authMsgSender (token : Bytes) : Except ViewError Address :=
  if auth.revokedAuthTokens (P.keccak256 token) then .error .A13e_RevokedAuthToken
  else if token.length = 0 then .ok 0
  else (decodeAndValidateToken T auth m token).map AuthToken.userAddr

def authSender (token : Bytes) : Except ViewError Address :=
  if token.length ≠ 0 then authMsgSender P T auth m token else .ok m.sender

end Authentication

/-- The first loop of `getServiceLocks`. -/
def matchCount (service : Address) : List FundLock → ℕ
  | [] => 0
  | lock :: allLocks =>
    if lock.serviceId = service then matchCount service allLocks + 1 else matchCount service allLocks

/-- The second loop, which fills the array from `currentIndex` on. -/
def fillLocks (service : Address) :
    List FundLock → ℕ → List FundLock → Except ViewError (List FundLock)
  | [], _, serviceLocks => .ok serviceLocks
  | lock :: allLocks, currentIndex, serviceLocks =>
    if lock.serviceId = service then
      if currentIndex < serviceLocks.length then
        fillLocks service allLocks (currentIndex + 1) (serviceLocks.set currentIndex lock)
      else .error .panic
    else fillLocks service allLocks currentIndex serviceLocks

def maxHistoryPageSize : U256 := 100

/-- The entries from `start` on, at most `pageSize` of them. -/
def historyPage (all : List HistoryEntry) (start pageSize : U256) :
    Except ViewError (List HistoryEntry) := do
  let remaining ← checkedSub .panic (.ofNat 256 all.length) start
  let pageSize := if remaining.toNat < pageSize.toNat then remaining else pageSize
  (List.range pageSize.toNat).mapM fun i => do
    let index ← checkedAdd .panic start (.ofNat 256 i)
    match all[index.toNat]? with
    | some entry => .ok entry
    | none => .error .panic

/-- The page and the total; the offset is an `int256`. -/
def pagedHistory (offset limit : BitVec 256) (all : List HistoryEntry) :
    Except ViewError (List HistoryEntry × U256) := do
  let total : U256 := .ofNat 256 all.length
  let pageSize := if limit.toNat > maxHistoryPageSize.toNat then maxHistoryPageSize else limit
  if total = 0 ∨ pageSize = 0 then return ([], total)
  else
    let padded ← checkedAdd .panic total pageSize
    let last ← checkedSub .panic padded 1
    let pageCount ← checkedDiv .panic last pageSize
    if offset.toInt < 0 then
      let next ← checkedAddInt .panic offset 1
      let negated ← checkedNegInt .panic next
      let pageFromEnd ← checkedAdd .panic negated 1
      if pageFromEnd.toNat > pageCount.toNat then return ([], total)
      else
        let pageIndex ← checkedSub .panic pageCount pageFromEnd
        let start ← checkedMul .panic pageIndex pageSize
        let page ← historyPage all start pageSize
        return (page, total)
    else if offset.toNat ≥ pageCount.toNat then return ([], total)
    else
      let start ← checkedMul .panic offset pageSize
      let page ← historyPage all start pageSize
      return (page, total)

inductive ViewCall where
  | balanceOf (tokenId : Bytes32) (token : Bytes)
  | getUserLocks (token : Bytes)
  | getServiceLocks (user : Address) (token : Bytes)
  | getHistory (offset limit : BitVec 256) (token : Bytes)
  | getDepositAddress (chainType : ChainType) (version : U256) (siweToken : Bytes)

def ViewCall.token : ViewCall → Bytes
  | .balanceOf _ token | .getUserLocks token | .getServiceLocks _ token | .getHistory _ _ token
  | .getDepositAddress _ _ token => token

inductive ViewResult where
  | balance (amount : U256)
  | locks (locks : List FundLock)
  | history (page : List HistoryEntry) (total : U256)
  | depositAddress (depositAddr : Address)
  deriving DecidableEq

def requireUser (user : Address) : Except ViewError Unit :=
  if user = 0 then .error .Unauthorized else .ok ()

section Views
variable (P : Platform) (T : TokenPlatform) (auth : SiweAuthState) (m : Msg)

def balanceOf (tokenId : Bytes32) (token : Bytes) (s : State) : Except ViewError U256 := do
  let user ← authSender P T auth m token
  requireUser user
  return s.balances user tokenId

def getUserLocks (token : Bytes) (s : State) : Except ViewError (List FundLock) := do
  let user ← authSender P T auth m token
  requireUser user
  return s.activeLocks user

def getServiceLocks (user : Address) (token : Bytes) (s : State) :
    Except ViewError (List FundLock) := do
  let service ← authSender P T auth m token
  requireUser service
  let allLocks := s.activeLocks user
  fillLocks service allLocks 0 (List.replicate (matchCount service allLocks) ⟨0, 0, 0, 0, 0⟩)

def getHistory (offset limit : BitVec 256) (token : Bytes) (s : State) :
    Except ViewError (List HistoryEntry × U256) := do
  let user ← authSender P T auth m token
  requireUser user
  pagedHistory offset limit (s.history user)

def getDepositAddress (chainType : ChainType) (version : U256) (siweToken : Bytes) (s : State) :
    Except ViewError Address := do
  let beneficiary ← authSender P T auth m siweToken
  return (deriveDepositKeypair P s.toSignerState beneficiary chainType version).1

def executeView (s : State) : ViewCall → Except ViewError ViewResult
  | .balanceOf tokenId token => ViewResult.balance <$> balanceOf P T auth m tokenId token s
  | .getUserLocks token => ViewResult.locks <$> getUserLocks P T auth m token s
  | .getServiceLocks user token => ViewResult.locks <$> getServiceLocks P T auth m user token s
  | .getHistory offset limit token =>
    (fun r => ViewResult.history r.1 r.2) <$> getHistory P T auth m offset limit token s
  | .getDepositAddress chainType version siweToken =>
    ViewResult.depositAddress <$> getDepositAddress P T auth m chainType version siweToken s

end Views

theorem fillLocks_eq (service : Address) (allLocks : List FundLock) (filled rest : List FundLock)
    (room : rest.length = matchCount service allLocks) :
    fillLocks service allLocks filled.length (filled ++ rest) =
      .ok (filled ++ allLocks.filter (·.serviceId = service)) := by
  induction allLocks generalizing filled rest with
  | nil => rw [List.length_eq_zero_iff.mp room]; rfl
  | cons lock allLocks ih =>
    by_cases names : lock.serviceId = service
    · rw [matchCount, if_pos names] at room
      obtain ⟨slot, rest, rfl⟩ := List.exists_cons_of_length_eq_add_one room
      have next := ih (filled ++ [lock]) rest (Nat.succ.inj room)
      have place : (filled ++ slot :: rest).set filled.length lock = filled ++ [lock] ++ rest := by
        simp
      rw [fillLocks, if_pos names, if_pos (by simp), place, List.filter_cons_of_pos (by simpa using names)]
      simpa using next
    · rw [matchCount, if_neg names] at room
      rw [fillLocks, if_neg names, List.filter_cons_of_neg (by simpa using names)]
      exact ih filled rest room

/-- The two loops together select the service's locks, and never write out of bounds. -/
theorem serviceLocks_eq (service : Address) (allLocks : List FundLock) (blank : FundLock) :
    fillLocks service allLocks 0 (List.replicate (matchCount service allLocks) blank) =
      .ok (allLocks.filter (·.serviceId = service)) := by
  have filled := fillLocks_eq service allLocks [] (List.replicate (matchCount service allLocks) blank)
    List.length_replicate
  simpa using filled

/-- The two states show `u` the same: its own data and, of another account, the locks
that name it. The keys derive every deposit address. -/
structure SameView (u : Address) (call : ViewCall) (s s' : State) : Prop where
  secretKey : s.secretKey = s'.secretKey
  balances : s.balances u = s'.balances u
  locks : s.activeLocks u = s'.activeLocks u
  history : s.history u = s'.history u
  served : ∀ v token, call = .getServiceLocks v token →
    (s.activeLocks v).filter (·.serviceId = u) = (s'.activeLocks v).filter (·.serviceId = u)

section TwoRuns
variable {P : Platform} {T : TokenPlatform} {auth : SiweAuthState} {m : Msg} {u : Address}

theorem executeView_congr {s s' : State} {call : ViewCall}
    (authenticated : authSender P T auth m call.token = .ok u) (same : SameView u call s s') :
    executeView P T auth m s call = executeView P T auth m s' call := by
  cases call with
  | balanceOf tokenId token =>
    simp only [ViewCall.token] at authenticated
    simp only [executeView, balanceOf, authenticated, bind, Except.bind, same.balances]
  | getUserLocks token =>
    simp only [ViewCall.token] at authenticated
    simp only [executeView, getUserLocks, authenticated, bind, Except.bind, same.locks]
  | getServiceLocks v token =>
    simp only [ViewCall.token] at authenticated
    simp only [executeView, getServiceLocks, authenticated, bind, Except.bind, serviceLocks_eq,
      same.served v token rfl]
  | getHistory offset limit token =>
    simp only [ViewCall.token] at authenticated
    simp only [executeView, getHistory, authenticated, bind, Except.bind, same.history]
  | getDepositAddress chainType version siweToken =>
    simp only [ViewCall.token] at authenticated
    simp only [executeView, getDepositAddress, authenticated, bind, Except.bind,
      deriveDepositKeypair, same.secretKey]

theorem executeView_zero {s : State} {call : ViewCall} {r : ViewResult}
    (authenticated : authSender P T auth m call.token = .ok 0)
    (h : executeView P T auth m s call = .ok r) :
    ∃ depositAddr, r = .depositAddress depositAddr := by
  have denied : requireUser 0 = .error .Unauthorized := rfl
  cases call with
  | balanceOf | getUserLocks | getServiceLocks | getHistory =>
    simp only [ViewCall.token] at authenticated
    simp only [executeView, balanceOf, getUserLocks, getServiceLocks, getHistory, authenticated,
      bind, Except.bind, denied] at h
    cases h
  | getDepositAddress chainType version siweToken =>
    simp only [ViewCall.token] at authenticated
    simp only [executeView, getDepositAddress, authenticated, bind, Except.bind] at h
    exact ⟨_, (Except.ok.inj h).symm⟩

end TwoRuns

/-- Private reads do not leak: two states that show the authenticated account the same
answer its every call alike, and the zero address reads no balance, lock or history. -/
theorem private_reads (P : Platform) (T : TokenPlatform) (auth : SiweAuthState) (m : Msg) :
    (∀ s s' u call, authSender P T auth m call.token = .ok u → SameView u call s s' →
      executeView P T auth m s call = executeView P T auth m s' call) ∧
    ∀ s call r, authSender P T auth m call.token = .ok 0 → executeView P T auth m s call = .ok r →
      ∃ depositAddr, r = .depositAddress depositAddr :=
  ⟨fun _ _ _ _ authenticated same => executeView_congr authenticated same,
    fun _ _ _ authenticated h => executeView_zero authenticated h⟩

end Privana
