import Privana.Coroutine
import Privana.Types
import Mathlib.Data.List.Sort

/-! `rpc_identity`: the endpoints that proved to be the chain they are filed under. A
pass asks every configured endpoint for its chain ID and commits those that answered
with their own, and a client resolves through the set committed last. Log lines, request
headers and the probe's timeout are left out. -/

namespace Privana
open Coroutine

abbrev Url := String

/-- `Dict[int, str]`. -/
abbrev UrlMap := List (U256 × Url)

/-- A client; clients are shared per URL. -/
structure AsyncWeb3 where
  url : Url
  deriving DecidableEq

def clientForUrl (url : Url) : AsyncWeb3 := ⟨url⟩

/-- The state of the module, and `settings.chain_rpc_urls`. -/
structure RpcIdentity where
  verifiedUrls : UrlMap := []
  allowUnverified : Bool := false
  configuredUrls : UrlMap := []
  chainRpcUrls : UrlMap

namespace RpcIdentity

variable (g : RpcIdentity)

/-- The check has passed: the opt-out ends, and the settings are narrowed. -/
def commitVerified (verified : UrlMap) : RpcIdentity :=
  { g with verifiedUrls := verified, allowUnverified := false, chainRpcUrls := verified }

def verifiedUrl (chainId : U256) (chainRpcUrls : UrlMap) : Option Url :=
  if g.verifiedUrls ≠ [] then g.verifiedUrls.lookup chainId
  else if g.allowUnverified then chainRpcUrls.lookup chainId
  else none

def verifiedWeb3 (chainId : U256) (chainRpcUrls : UrlMap) : Option AsyncWeb3 :=
  ((g.verifiedUrl chainId chainRpcUrls).filter (· ≠ "")).map clientForUrl

/-- The client, or `none` for the `ValueError`, with the cache as it is left. -/
def requireVerifiedWeb3 (chainId : U256) (chainRpcUrls : UrlMap)
    (cache : U256 → Option AsyncWeb3) : Option AsyncWeb3 × (U256 → Option AsyncWeb3) :=
  match g.verifiedWeb3 chainId chainRpcUrls with
  | none => (none, Function.update cache chainId none)
  | some w3 =>
    let w3 := (cache chainId).getD w3
    (some w3, Function.update cache chainId (some w3))

def isUrlVerified (chainId : U256) (url : Url) : Bool :=
  if g.verifiedUrls ≠ [] then g.verifiedUrls.lookup chainId = some url
  else g.allowUnverified

end RpcIdentity

/-- What came of a probe: an answer, an exception, or a cancellation. -/
inductive Probe where
  | reported (chainId : ℕ)
  | failed
  | cancelled
  deriving DecidableEq

inductive PassError where
  | noVerifiedChains
  | sapphireEndpointUnverified
  | cancelled
  deriving DecidableEq

inductive PassOp where
  /-- `_configured_urls = dict(settings.chain_rpc_urls)`. -/
  | rememberConfigured
  /-- `_configured_urls or dict(settings.chain_rpc_urls)`. -/
  | configuredUrls
  | probeChainId (chainId : U256) (url : Url)
  | commitVerified (verified : UrlMap)
  | isUrlVerified (chainId : U256) (url : Url)

abbrev PassOp.Reply : PassOp → Type
  | rememberConfigured | configuredUrls => UrlMap
  | probeChainId .. => Probe
  | commitVerified _ => Unit
  | isUrlVerified .. => Bool

abbrev Pass := Coroutine PassOp PassOp.Reply PassError

structure RpcSettings where
  chainRpcUrls : UrlMap
  sapphireChainId : U256
  sapphireRpcUrl : Url

/-- The entries of the mapping, sorted by chain. -/
def sortedUrls (chainRpcUrls : UrlMap) : UrlMap :=
  ((chainRpcUrls.map Prod.fst).insertionSort (· ≤ ·)).filterMap fun chainId =>
    (chainRpcUrls.lookup chainId).map (chainId, ·)

/-- Failed probes and other chains' endpoints are dropped; a cancellation goes on. -/
def keepVerified : List ((U256 × Url) × Probe) → Except PassError UrlMap
  | [] => .ok []
  | (_, .cancelled) :: _ => .error .cancelled
  | (_, .failed) :: reported => keepVerified reported
  | (entry, .reported chainId) :: reported => do
    let verified ← keepVerified reported
    return if chainId = entry.1.toNat then entry :: verified else verified

def probeEntry (entry : U256 × Url) : Pass ((U256 × Url) × Probe) := do
  let probe : Probe ← await (PassOp.probeChainId entry.1 entry.2)
  return (entry, probe)

/-- The probes run at the same time; none sees what another does. -/
def verifyChainRpcUrls (chainRpcUrls : UrlMap) : Pass UrlMap := do
  let reported ← mapEach probeEntry (sortedUrls chainRpcUrls)
  match keepVerified reported with
  | .ok verified => return verified
  | .error e => raise e

def initializeVerifiedChainRpcUrls (settings : RpcSettings) : Pass UrlMap := do
  let configured : UrlMap ← await PassOp.rememberConfigured
  if configured = [] then do
    await (PassOp.commitVerified [])
    return []
  else do
    let verified ← verifyChainRpcUrls configured
    await (PassOp.commitVerified verified)
    if verified = [] then raise .noVerifiedChains
    else if settings.sapphireRpcUrl = "" then return verified
    else do
      let proved : Bool ← await (PassOp.isUrlVerified settings.sapphireChainId settings.sapphireRpcUrl)
      if proved then return verified else raise .sapphireEndpointUnverified

def reverifyChainRpcUrls : Pass UrlMap := do
  let configured : UrlMap ← await PassOp.configuredUrls
  if configured = [] then return []
  else do
    let verified ← verifyChainRpcUrls configured
    await (PassOp.commitVerified verified)
    return verified

/-- What a pass keeps has answered with its own chain ID. -/
theorem keepVerified_sound {reported : List ((U256 × Url) × Probe)} {verified : UrlMap}
    (h : keepVerified reported = .ok verified) {entry : U256 × Url} (he : entry ∈ verified) :
    (entry, .reported entry.1.toNat) ∈ reported := by
  induction reported generalizing verified with
  | nil =>
    cases h
    cases he
  | cons p reported ih =>
    obtain ⟨first, probe⟩ := p
    cases probe with
    | cancelled => cases h
    | failed => exact List.mem_cons_of_mem _ (ih h he)
    | reported chainId =>
      cases hr : keepVerified reported with
      | error e =>
        simp only [keepVerified, hr] at h
        cases h
      | ok rest =>
        simp only [keepVerified, hr] at h
        obtain rfl := Except.ok.inj h
        split at he
        · next own =>
          rcases List.mem_cons.mp he with rfl | he
          · exact own ▸ List.mem_cons_self
          · exact List.mem_cons_of_mem _ (ih hr he)
        · exact List.mem_cons_of_mem _ (ih hr he)

theorem lookup_of_mem_sortedUrls {urls : UrlMap} {entry : U256 × Url}
    (h : entry ∈ sortedUrls urls) : urls.lookup entry.1 = some entry.2 := by
  obtain ⟨chainId, -, he⟩ := List.mem_filterMap.mp h
  obtain ⟨url, hu, rfl⟩ := Option.map_eq_some_iff.mp he
  exact hu

end Privana
