import Privana.AbiLayout
import Privana.AttestedOnce
import Privana.AuthTokens
import Privana.BackedLiabilities
import Privana.BulkUnlock
import Privana.CacheValues
import Privana.ClaimableDeposits
import Privana.DiscoveryCheck
import Privana.DiscoveryCoverage
import Privana.DurableTrace
import Privana.EmergencyWithdraw
import Privana.FundAuthority
import Privana.HighWaterMark
import Privana.HistoryDecoding
import Privana.HistoryPages
import Privana.HistoryReconciliation
import Privana.IntentCanonical
import Privana.LedgerConservation
import Privana.MoonpayPurchases
import Privana.NonceOrder
import Privana.PaymentProof
import Privana.PendingOnramps
import Privana.PendingPurchases
import Privana.PrivateReads
import Privana.RateLimiter
import Privana.ReclaimableLocks
import Privana.RefreshRotation
import Privana.ResolvableWithdrawals
import Privana.RpcGate
import Privana.RpcIdentity
import Privana.SessionLineage
import Privana.SignatureReplay
import Privana.SingleFlight
import Privana.SkipPaging
import Privana.Startup
import Privana.StartupConvergence
import Privana.StartupSync
import Privana.SweepMigration
import Privana.TokenCodecs
import Privana.TransakOrders
import Privana.TruthfulOutcomes
import Privana.TwoStepUpgrade
import Privana.UnresolvedIndex
import Privana.WithdrawalAdmission
