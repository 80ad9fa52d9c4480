import Privana.SweepEngine

/-! The chain table of `chain_config.py`. An entry carries what `__post_init__` checks. -/

namespace Privana

structure ChainEntry extends ChainConfig where
  chainId : U256
  finalityDepth : ℕ
  discoveryLookbackBlocks : ℕ := 300
  discoveryMaxLookbackBlocks : ℕ := 7_200
  discoveryScanChunkBlocks : ℕ := 5_000
  funding_lt_minDeposit : gasFundingAmountWei < minDepositNativeWei := by decide
  lookback_pos : 0 < discoveryLookbackBlocks := by decide
  lookback_le_max : discoveryLookbackBlocks ≤ discoveryMaxLookbackBlocks := by decide
  chunk_pos : 0 < discoveryScanChunkBlocks := by decide
  gasPrice_pos : 0 < minSweepGasPriceWei := by decide
  funding_covers :
    (sweepGasLimit .ERC20).toNat * minSweepGasPriceWei * gasFundingHeadroom ≤
      gasFundingAmountWei := by decide

def sapphireTestnet : ChainEntry where
  chainId := 23295
  finalityDepth := 2
  minDepositNativeWei := 50_000_000_000_000_000
  minDepositErc20Wei := 1_000_000_000_000_000_000
  gasFundingAmountWei := 20_000_000_000_000_000
  minSweepGasPriceWei := 100_000_000_000
  discoveryScanChunkBlocks := 100
  discoveryLookbackBlocks := 640
  discoveryMaxLookbackBlocks := 1_000

def baseSepolia : ChainEntry where
  chainId := 84532
  finalityDepth := 15
  minDepositNativeWei := 1_000_000_000_000_000
  minDepositErc20Wei := 1_000_000
  gasFundingAmountWei := 200_000_000_000_000
  minSweepGasPriceWei := 100_000_000
  discoveryLookbackBlocks := 1_800
  discoveryMaxLookbackBlocks := 43_200

def ethereumSepolia : ChainEntry where
  chainId := 11155111
  finalityDepth := 2
  minDepositNativeWei := 50_000_000_000_000_000
  minDepositErc20Wei := 50_000_000
  gasFundingAmountWei := 2_000_000_000_000_000
  minSweepGasPriceWei := 100_000_000

def baseMainnet : ChainEntry where
  chainId := 8453
  finalityDepth := 15
  minDepositNativeWei := 2_000_000_000_000_000
  minDepositErc20Wei := 1_000_000
  gasFundingAmountWei := 200_000_000_000_000
  minSweepGasPriceWei := 5_000_000
  discoveryLookbackBlocks := 1_800
  discoveryMaxLookbackBlocks := 43_200

def ethereumMainnet : ChainEntry where
  chainId := 1
  finalityDepth := 32
  minDepositNativeWei := 2_000_000_000_000_000
  minDepositErc20Wei := 1_000_000
  gasFundingAmountWei := 1_000_000_000_000_000
  minSweepGasPriceWei := 100_000_000

def hyperEvm : ChainEntry where
  chainId := 999
  finalityDepth := 10
  minDepositNativeWei := 50_000_000_000_000_000
  minDepositErc20Wei := 1_000_000
  gasFundingAmountWei := 200_000_000_000_000
  minSweepGasPriceWei := 100_000_000
  discoveryLookbackBlocks := 3_600
  discoveryMaxLookbackBlocks := 86_400

/-- The localnet mirror is there only when the process is deployed against it. -/
def chainConfigs (localnet : Bool) : List ChainEntry :=
  [sapphireTestnet, baseSepolia, ethereumSepolia, baseMainnet, ethereumMainnet, hyperEvm] ++
    if localnet then [{ sapphireTestnet with chainId := 23293 }] else []

def chainEntry (configs : List ChainEntry) (chainId : U256) : Option ChainEntry :=
  configs.find? fun c => c.chainId = chainId

def defaultFinalityDepth : ℕ := 32

def getFinalityDepth (configs : List ChainEntry) (chainId : U256) : ℕ :=
  match chainEntry configs chainId with
  | some c => c.finalityDepth
  | none => defaultFinalityDepth

end Privana
