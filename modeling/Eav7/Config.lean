import Mathlib.Data.Nat.Notation

/-!
# Protocol constants

The values of `config.rs` that the state machine and the chain read. Every fork
height of the network is zero except the TEE one, so a guard on another fork
never rejects.
-/

namespace Eav7.Config

def protocol : String := "eav20"
def addressPrefix : String := "E7"
def unit : ℕ := 1000000
def maxTxsPerBlock : ℕ := 500
def blockTimeMs : ℕ := 1000
def maxClockDriftMs : ℕ := 2000
def slotFutureToleranceMs : ℕ := 400
def reorgWindow : ℕ := 5000
def maxValidators : ℕ := 51
def minValidatorStake : ℕ := 1000000000
def unbondingBlocks : ℕ := 604800
def maxUnbondingEntries : ℕ := 32
def slashPercent : ℕ := 10
def slashReporterPercent : ℕ := 10
def maxVoteTargets : ℕ := 30
def defaultCommissionPct : ℕ := 20
def commissionDelayBlocks : ℕ := 21600
def rewardScale : ℕ := 1000000000000000000
def treasuryPct : ℕ := 0
def maxPermissionKeys : ℕ := 20
def permDelayMinBlocks : ℕ := 3600
def permDelayMaxBlocks : ℕ := 2592000
def permDelayDefaultBlocks : ℕ := 43200
def maxActivePermissions : ℕ := 8
def maxPermissionName : ℕ := 32
def govMaxVotingBlocks : ℕ := 200000
def govTimelockBlocks : ℕ := 40000
def multisigOpTtlBlocks : ℕ := 100000
def minOracleStake : ℕ := 500000000
def feeExemptStake : ℕ := 100000000
def blockReward : ℕ := 16000000
def halvingIntervalBlocks : ℕ := 126144000
def bridgeMinAttestations : ℕ := 1
def finalityMinValidators : ℕ := 3
def bridgeBreakerWindowBlocks : ℕ := 3600
def bridgeBreakerBps : ℕ := 3000
def aiTeeHeight : ℕ := 100000000
def maxAiAttesterMembers : ℕ := 32
def maxDataBytes : ℕ := 65536
def maxAiPromptBytes : ℕ := 8192
def maxAiOutputBytes : ℕ := 32768
def aiTaskTimeoutMs : ℕ := 3600000
def aiOracleSlash : ℕ := 10000000
def aiCommitWindowMs : ℕ := 1800000
def aiRevealWindowMs : ℕ := 1800000
def minAiQuorum : ℕ := 2
def maxAiQuorum : ℕ := 21
def aiChallengeWindowMs : ℕ := 1800000
def aiVerdictWindowMs : ℕ := 1800000
def aiChallengeBond : ℕ := 20000000
def aiVerdictQuorum : ℕ := 3
def aiBidWindowMs : ℕ := 1800000
def maxAiUriBytes : ℕ := 512
def eavmWeiPerE7 : ℕ := 1000000000000
def maxVestingBlocks : ℕ := 315360000
def maxNftUriBytes : ℕ := 2048
def nameRegisterCost : ℕ := 1000000
def maxFeeLimit : ℕ := 100000000
def gasPerEnergy : ℕ := 100
def blockhashHistory : ℕ := 8191
def blockhashWindow : ℕ := 256
def maxEavmGas : ℕ := 5190000
def eavmOsakaHeight : ℕ := 0
def eavmChainId : ℕ := 72020
def bn254GasMultiplier : ℕ := 13
def maxContractBytes : ℕ := 24576
def maxEavmCalldata : ℕ := 3072
def maxLogIndex : ℕ := 100000
def maxChainPage : ℕ := 2000
def maxSyncBlocks : ℕ := 10000

/-- The weighted-byte quota that every transaction type pays from. -/
def gbDailyBytes : ℕ := 1000000000
def gbPerStakedEav7Bytes : ℕ := 1000000
def gbRegenBlocks : ℕ := 86400
def gbMinWeighted : ℕ := 1024
def gbBurnPerWeightedByte : ℕ := 5

def energyCostTable : List (String × ℕ) :=
  [("TRANSFER", 1), ("STAKE", 1), ("UNSTAKE", 1), ("VOTE", 1), ("EAVM_TRANSFER", 1),
   ("PERMISSION_UPDATE", 2), ("MULTISIG_PROPOSE", 2), ("MULTISIG_APPROVE", 1),
   ("PERMISSION_PROPOSE", 2), ("PERMISSION_APPROVE", 1), ("PERMISSION_VETO", 1),
   ("DELEGATE_RESOURCE", 1), ("UNDELEGATE_RESOURCE", 1), ("GOV_PROPOSE", 2), ("GOV_VOTE", 1),
   ("SLASH_DOUBLE_SIGN", 8), ("BRIDGE_COMMITTEE_UPDATE", 2), ("VESTING_CREATE", 2),
   ("VESTING_CLAIM", 1), ("SET_COMMISSION", 1), ("CLAIM_VOTER_REWARD", 1), ("META_TX", 3),
   ("TOKEN_TRANSFER", 2), ("TOKEN_TRANSFER_FROM", 2), ("TOKEN_APPROVE", 1),
   ("TOKEN_CREATE", 10), ("TOKEN_MINT", 2), ("TOKEN_BURN", 2), ("TOKEN_PAUSE", 1),
   ("TOKEN_UNPAUSE", 1), ("TOKEN_BLACKLIST", 1), ("TOKEN_FREEZE", 1), ("TOKEN_UNFREEZE", 1),
   ("NFT_CREATE", 10), ("NFT_MINT", 3), ("NFT_TRANSFER", 2), ("NFT_APPROVE", 1),
   ("NFT_BURN", 2), ("NAME_REGISTER", 3), ("NAME_UPDATE", 1), ("NAME_TRANSFER", 1),
   ("NAME_RELEASE", 1), ("AI_TASK", 5), ("AI_RESULT", 0), ("AI_REFUND", 0),
   ("ORACLE_REGISTER", 2), ("AI_COMMIT", 1), ("AI_REVEAL", 1), ("AI_CLAIM", 1),
   ("AI_CHALLENGE", 2), ("AI_VERDICT", 1), ("AI_BID", 1), ("AI_AWARD", 1), ("BRIDGE_OUT", 2),
   ("BRIDGE_IN", 0), ("BRIDGE_SETTLE", 0), ("EAVM_DEPLOY", 10), ("EAVM_CALL", 5)]

def energyCost (tipo : String) : ℕ := (energyCostTable.lookup tipo).getD 1

end Eav7.Config
