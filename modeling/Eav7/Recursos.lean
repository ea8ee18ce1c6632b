import Eav7.State
import Eav7.Cripto
import Eav7.Base.Binary64

/-!
# The GB resource track

Every transaction consumes weighted bytes of a daily quota that regenerates
linearly; the shortfall is burned as the fee. The reference computes in doubles,
so each operation rounds as `Binary64` does.
-/

namespace Eav7

open Base

structure Peek where
  shortfall : ℚ
  usedAfter : ℚ

/-- The wrapping cast of a 128-bit amount to a signed word. -/
def comoI128 (n : Amount) : ℤ := if n < 2 ^ 127 then n else n - 2 ^ 128

namespace Account

variable (acc : Account)

/-- Own stake less what was delegated out plus what was delegated in, in whole
coins, truncated towards zero. -/
def resourceUnits : ℚ :=
  let rs := comoI128 acc.staked - comoI128 acc.delegatedOut + comoI128 acc.delegatedIn
  Binary64.nearest (rs.tdiv Config.unit)

def maxGb : ℚ :=
  Binary64.add Config.gbDailyBytes (Binary64.mul acc.resourceUnits Config.gbPerStakedEav7Bytes)

end Account

/-- Lazy linear regeneration over `regen` blocks; nothing is written. -/
def peek (maxQuota : ℚ) (usedRaw usedBlock height : ℕ) (regen : ℕ) (cost : ℚ) : Peek :=
  let elapsed := Binary64.nearest (height - usedBlock : ℕ)
  let recovered := (Binary64.div (Binary64.mul maxQuota elapsed) regen).floor
  let used := max (Binary64.sub (Binary64.nearest usedRaw) recovered) 0
  let available := max (Binary64.sub maxQuota used) 0
  { shortfall := max (Binary64.sub cost available) 0
    usedAfter := Binary64.add used (min available cost) }

def peekGb (acc : Account) (height : ℕ) (cost : ℚ) : Peek :=
  peek acc.maxGb acc.gbUsed acc.gbBlock height Config.gbRegenBlocks cost

def commitGb (height : ℕ) (p : Peek) (acc : Account) : Account :=
  { acc with gbBlock := height, gbUsed := Binary64.toNat u64Limit p.usedAfter }

/-- The burned fee of a shortfall. -/
def taxaGb (p : Peek) : R Amount :=
  produto (Binary64.toNat u128Limit p.shortfall) Config.gbBurnPerWeightedByte
    "estouro aritmético na soma"

/-- Weighted bytes of a transaction, with a floor. -/
def consumoGb (tx : Tx) : ℚ :=
  max (Binary64.mul tx.usefulTxBytes (Config.energyCost tx.txType)) Config.gbMinWeighted

end Eav7
