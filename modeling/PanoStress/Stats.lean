import Mathlib.Algebra.Order.Field.Rat
import PanoStress.Config

/-!
# Records, batches and the session's stats

The data `sendBatch` builds (`batchStats` and its `transactions`, lines 103-110 and 140-146), the
process-wide `stats` object (lines 51-58) and the snapshot `updateStatsFile` writes (lines
198-229).

The snapshot's rates are the exact rationals the source renders with `toFixed(2)`; the fields
read from the clock (`test_start`, `elapsed_hours`, `last_update`, a batch's `timestamp`) are not
modelled.
-/

namespace PanoStress

/-- A record's `status`: `'pending'`, `'confirmed'` or `'failed'`. -/
inductive TxStatus where
  | pending
  | confirmed
  | failed
deriving DecidableEq, Repr, Inhabited

/-- One entry of `batchStats.transactions` (lines 140-146). -/
structure TxRecord where
  txHash : Hash
  «from» : Address
  «to» : Address
  nonce : Nat
  status : TxStatus
deriving DecidableEq, Repr, Inhabited

/-- `batchStats` (lines 103-110). -/
structure BatchStats where
  batchNumber : Nat
  transactions : List TxRecord
  success : Nat
  failed : Nat
  confirmed : Nat
deriving DecidableEq, Repr

/-- The `stats` object (lines 51-58). -/
structure Stats where
  totalTxSent : Nat
  totalTxSuccess : Nat
  totalTxFailed : Nat
  totalConfirmed : Nat
  batches : List BatchStats
deriving DecidableEq, Repr

/-- `stats` at start-up. -/
def Stats.init : Stats := ⟨0, 0, 0, 0, []⟩

/-- The number of records with status `'confirmed'`. -/
def countConfirmed (txs : List TxRecord) : Nat := txs.countP (·.status == .confirmed)

/-- The sum of one counter over a list of batches. -/
def sumOf (f : BatchStats → Nat) (bs : List BatchStats) : Nat := (bs.map f).sum

/-! ## The snapshot -/

/-- One entry of `recent_batches` (lines 219-225). -/
structure BatchSummary where
  batch : Nat
  success : Nat
  failed : Nat
  confirmed : Nat
deriving DecidableEq, Repr

/-- `statsData`, the object `updateStatsFile` writes (lines 208-226). -/
structure Snapshot where
  totalTransactionsSent : Nat
  totalSuccess : Nat
  totalFailed : Nat
  totalConfirmed : Nat
  successRate : ℚ
  confirmationRate : ℚ
  batchesCompleted : Nat
  recentBatches : List BatchSummary

/-- `total > 0 ? (part / total) * 100 : 0`, the shape of both `successRate` and `confirmRate`
(lines 201-206). -/
def rate (part total : Nat) : ℚ := if 0 < total then (part : ℚ) / total * 100 else 0

/-- The summary of one batch in `recent_batches`. -/
def BatchStats.summary (b : BatchStats) : BatchSummary := ⟨b.batchNumber, b.success, b.failed, b.confirmed⟩

/-- The snapshot `updateStatsFile()` writes for `stats`. -/
def updateStatsFile (stats : Stats) : Snapshot where
  totalTransactionsSent := stats.totalTxSent
  totalSuccess := stats.totalTxSuccess
  totalFailed := stats.totalTxFailed
  totalConfirmed := stats.totalConfirmed
  successRate := rate stats.totalTxSuccess stats.totalTxSent
  confirmationRate := rate stats.totalConfirmed stats.totalTxSent
  batchesCompleted := stats.batches.length
  recentBatches := (stats.batches.drop (stats.batches.length - 5)).map BatchStats.summary

end PanoStress
