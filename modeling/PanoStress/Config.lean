import Mathlib.Data.List.Basic

/-!
# The configuration of the 8-hour stress test

The constants at the top of `testnet/8hour-stress-test.mjs` (lines 12-38) as a `Config`, the
deployed values as `stressConfig`, and what `sendBatch` computes from them before it submits:
the round-robin sender (line 117), the round-robin recipient (line 125) and the transfer request
(lines 129-134).

Addresses and hashes are the numbers the source writes in hex. A `Config` carries the facts the
source's constant arrays give for free (both pools non-empty, a positive interval), so that
`wallets[senderIdx]` and `RECIPIENTS[recipientIdx]` are always defined.
-/

namespace PanoStress

/-- An account address (20 bytes). -/
abbrev Address := Nat

/-- A transaction hash (32 bytes). -/
abbrev Hash := Nat

/-- The script's constants. `senders` are the addresses of `wallets` (`SENDERS[i].address`). -/
structure Config where
  senders : List Address
  recipients : List Address
  txPerBatch : Nat
  intervalMinutes : Nat
  durationHours : Nat
  senders_ne : senders ≠ []
  recipients_ne : recipients ≠ []
  intervalMinutes_pos : 0 < intervalMinutes

/-- The deployed constants (lines 13-38). -/
def stressConfig : Config where
  senders := [0xE56E6757b8D4124B235436a246af5DCB0a69D14D, 0x5Ab49BdE3137bE3e1285319B5F789d9f2831d9B5]
  recipients := [0xBcA3d19C24a0ebFc02b4047977F9473C388e4E98,
    0x993669a7793F24b5F2e81c03dB494e0a83EAAE17, 0x649A72A7c3b30a8a347dC7A549D3e50c3eD4c97c]
  txPerBatch := 10
  intervalMinutes := 10
  durationHours := 8
  senders_ne := by simp
  recipients_ne := by simp
  intervalMinutes_pos := by decide

namespace Config

variable (cfg : Config)

/-- `Math.floor((DURATION_HOURS * 60) / INTERVAL_MINUTES)` (line 276). -/
def totalBatches : Nat := cfg.durationHours * 60 / cfg.intervalMinutes

example : stressConfig.totalBatches = 48 := rfl

/-- `i % wallets.length` (line 117). -/
def senderIdx (i : Nat) : Nat := i % cfg.senders.length

/-- `(batchNumber * TX_PER_BATCH + i) % RECIPIENTS.length` (line 125). -/
def recipientIdx (batchNumber i : Nat) : Nat :=
  (batchNumber * cfg.txPerBatch + i) % cfg.recipients.length

theorem senderIdx_lt (i : Nat) : cfg.senderIdx i < cfg.senders.length :=
  Nat.mod_lt _ (List.length_pos.2 cfg.senders_ne)

theorem recipientIdx_lt (batchNumber i : Nat) :
    cfg.recipientIdx batchNumber i < cfg.recipients.length :=
  Nat.mod_lt _ (List.length_pos.2 cfg.recipients_ne)

/-- `wallets[senderIdx].address`: the sender of attempt `i` (lines 117-118). -/
def wallet (i : Nat) : Address := cfg.senders.get ⟨cfg.senderIdx i, cfg.senderIdx_lt i⟩

/-- `RECIPIENTS[recipientIdx]` (line 126). -/
def recipient (batchNumber i : Nat) : Address :=
  cfg.recipients.get ⟨cfg.recipientIdx batchNumber i, cfg.recipientIdx_lt batchNumber i⟩

/-- The sender of attempt `i` is `wallets[i % wallets.length]`. -/
theorem getElem?_senders (i : Nat) : cfg.senders[i % cfg.senders.length]? = some (cfg.wallet i) :=
  List.getElem?_eq_getElem (cfg.senderIdx_lt i)

/-- The recipient of attempt `i` of batch `b` is `RECIPIENTS[(b * TX_PER_BATCH + i) % RECIPIENTS.length]`. -/
theorem getElem?_recipients (b i : Nat) :
    cfg.recipients[(b * cfg.txPerBatch + i) % cfg.recipients.length]? = some (cfg.recipient b i) :=
  List.getElem?_eq_getElem (cfg.recipientIdx_lt b i)

end Config

/-- A plain transaction request, as `wallet.sendTransaction` receives it. -/
structure TxRequest where
  «to» : Address
  value : Nat
  gasLimit : Nat
  gasPrice : Nat
deriving DecidableEq, Repr

/-- `ethers.parseEther('0.01')`, in wei (10¹⁶). -/
def transferValue : Nat := 10000000000000000

/-- `ethers.parseUnits('1', 'gwei')`, in wei (10⁹). -/
def fixedGasPrice : Nat := 1000000000

/-- The request of attempt `i` of batch `batchNumber` (lines 129-134). -/
def txRequest (cfg : Config) (batchNumber i : Nat) : TxRequest where
  «to» := cfg.recipient batchNumber i
  value := transferValue
  gasLimit := 21000
  gasPrice := fixedGasPrice

end PanoStress
