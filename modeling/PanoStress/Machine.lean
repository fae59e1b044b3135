import Mathlib.Logic.Relation
import PanoStress.Node
import PanoStress.Stats

/-!
# The event-loop machine of `main` and `sendBatch`

The script runs on one timeline: `main` awaits `sendBatch(batch)`, which awaits its RPCs and
timers one after another, and the only other code that runs is the `SIGINT`/`SIGTERM` handler
`cleanup`, between two awaited steps. A `State` is the process suspended at one `await` (`Pc`,
with `sendBatch`'s locals in a `Frame`); `step` settles the awaited promise with an `Event` and
runs the synchronous code up to the next await, or runs the handler. Each stretch of code between
two awaits is one definition below, citing its lines of `testnet/8hour-stress-test.mjs`.

`wallet.getNonce()` passes no block tag, so ethers asks the node for the sender's transaction
count at the latest block; which count the node answers is the environment's choice
(`Event.nonce`), and the script keeps it unchecked. The node accepts the transfer when
`sendTransaction` resolves, assigning it the sender's pending nonce (`Node.accept`). How every
other await settles is the environment's choice. The state logs each RPC request the script makes
(`calls`) and the `stats` each `updateStatsFile()` writes from (`flushes`). Console and log-file
output is not modelled.
-/

namespace PanoStress

/-- A transaction receipt; the script reads only its `status`. -/
structure Receipt where
  status : Option Nat
deriving DecidableEq, Repr

/-- How the awaited promise settles, or the signal. -/
inductive Event where
  /-- A timer fires, or `getNetwork` or `getBalance` resolves. -/
  | resolve
  /-- `getNonce` resolves with the count `n`. -/
  | nonce (n : Nat)
  /-- The awaited RPC throws. -/
  | reject
  /-- `sendTransaction` resolves with a response of hash `hash`: the node accepted it. -/
  | sent (hash : Hash)
  /-- `getTransactionReceipt` resolves; `none` is `null`. -/
  | receipt (r : Option Receipt)
  /-- `SIGINT` or `SIGTERM` is delivered. -/
  | signal
deriving DecidableEq, Repr

/-- An RPC request the script makes. The requests ethers makes on its own inside
`wallet.sendTransaction` (the pending nonce, the fee data, the chain id) are not in the log. -/
inductive Call where
  | getNetwork
  | getBalance (a : Address)
  | getNonce (a : Address)
  | sendTransaction (a : Address) (tx : TxRequest)
  | getTransactionReceipt (h : Hash)
deriving DecidableEq, Repr

/-- The caller of `updateStatsFile()`. -/
inductive Caller where
  | sendBatch
  | main
  | cleanup
deriving DecidableEq, Repr

/-- Where `sendBatch` waits. -/
inductive Await where
  /-- `await wallet.getNonce()` in iteration `i` (line 122). -/
  | getNonce (i : Nat)
  /-- `await wallet.sendTransaction(tx)` in iteration `i`, `getNonce` having answered `nonce`
  (line 137). -/
  | sendTransaction (i nonce : Nat) (tx : TxRequest)
  /-- The 500 ms pause after the submission of iteration `i` (line 153). -/
  | pause (i : Nat)
  /-- The 3 s settle delay (line 166). -/
  | settle
  /-- `await provider.getTransactionReceipt(tx.txHash)` for record `j`, with `confirmed` so far
  (line 171). -/
  | getTransactionReceipt (j confirmed : Nat)
deriving DecidableEq, Repr

/-- `sendBatch`'s frame: its `batchStats` and where it waits. -/
structure Frame where
  batchStats : BatchStats
  await : Await
deriving DecidableEq, Repr

/-- Where the process is. -/
inductive Pc where
  /-- `await provider.getNetwork()` (line 281). -/
  | getNetwork
  /-- `await provider.getBalance(wallets[i].address)` (line 287). -/
  | getBalance (i : Nat)
  /-- Inside `await sendBatch(batch)` (line 307). -/
  | sendBatch (f : Frame)
  /-- The interval sleep after batch `batch` (line 313). -/
  | interval (batch : Nat)
  /-- `main` has returned. -/
  | finished
  /-- `process.exit(code)`. -/
  | exited (code : Nat)
deriving DecidableEq, Repr

/-- Whether the process still runs. -/
def Pc.live : Pc → Bool
  | .finished | .exited _ => false
  | _ => true

/-- The process, suspended at `pc`. -/
structure State where
  pc : Pc
  stats : Stats
  node : Node
  calls : List Call
  flushes : List (Caller × Stats)

namespace State

/-- The process at `main`'s first await: nothing sent, the node at pending nonces `nonces`. -/
def init (nonces : Address → Nat) : State :=
  ⟨.getNetwork, Stats.init, Node.init nonces, [.getNetwork], []⟩

/-- The client makes the request `c`. -/
def call (s : State) (c : Call) : State := { s with calls := s.calls ++ [c] }

/-- `updateStatsFile()`, called from `c`. -/
def flush (s : State) (c : Caller) : State := { s with flushes := s.flushes ++ [(c, s.stats)] }

end State

/-- `tx.status = st` on record `j` of `bs`. -/
def BatchStats.setStatus (bs : BatchStats) (j : Nat) (st : TxStatus) : BatchStats :=
  { bs with transactions := bs.transactions.modify (fun tx => { tx with status := st }) j }

section
variable (cfg : Config)

/-- `cleanup()` (lines 261-267): `updateStatsFile()`, the summary, `process.exit(0)`. -/
def cleanup (s : State) : State := { s.flush .cleanup with pc := .exited 0 }

/-- The completion path (lines 317-319); `main` returns. -/
def completed (s : State) : State := { s.flush .main with pc := .finished }

/-- Iteration `i` of the submission loop (lines 114-122) up to `await wallet.getNonce()`; past
the last iteration, lines 163-166 up to the settle delay. -/
def submit (bs : BatchStats) (i : Nat) (s : State) : State :=
  if i < cfg.txPerBatch then { s.call (.getNonce (cfg.wallet i)) with pc := .sendBatch ⟨bs, .getNonce i⟩ }
  else { s with pc := .sendBatch ⟨bs, .settle⟩ }

/-- `sendBatch(batchNumber)` (lines 99-114) up to its first await. -/
def sendBatch (batchNumber : Nat) (s : State) : State := submit cfg ⟨batchNumber, [], 0, 0, 0⟩ 0 s

/-- The test of `main`'s batch loop (line 306): `sendBatch(batch)`, or the completion path. -/
def mainLoop (batch : Nat) (s : State) : State :=
  if batch ≤ cfg.totalBatches then sendBatch cfg batch s else completed s

/-- Lines 309-315 once `sendBatch(batch)` has returned: the interval sleep, or the loop test. -/
def afterBatch (batch : Nat) (s : State) : State :=
  if batch < cfg.totalBatches then { s with pc := .interval batch } else mainLoop cfg (batch + 1) s

/-- Lines 183-194: `confirmed` stored if positive, `stats.batches.push(batchStats)`,
`updateStatsFile()`; `sendBatch` returns. -/
def finishBatch (bs : BatchStats) (confirmed : Nat) (s : State) : State :=
  let bs := if 0 < confirmed then { bs with confirmed := confirmed } else bs
  let stats := if 0 < confirmed then
    { s.stats with totalConfirmed := s.stats.totalConfirmed + confirmed } else s.stats
  afterBatch cfg bs.batchNumber
    ({ s with stats := { stats with batches := stats.batches ++ [bs] } }.flush .sendBatch)

/-- The receipt loop (line 169) at record `j`, up to `await getTransactionReceipt(tx.txHash)`;
past the last record, `finishBatch`. -/
def poll (bs : BatchStats) (j confirmed : Nat) (s : State) : State :=
  match bs.transactions[j]? with
  | some tx => { s.call (.getTransactionReceipt tx.txHash) with
      pc := .sendBatch ⟨bs, .getTransactionReceipt j confirmed⟩ }
  | none => finishBatch cfg bs confirmed s

/-- Lines 172-177 once the query of record `j` resolves with `r`, then the next record. -/
def received (bs : BatchStats) (j confirmed : Nat) : Option Receipt → State → State
  | some ⟨some 1⟩ => poll cfg (bs.setStatus j .confirmed) (j + 1) (confirmed + 1)
  | some ⟨some 0⟩ => poll cfg (bs.setStatus j .failed) (j + 1) confirmed
  | _ => poll cfg bs (j + 1) confirmed

/-- Lines 124-137 once `getNonce` resolves with `nonce`, up to
`await wallet.sendTransaction(tx)`. -/
def prepare (bs : BatchStats) (i nonce : Nat) (s : State) : State :=
  let tx := txRequest cfg bs.batchNumber i
  { s.call (.sendTransaction (cfg.wallet i) tx) with
    pc := .sendBatch ⟨bs, .sendTransaction i nonce tx⟩ }

/-- Lines 138-153 once `sendTransaction` resolves with hash `h`: the record, the counters, the
pause. -/
def recordSent (bs : BatchStats) (i nonce : Nat) (tx : TxRequest) (h : Hash) (s : State) :
    State :=
  { s with
    node := s.node.accept (cfg.wallet i) tx h
    stats := { s.stats with
      totalTxSuccess := s.stats.totalTxSuccess + 1, totalTxSent := s.stats.totalTxSent + 1 }
    pc := .sendBatch ⟨{ bs with
      transactions := bs.transactions ++ [⟨h, cfg.wallet i, tx.«to», nonce, .pending⟩]
      success := bs.success + 1 }, .pause i⟩ }

/-- The `catch` of iteration `i` (lines 155-160), then the next iteration. -/
def recordFailed (bs : BatchStats) (i : Nat) (s : State) : State :=
  submit cfg { bs with failed := bs.failed + 1 } (i + 1)
    { s with stats := { s.stats with
      totalTxFailed := s.stats.totalTxFailed + 1, totalTxSent := s.stats.totalTxSent + 1 } }

/-- The balance loop (line 286) at wallet `i`; past the last wallet, `main`'s batch loop. -/
def getBalances (i : Nat) (s : State) : State :=
  match cfg.senders[i]? with
  | some a => { s.call (.getBalance a) with pc := .getBalance i }
  | none => mainLoop cfg 1 s

/-- `main` resumes at `pc` when the promise it awaits settles with `e`; `none` if `e` cannot
settle that promise. -/
def resume (s : State) : Pc → Event → Option State
  | .getNetwork, .resolve => some (getBalances cfg 0 s)
  | .getBalance i, .resolve => some (getBalances cfg (i + 1) s)
  | .getNetwork, .reject => some { s with pc := .exited 1 }
  | .getBalance _, .reject => some { s with pc := .exited 1 }
  | .sendBatch ⟨bs, .getNonce i⟩, .nonce n => some (prepare cfg bs i n s)
  | .sendBatch ⟨bs, .getNonce i⟩, .reject => some (recordFailed cfg bs i s)
  | .sendBatch ⟨bs, .sendTransaction i nonce tx⟩, .sent h => some (recordSent cfg bs i nonce tx h s)
  | .sendBatch ⟨bs, .sendTransaction i _ _⟩, .reject => some (recordFailed cfg bs i s)
  | .sendBatch ⟨bs, .pause i⟩, .resolve => some (submit cfg bs (i + 1) s)
  | .sendBatch ⟨bs, .settle⟩, .resolve => some (poll cfg bs 0 0 s)
  | .sendBatch ⟨bs, .getTransactionReceipt j c⟩, .receipt r => some (received cfg bs j c r s)
  | .sendBatch ⟨bs, .getTransactionReceipt j c⟩, .reject => some (poll cfg bs (j + 1) c s)
  | .interval batch, .resolve => some (mainLoop cfg (batch + 1) s)
  | _, _ => none

/-- One step of the process: `cleanup` on a signal while it runs, else `main` resumes. -/
def step (s : State) : Event → Option State
  | .signal => if s.pc.live then some (cleanup s) else none
  | e => resume cfg s s.pc e

/-- The process after the events `es`, if each can happen in turn. -/
def run (s : State) : List Event → Option State
  | [] => some s
  | e :: es => (step cfg s e).bind (run · es)

/-- `s` is reachable from start-up with the node at pending nonces `nonces`. -/
def Reachable (nonces : Address → Nat) (s : State) : Prop :=
  Relation.ReflTransGen (fun s s' => ∃ e, step cfg s e = some s') (State.init nonces) s

end

end PanoStress
