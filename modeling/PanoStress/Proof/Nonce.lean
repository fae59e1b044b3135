import Mathlib.Data.List.Infix
import PanoStress.Proof.Inv

/-!
# Nonces

A state waits at one await, so the client has at most one request outstanding: a submission's
`getNonce` and its `sendTransaction` are never interleaved with another submission, and the node
accepts the client's transfers in the order the records are made. `LogInv` says so: the
client's records in creation order (`State.records`: the finished batches', then the open
one's) are the node's accepted transfers, as far as hash, sender and recipient go; after the
handler has abandoned an open batch they are a prefix of them. Every stretch of code other than
`recordSent` and `cleanup` leaves the node and the records' keys alone (`Quiet`), so every step
keeps `LogInv` (`LogInv.step`).

The nonce is another matter. A record stores what `await wallet.getNonce()` answered (lines 122
and 144), the sender's count at the latest block, while inside `wallet.sendTransaction` ethers
fills in the pending nonce, which is the one the node assigns (`Node.accept`). When nothing is
mined during a batch the answers stay at the count the batch began with: in
`nonce_recorded_latest` batch 1 of the deployed configuration records nonce 5 ten times, while
the node assigned its transfers 5, 5, 6, 6, ..., 9, 9.
-/

namespace PanoStress

/-- The client's records in creation order. -/
def State.records (s : State) : List TxRecord := (s.stats.batches ++ s.pc.open).flatMap (·.transactions)

/-- A record as a transfer, with its recorded nonce. -/
def TxRecord.transfer (r : TxRecord) : Transfer := ⟨r.txHash, r.«from», r.«to», r.nonce⟩

/-- A transfer in the node's log as far as the client can name it: hash, sender, recipient. -/
def Transfer.key (t : Transfer) : Hash × Address × Address := (t.hash, t.«from», t.«to»)

/-- A record's hash, sender and recipient. -/
def TxRecord.key (r : TxRecord) : Hash × Address × Address := (r.txHash, r.«from», r.«to»)

/-- The log invariant (module doc). -/
structure LogInv (s : State) : Prop where
  accepted : s.records.map TxRecord.key <+: s.node.accepted.map Transfer.key
  live : s.pc.live → s.records.map TxRecord.key = s.node.accepted.map Transfer.key

/-- `t` has `s`'s node and records whose keys are those of `rs`. -/
structure Quiet (s t : State) (rs : List TxRecord) : Prop where
  node : t.node = s.node
  records : t.records.map TxRecord.key = rs.map TxRecord.key

theorem setStatus_keys (bs : BatchStats) (j : Nat) (st : TxStatus) :
    (bs.setStatus j st).transactions.map TxRecord.key = bs.transactions.map TxRecord.key := by
  apply List.ext_getElem?
  intro k
  by_cases hk : j = k <;> simp [BatchStats.setStatus, List.getElem?_modify, hk]
  cases bs.transactions[k]? <;> rfl

section
variable {cfg : Config} {s : State}

theorem quiet_completed : Quiet s (completed s) (s.stats.batches.flatMap (·.transactions)) :=
  ⟨rfl, by simp [State.records, Pc.open, completed]⟩

theorem quiet_submit {bs : BatchStats} {i : Nat} :
    Quiet s (submit cfg bs i s) (s.stats.batches.flatMap (·.transactions) ++ bs.transactions) := by
  unfold submit
  split <;> exact ⟨rfl, by simp [State.records]⟩

theorem quiet_mainLoop {b : Nat} :
    Quiet s (mainLoop cfg b s) (s.stats.batches.flatMap (·.transactions)) := by
  unfold mainLoop sendBatch
  split
  · simpa using @quiet_submit cfg s ⟨b, [], 0, 0, 0⟩ 0
  · exact quiet_completed

theorem quiet_afterBatch {b : Nat} :
    Quiet s (afterBatch cfg b s) (s.stats.batches.flatMap (·.transactions)) := by
  unfold afterBatch
  split
  · exact ⟨rfl, by simp [State.records, Pc.open]⟩
  · exact quiet_mainLoop

theorem quiet_finishBatch {bs : BatchStats} {c : Nat} :
    Quiet s (finishBatch cfg bs c s) (s.stats.batches.flatMap (·.transactions) ++ bs.transactions) := by
  unfold finishBatch
  split <;> exact ⟨quiet_afterBatch.node, by rw [quiet_afterBatch.records]; simp⟩

theorem quiet_poll {bs : BatchStats} {j c : Nat} :
    Quiet s (poll cfg bs j c s) (s.stats.batches.flatMap (·.transactions) ++ bs.transactions) := by
  unfold poll
  split
  · exact ⟨rfl, by simp [State.records]⟩
  · exact quiet_finishBatch

theorem quiet_received {bs : BatchStats} {j c : Nat} (r : Option Receipt) :
    Quiet s (received cfg bs j c r s) (s.stats.batches.flatMap (·.transactions) ++ bs.transactions) := by
  unfold received
  split
  any_goals exact quiet_poll
  all_goals exact ⟨quiet_poll.node, by rw [quiet_poll.records]; simp [setStatus_keys]⟩

theorem quiet_getBalances {i : Nat} :
    Quiet s (getBalances cfg i s) (s.stats.batches.flatMap (·.transactions)) := by
  unfold getBalances
  split
  · exact ⟨rfl, by simp [State.records, Pc.open]⟩
  · exact quiet_mainLoop

theorem records_sendBatch {bs : BatchStats} {a : Await} (hp : s.pc = .sendBatch ⟨bs, a⟩) :
    s.records = s.stats.batches.flatMap (·.transactions) ++ bs.transactions := by
  simp [State.records, hp]

theorem records_idle {p : Pc} (hp : s.pc = p) (ho : p.open = []) :
    s.records = s.stats.batches.flatMap (·.transactions) := by
  simp [State.records, hp, ho]

/-- A quiet stretch from a live state keeps the invariant. -/
theorem LogInv.quiet {t : State} {rs : List TxRecord} (h : LogInv s) (hl : s.pc.live)
    (hq : Quiet s t rs) (hr : rs.map TxRecord.key = s.records.map TxRecord.key) : LogInv t where
  accepted := by rw [hq.records, hr, hq.node]; exact h.accepted
  live _ := by rw [hq.records, hr, hq.node]; exact h.live hl

theorem LogInv.step {s' : State} {e : Event} (h : LogInv s) (hs : step cfg s e = some s') :
    LogInv s' := by
  have hl := step_live hs
  rcases step_cases hs with ⟨-, rfl⟩ | hr
  · refine ⟨List.IsPrefix.trans ?_ h.accepted, fun hl => (Bool.false_ne_true hl).elim⟩
    rw [@records_idle (cleanup s) _ rfl rfl, State.records, List.flatMap_append, List.map_append]
    exact List.prefix_append _ _
  cases hr with
  | network hp | balance hp => exact h.quiet hl quiet_getBalances (by rw [records_idle hp rfl])
  | fatal hp =>
    have ho : s.pc.open = [] := by rcases hp with hp | ⟨i, hp⟩ <;> rw [hp] <;> rfl
    exact h.quiet hl ⟨rfl, by rw [@records_idle _ (.exited 1) rfl rfl, records_idle rfl ho]⟩ rfl
  | nonce n hp => exact h.quiet hl ⟨rfl, by simp [State.records, hp, prepare]⟩ rfl
  | @failed bs i hp =>
    obtain ⟨a, ha⟩ : ∃ a, s.pc = .sendBatch ⟨bs, a⟩ := by
      rcases hp with hp | ⟨_, _, hp⟩ <;> exact ⟨_, hp⟩
    have hq := @quiet_submit cfg { s with stats := { s.stats with
        totalTxFailed := s.stats.totalTxFailed + 1, totalTxSent := s.stats.totalTxSent + 1 } }
      { bs with failed := bs.failed + 1 } (i + 1)
    exact h.quiet hl ⟨hq.node, hq.records⟩ (by rw [records_sendBatch ha])
  | @sent bs i n tx x hp =>
    have hr : (recordSent cfg bs i n tx x s).records =
        s.records ++ [⟨x, cfg.wallet i, tx.«to», n, .pending⟩] := by
      rw [records_sendBatch hp]; simp [State.records, recordSent]
    have heq : (recordSent cfg bs i n tx x s).records.map TxRecord.key =
        (recordSent cfg bs i n tx x s).node.accepted.map Transfer.key := by
      rw [hr, List.map_append, h.live hl]
      simp [recordSent, TxRecord.key, Transfer.key]
    exact ⟨heq ▸ List.prefix_refl _, fun _ => heq⟩
  | pause hp => exact h.quiet hl quiet_submit (by rw [records_sendBatch hp])
  | settle hp | lost hp => exact h.quiet hl quiet_poll (by rw [records_sendBatch hp])
  | receipt r hp => exact h.quiet hl (quiet_received r) (by rw [records_sendBatch hp])
  | interval hp => exact h.quiet hl quiet_mainLoop (by rw [records_idle hp rfl])

theorem LogInv.init (nonces : Address → Nat) : LogInv (State.init nonces) :=
  ⟨List.prefix_refl _, fun _ => rfl⟩

end

/-- Start-up, then batch 1 of the deployed configuration with every transfer sent and every
`getNonce` answering 5, the senders' count at the latest block when nothing is mined during the
batch. -/
def latestNonceEvents : List Event :=
  [.resolve, .resolve, .resolve] ++
    (List.range 10).flatMap fun k => [.nonce 5, .sent (100 + k), .resolve]

/-- The ten records are the node's ten transfers, but all hold nonce 5, while the node assigned
each sender 5, 6, 7, 8, 9. -/
theorem nonce_recorded_latest : ∃ s,
    run stressConfig (State.init fun _ => 5) latestNonceEvents = some s ∧
    s.records.map TxRecord.key = s.node.accepted.map Transfer.key ∧
    s.records.map (·.nonce) = List.replicate 10 5 ∧
    s.node.accepted.map (·.nonce) = [5, 5, 6, 6, 7, 7, 8, 8, 9, 9] :=
  ⟨_, rfl, rfl, rfl, rfl⟩

end PanoStress
