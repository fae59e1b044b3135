import PanoStress.Proof.Nonce
import PanoStress.Proof.Schedule

/-!
# What the client asks the node

`calls` is the log of the RPC requests the script makes. `Call.Ok` says what each request may be,
given the request right before it, in the source's own index expressions: `getNetwork` only as
the first one, `getBalance` only of a sender, `getNonce` only of `wallets[i % wallets.length]`
for an attempt `i`, `sendTransaction` only right after the `getNonce` of its own sender, of
0.01 PANO at 21000 gas and 1 gwei to `RECIPIENTS[(b * TX_PER_BATCH + i) % RECIPIENTS.length]`
for an attempt `i` of a batch `b ≤ totalBatches`, and `getTransactionReceipt` only of a hash the
node has accepted. The requests ethers itself sends inside `wallet.sendTransaction` are not in
the log.

`CallInv` adds what a request's successor needs: at `await wallet.getNonce()` the last request is
that `getNonce`. Every stretch of code appends at most one request (`calls_submit`, ...), so every
step keeps `CallInv` (`CallInv.step`, with `Inv` for the loop indices, `Sched` for the batch
bound and `LogInv` for the records' hashes), and `client_requests` holds in every run.
-/

namespace PanoStress

/-- What the client may ask right after `prev`, the node having accepted `accepted`. -/
def Call.Ok (cfg : Config) (accepted : List Transfer) (prev : Option Call) : Call → Prop
  | .getNetwork => prev = none
  | .getBalance a => a ∈ cfg.senders
  | .getNonce a => ∃ i < cfg.txPerBatch, cfg.senders[i % cfg.senders.length]? = some a
  | .sendTransaction a tx => prev = some (.getNonce a) ∧
    ∃ b i, 0 < b ∧ b ≤ cfg.totalBatches ∧ i < cfg.txPerBatch ∧
      cfg.senders[i % cfg.senders.length]? = some a ∧
      cfg.recipients[(b * cfg.txPerBatch + i) % cfg.recipients.length]? = some tx.«to» ∧
      tx.value = 10 ^ 16 ∧ tx.gasLimit = 21000 ∧ tx.gasPrice = 10 ^ 9
  | .getTransactionReceipt h => ∃ t ∈ accepted, t.hash = h

/-- Every request of `calls` is `Ok` after the one before it. -/
def RequestLog (cfg : Config) (accepted : List Transfer) (calls : List Call) : Prop :=
  ∀ l₁ c l₂, calls = l₁ ++ c :: l₂ → c.Ok cfg accepted l₁.getLast?

/-- The request invariant (module doc). -/
structure CallInv (cfg : Config) (s : State) : Prop where
  log : RequestLog cfg s.node.accepted s.calls
  nonce : ∀ bs i, s.pc = .sendBatch ⟨bs, .getNonce i⟩ →
    s.calls.getLast? = some (.getNonce (cfg.wallet i))

section
variable {cfg : Config} {acc : List Transfer} {l : List Call}

theorem Call.Ok.mono {acc' : List Transfer} {p : Option Call} {c : Call} (h : c.Ok cfg acc p)
    (ha : acc <+: acc') : c.Ok cfg acc' p := by
  cases c with
  | getTransactionReceipt =>
    obtain ⟨t, ht, rfl⟩ := h
    exact ⟨t, ha.subset ht, rfl⟩
  | _ => exact h

theorem RequestLog.mono {acc' : List Transfer} (h : RequestLog cfg acc l) (ha : acc <+: acc') :
    RequestLog cfg acc' l :=
  fun l₁ c l₂ he => (h l₁ c l₂ he).mono ha

/-- Appending a request that is `Ok` after the last one. -/
theorem RequestLog.snoc {c : Call} (h : RequestLog cfg acc l) (hc : c.Ok cfg acc l.getLast?) :
    RequestLog cfg acc (l ++ [c]) := by
  intro l₁ x l₂ he
  rcases List.eq_nil_or_concat' l₂ with rfl | ⟨L, b, rfl⟩
  · obtain ⟨rfl, h1⟩ := List.append_inj' he rfl
    cases h1
    exact hc
  · rw [show l₁ ++ x :: (L ++ [b]) = (l₁ ++ x :: L) ++ [b] by simp] at he
    exact h l₁ x L (List.append_inj' he rfl).1

end

section
variable {cfg : Config} {s : State}

theorem calls_submit {bs : BatchStats} {i : Nat} (h : RequestLog cfg s.node.accepted s.calls) :
    CallInv cfg (submit cfg bs i s) := by
  unfold submit; split
  · exact ⟨h.snoc ⟨i, ‹_›, cfg.getElem?_senders i⟩, fun _ _ hp => by cases hp; simp⟩
  · exact ⟨h, nofun⟩

theorem calls_mainLoop {b : Nat} (h : RequestLog cfg s.node.accepted s.calls) :
    CallInv cfg (mainLoop cfg b s) := by
  unfold mainLoop sendBatch; split
  · exact calls_submit h
  · exact ⟨h, nofun⟩

theorem calls_afterBatch {b : Nat} (h : RequestLog cfg s.node.accepted s.calls) :
    CallInv cfg (afterBatch cfg b s) := by
  unfold afterBatch; split
  · exact ⟨h, nofun⟩
  · exact calls_mainLoop h

/-- The receipt loop queries the records of `bs`, whose transfers the node accepted. -/
theorem calls_poll {bs : BatchStats} {j c : Nat} (h : RequestLog cfg s.node.accepted s.calls)
    (hb : ∀ k ∈ bs.transactions.map TxRecord.key, k ∈ s.node.accepted.map Transfer.key) :
    CallInv cfg (poll cfg bs j c s) := by
  unfold poll; split
  · obtain ⟨t, ht, hk⟩ := List.mem_map.1 (hb _ (List.mem_map_of_mem _ (List.getElem?_mem ‹_›)))
    exact ⟨h.snoc ⟨t, ht, congrArg Prod.fst hk⟩, nofun⟩
  · exact calls_afterBatch h

theorem calls_getBalances {i : Nat} (h : RequestLog cfg s.node.accepted s.calls) :
    CallInv cfg (getBalances cfg i s) := by
  unfold getBalances; split
  · exact ⟨h.snoc (List.getElem?_mem ‹_›), nofun⟩
  · exact calls_mainLoop h

/-- The submission follows its own `getNonce`. -/
theorem calls_prepare {bs : BatchStats} {i n : Nat} (h : RequestLog cfg s.node.accepted s.calls)
    (hl : s.calls.getLast? = some (.getNonce (cfg.wallet i))) (hi : i < cfg.txPerBatch)
    (hb : 0 < bs.batchNumber ∧ bs.batchNumber ≤ cfg.totalBatches) :
    CallInv cfg (prepare cfg bs i n s) :=
  ⟨h.snoc ⟨hl, _, i, hb.1, hb.2, hi, cfg.getElem?_senders i, cfg.getElem?_recipients _ i,
    rfl, rfl, rfl⟩, nofun⟩

/-- The open batch's records are accepted transfers. -/
theorem LogInv.open_accepted {bs : BatchStats} {a : Await} (hn : LogInv s)
    (hp : s.pc = .sendBatch ⟨bs, a⟩) :
    ∀ k ∈ bs.transactions.map TxRecord.key, k ∈ s.node.accepted.map Transfer.key := by
  intro k hk
  obtain ⟨tx, htx, rfl⟩ := List.mem_map.1 hk
  rw [← hn.live (by rw [hp]; rfl)]
  exact List.mem_map_of_mem _ (List.mem_flatMap.2 ⟨bs, by simp [hp], htx⟩)

/-- Every step from a reachable state keeps `CallInv`. -/
theorem CallInv.step {s' : State} {e : Event} (hi : Inv cfg s)
    (hn : LogInv s) (hs : Sched cfg s) (h : CallInv cfg s)
    (hst : step cfg s e = some s') : CallInv cfg s' := by
  rcases step_cases hst with ⟨-, rfl⟩ | hr
  · exact ⟨h.log, nofun⟩
  cases hr with
  | network | balance => exact calls_getBalances h.log
  | fatal => exact ⟨h.log, nofun⟩
  | nonce _ hp =>
    have hsc : s.stats.batches.length < cfg.totalBatches := by have := hs.pc; rwa [hp] at this
    obtain ⟨-, hb, ha⟩ := hi.frame hp
    exact calls_prepare h.log (h.nonce _ _ hp) ha
      ⟨by rw [hb.number]; omega, by rw [hb.number]; omega⟩
  | failed | pause => exact calls_submit h.log
  | sent => exact ⟨h.log.mono (List.prefix_append _ _), nofun⟩
  | settle hp | lost hp => exact calls_poll h.log (hn.open_accepted hp)
  | receipt r hp =>
    unfold received
    split <;>
      exact calls_poll h.log (by simpa only [setStatus_keys] using hn.open_accepted hp)
  | interval => exact calls_mainLoop h.log

theorem CallInv.init (nonces : Address → Nat) : CallInv cfg (State.init nonces) := by
  refine ⟨fun l₁ c l₂ he => ?_, nofun⟩
  rcases l₁ with _ | ⟨x, l₁⟩
  · obtain ⟨rfl, -⟩ := List.cons.inj he
    rfl
  · simp [State.init] at he

end

end PanoStress
