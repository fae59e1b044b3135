import PanoStress.Proof.Nonce
import PanoStress.Proof.Poll

/-!
# One tick

What `sendBatch(b)` does for every way its awaits can end. An attempt of the submission loop
ends in one of three ways (`Attempt`): `getNonce` throws, or it answers and `sendTransaction`
throws, or the transfer is sent under some hash; the events that settle it are `Attempt.events`.

`Submitted` relates the state before a stretch of attempts to the state after it: the batch gains
one pending record per sent attempt, with that attempt's hash, sender
`wallets[i % wallets.length]`, recipient `RECIPIENTS[(b * TX_PER_BATCH + i) % RECIPIENTS.length]`
and the nonce its `getNonce` answered, and one failure per other attempt; the counters follow,
nothing is flushed, and the requests are each attempt's `getNonce` and, unless that threw, its
`sendTransaction`. `attempt_run` proves it for one attempt and `Submitted.cons` chains it, so
`submit_run` holds for the whole loop.

`tick_run` composes it with the receipt loop (`poll_run`); `Ticked` collects what the whole tick
did (`tick_effect`). From the start of any tick `b ≤ totalBatches`, and for every list of
`txPerBatch` attempt outcomes and every list of receipt outcomes, one per sent attempt, the tick
runs to its end. It seals exactly one batch,
determined by the outcomes: the records are those of the sent attempts, in order, and each
status comes from its receipt. The tick also flushes once, and its RPC requests are the
attempts' requests, then one receipt query per sent attempt.
-/

namespace PanoStress

/-- How one attempt of the submission loop (lines 114-161) ends. -/
inductive Attempt where
  /-- `await wallet.getNonce()` throws. -/
  | nonceThrows
  /-- `getNonce` answers `n` and `await wallet.sendTransaction(tx)` throws. -/
  | sendThrows (n : Nat)
  /-- `getNonce` answers `n` and `sendTransaction` resolves with a response of hash `h`. -/
  | sent (n : Nat) (h : Hash)
deriving DecidableEq, Repr

namespace Attempt

/-- The events that settle the attempt's awaits: its RPCs, then the pause after a sent one. -/
def events : Attempt → List Event
  | nonceThrows => [.reject]
  | sendThrows n => [.nonce n, .reject]
  | sent n h => [.nonce n, .sent h, .resolve]

/-- Whether the transfer was sent. -/
def isSent : Attempt → Bool
  | sent _ _ => true
  | _ => false

/-- The requests of attempt `i` of batch `b`: the `getNonce` of `wallets[i % wallets.length]`
and, unless it threw, its transfer of 0.01 PANO at 21000 gas and 1 gwei to
`RECIPIENTS[(b * TX_PER_BATCH + i) % RECIPIENTS.length]`. -/
def calls (cfg : Config) (b i : Nat) (o : Attempt) : List Call :=
  have := Nat.mod_lt i (List.length_pos.2 cfg.senders_ne)
  have := Nat.mod_lt (b * cfg.txPerBatch + i) (List.length_pos.2 cfg.recipients_ne)
  let a := cfg.senders[i % cfg.senders.length]
  match o with
  | nonceThrows => [.getNonce a]
  | _ => [.getNonce a, .sendTransaction a
      ⟨cfg.recipients[(b * cfg.txPerBatch + i) % cfg.recipients.length], 10 ^ 16, 21000, 10 ^ 9⟩]

/-- The record attempt `i` of batch `b` adds, if any, as a transfer: its hash, the sender
`wallets[i % wallets.length]`, the recipient
`RECIPIENTS[(b * TX_PER_BATCH + i) % RECIPIENTS.length]` and the nonce `getNonce` answered. -/
def record (cfg : Config) (b i : Nat) (o : Attempt) : Option Transfer :=
  have := Nat.mod_lt i (List.length_pos.2 cfg.senders_ne)
  have := Nat.mod_lt (b * cfg.txPerBatch + i) (List.length_pos.2 cfg.recipients_ne)
  match o with
  | sent n h => some ⟨h, cfg.senders[i % cfg.senders.length],
      cfg.recipients[(b * cfg.txPerBatch + i) % cfg.recipients.length], n⟩
  | _ => none

@[simp] theorem calls_nonceThrows (cfg : Config) (b i : Nat) :
    nonceThrows.calls cfg b i = [.getNonce (cfg.wallet i)] := rfl
@[simp] theorem calls_sendThrows (cfg : Config) (b i n : Nat) :
    (sendThrows n).calls cfg b i =
      [.getNonce (cfg.wallet i), .sendTransaction (cfg.wallet i) (txRequest cfg b i)] := rfl
@[simp] theorem calls_sent (cfg : Config) (b i n : Nat) (h : Hash) :
    (sent n h).calls cfg b i =
      [.getNonce (cfg.wallet i), .sendTransaction (cfg.wallet i) (txRequest cfg b i)] := rfl

@[simp] theorem record_nonceThrows (cfg : Config) (b i : Nat) : nonceThrows.record cfg b i = none :=
  rfl
@[simp] theorem record_sendThrows (cfg : Config) (b i n : Nat) :
    (sendThrows n).record cfg b i = none := rfl
@[simp] theorem record_sent (cfg : Config) (b i n : Nat) (h : Hash) :
    (sent n h).record cfg b i = some ⟨h, cfg.wallet i, cfg.recipient b i, n⟩ := rfl

end Attempt

theorem length_filterMap_record (cfg : Config) (b : Nat) (os : List Attempt) (i : Nat) :
    ((os.enumFrom i).filterMap fun p => p.2.record cfg b p.1).length = os.countP Attempt.isSent := by
  induction os generalizing i with
  | nil => rfl
  | cons o os ih =>
    cases o <;> simp [List.enumFrom_cons, Attempt.isSent, ih]

/-- The receipt loop changes only statuses: the transfers stay and the statuses are the
lookups'. -/
theorem zipWith_apply : ∀ (ls : List Lookup) (txs : List TxRecord), ls.length = txs.length →
    (∀ tx ∈ txs, tx.status = .pending) →
    (List.zipWith Lookup.apply ls txs).map TxRecord.transfer = txs.map TxRecord.transfer ∧
      (List.zipWith Lookup.apply ls txs).map (·.status) = ls.map fun o => o.status .pending
  | [], _, hl, _ => by obtain rfl := List.eq_nil_of_length_eq_zero hl.symm; exact ⟨rfl, rfl⟩
  | _ :: _, [], hl, _ => nomatch hl
  | o :: ls, tx :: txs, hl, h => by
    obtain ⟨ih1, ih2⟩ := zipWith_apply ls txs (by simpa using hl)
      fun x hx => h x (List.mem_cons_of_mem _ hx)
    refine ⟨by simp only [List.zipWith_cons_cons, List.map_cons, ih1]; rfl, ?_⟩
    simp only [List.zipWith_cons_cons, List.map_cons, ih2, Lookup.apply,
      h tx (List.mem_cons_self _ _)]

/-- The attempts `os` from `i` on took the batch from `bs` to `bs'` and the process from `s` to
`t` (module doc). -/
structure Submitted (cfg : Config) (i : Nat) (os : List Attempt) (bs : BatchStats) (s : State)
    (bs' : BatchStats) (t : State) : Prop where
  batch : bs'.batchNumber = bs.batchNumber ∧ bs'.confirmed = bs.confirmed
  success : bs'.success = bs.success + os.countP Attempt.isSent
  failed : bs'.failed = bs.failed + os.countP (!·.isSent)
  records : ∃ txs, bs'.transactions = bs.transactions ++ txs ∧
    txs.map TxRecord.transfer =
      (os.enumFrom i).filterMap (fun p => p.2.record cfg bs.batchNumber p.1) ∧
    ∀ tx ∈ txs, tx.status = .pending
  stats : t.stats.batches = s.stats.batches ∧ t.stats.totalConfirmed = s.stats.totalConfirmed ∧
    t.stats.totalTxSuccess = s.stats.totalTxSuccess + os.countP Attempt.isSent ∧
    t.stats.totalTxFailed = s.stats.totalTxFailed + os.countP (!·.isSent) ∧
    t.stats.totalTxSent = s.stats.totalTxSent + os.length
  flushes : t.flushes = s.flushes
  calls : t.calls = s.calls ++ (os.enumFrom i).flatMap (fun p => p.2.calls cfg bs.batchNumber p.1)

section
variable {cfg : Config}

theorem Submitted.nil (i : Nat) (bs : BatchStats) (s : State) (p : Pc) :
    Submitted cfg i [] bs s bs { s with pc := p } :=
  ⟨⟨rfl, rfl⟩, rfl, rfl, ⟨[], by simp, rfl, by simp⟩, ⟨rfl, rfl, rfl, rfl, rfl⟩, rfl, by simp⟩

/-- Attempt `i`, then the attempts after it. -/
theorem Submitted.cons {i : Nat} {o : Attempt} {os : List Attempt} {bs bs₁ bs' : BatchStats}
    {s s₁ t : State} (h₁ : Submitted cfg i [o] bs s bs₁ s₁)
    (h₂ : Submitted cfg (i + 1) os bs₁ s₁ bs' t) : Submitted cfg i (o :: os) bs s bs' t := by
  obtain ⟨⟨hn₁, hc₁⟩, hs₁, hf₁, ⟨txs₁, ht₁, hk₁, hp₁⟩,
    ⟨hb₁, hcs₁, hss₁, hfs₁, hts₁⟩, hfl₁, hca₁⟩ := h₁
  obtain ⟨⟨hn₂, hc₂⟩, hs₂, hf₂, ⟨txs₂, ht₂, hk₂, hp₂⟩,
    ⟨hb₂, hcs₂, hss₂, hfs₂, hts₂⟩, hfl₂, hca₂⟩ := h₂
  rw [hn₁] at hk₂ hca₂
  have e₁ : (o :: os).countP Attempt.isSent = [o].countP Attempt.isSent + os.countP Attempt.isSent :=
    List.countP_append _ [o] os
  have e₂ : (o :: os).countP (!·.isSent) = [o].countP (!·.isSent) + os.countP (!·.isSent) :=
    List.countP_append _ [o] os
  have e₃ : (o :: os).length = [o].length + os.length := List.length_append [o] os
  refine ⟨⟨hn₂.trans hn₁, hc₂.trans hc₁⟩, by omega, by omega,
    ⟨txs₁ ++ txs₂, by rw [ht₂, ht₁, List.append_assoc], ?_, ?_⟩,
    ⟨hb₂.trans hb₁, hcs₂.trans hcs₁, by omega, by omega, by omega⟩, hfl₂.trans hfl₁, ?_⟩
  · rw [List.map_append, hk₁, hk₂, List.enumFrom_singleton, ← List.filterMap_append,
      List.enumFrom_cons]
    rfl
  · intro tx hx
    rcases List.mem_append.1 hx with hx | hx
    exacts [hp₁ tx hx, hp₂ tx hx]
  · simp only [hca₂, hca₁, List.append_assoc, List.enumFrom_cons, List.enumFrom_nil,
      List.flatMap_cons, List.flatMap_nil, List.append_nil]

theorem submit_lt {bs : BatchStats} {i : Nat} (s : State) (hi : i < cfg.txPerBatch) :
    submit cfg bs i s =
      { s.call (.getNonce (cfg.wallet i)) with pc := .sendBatch ⟨bs, .getNonce i⟩ } :=
  if_pos hi

/-- One attempt, from its `getNonce` to the next iteration. -/
theorem attempt_run {bs : BatchStats} {i : Nat} (s : State) (hi : i < cfg.txPerBatch) (o : Attempt) :
    ∃ s₁ bs₁, run cfg (submit cfg bs i s) o.events = some (submit cfg bs₁ (i + 1) s₁) ∧
      Submitted cfg i [o] bs s bs₁ s₁ := by
  rw [submit_lt s hi]
  cases o <;> refine ⟨_, _, rfl, ⟨rfl, rfl⟩, rfl, rfl, ?_, ⟨rfl, rfl, rfl, rfl, rfl⟩, rfl,
    by simp [prepare, recordSent]⟩
  exacts [⟨[], by simp, rfl, by simp⟩, ⟨[], by simp, rfl, by simp⟩, ⟨[_], rfl, rfl, by simp⟩]

/-- The submission loop from attempt `i`, for every way its attempts end. -/
theorem submit_run (os : List Attempt) : ∀ (i : Nat) (bs : BatchStats) (s : State),
    i + os.length = cfg.txPerBatch →
    ∃ t bs', run cfg (submit cfg bs i s) (os.flatMap Attempt.events) = some t ∧
      t.pc = .sendBatch ⟨bs', .settle⟩ ∧ Submitted cfg i os bs s bs' t := by
  induction os with
  | nil =>
    intro i bs s hi
    refine ⟨_, bs, ?_, rfl, Submitted.nil i bs s _⟩
    rw [submit, if_neg (by simp at hi; omega)]
    rfl
  | cons o os ih =>
    intro i bs s hi
    simp only [List.length_cons] at hi
    obtain ⟨s₁, bs₁, hr₁, h₁⟩ := @attempt_run cfg bs i s (by omega) o
    obtain ⟨t, bs', hr, hp, h₂⟩ := ih (i + 1) bs₁ s₁ (by omega)
    refine ⟨t, bs', ?_, hp, h₁.cons h₂⟩
    rw [List.flatMap_cons, run_append, hr₁, Option.some_bind, hr]

/-- What one tick did, its attempts ending as `os` and the receipt queries of the sent ones as
`ls`: `t` is the process when `sendBatch(b)` returns from `s`, and `bs` the batch it sealed. -/
structure Ticked (cfg : Config) (b : Nat) (s : State) (os : List Attempt) (ls : List Lookup)
    (t : State) (bs : BatchStats) : Prop where
  batches : t.stats.batches = s.stats.batches ++ [bs]
  flushes : t.flushes = s.flushes ++ [(.sendBatch, t.stats)]
  batchNumber : bs.batchNumber = b
  success : bs.success = os.countP Attempt.isSent
  failed : bs.failed = os.countP (!·.isSent)
  records : bs.transactions.map TxRecord.transfer = os.enum.filterMap (fun p => p.2.record cfg b p.1)
  statuses : bs.transactions.map (·.status) = ls.map (fun o => o.status .pending)
  confirmed : bs.confirmed = (ls.map Lookup.hit).sum
  totalTxSent : t.stats.totalTxSent = s.stats.totalTxSent + cfg.txPerBatch
  totalTxSuccess : t.stats.totalTxSuccess = s.stats.totalTxSuccess + bs.success
  totalTxFailed : t.stats.totalTxFailed = s.stats.totalTxFailed + bs.failed
  totalConfirmed : t.stats.totalConfirmed = s.stats.totalConfirmed + bs.confirmed
  calls : t.calls = s.calls ++ os.enum.flatMap (fun p => p.2.calls cfg b p.1) ++
    (os.enum.filterMap fun p => p.2.record cfg b p.1).map (fun t => .getTransactionReceipt t.hash)

/-- A tick, for every way its awaits end, from `main`'s call of `sendBatch(b)` to its return. -/
theorem tick_effect {b : Nat} (s : State) (hb : b ≤ cfg.totalBatches) (os : List Attempt)
    (hos : os.length = cfg.txPerBatch) (ls : List Lookup)
    (hls : ls.length = os.countP Attempt.isSent) :
    ∃ t bs,
      run cfg (mainLoop cfg b s) (os.flatMap Attempt.events ++ .resolve :: ls.map Lookup.event) =
        some (afterBatch cfg b t) ∧ Ticked cfg b s os ls t bs := by
  obtain ⟨t, bs', hr, hp, hsub⟩ := @submit_run cfg os 0 ⟨b, [], 0, 0, 0⟩ s (by omega)
  obtain ⟨⟨hn, hc⟩, hs, hf, ⟨txs, ht, hk, hpend⟩, ⟨hb₁, hcs, hss, hfs, hts⟩, hfl, hca⟩ := hsub
  simp only [List.nil_append, Nat.zero_add] at ht hs hf
  have hl : ls.length = txs.length := by
    rw [hls, ← length_filterMap_record cfg b os 0, ← hk, List.length_map]
  obtain ⟨u, hu, hus, huf, huc⟩ := @poll_run cfg txs [] ls bs' 0 t (by rw [hl]) (by rw [ht]; rfl)
  obtain ⟨hzk, hzs⟩ := zipWith_apply ls txs hl hpend
  have hsettle : step cfg t .resolve = some (poll cfg bs' 0 0 t) := by simp [step, resume, hp]
  rw [@finishBatch_eq cfg u { bs' with transactions := [] ++ List.zipWith Lookup.apply ls txs } _ hc]
    at hu
  let bz := { bs' with transactions := [] ++ List.zipWith Lookup.apply ls txs }
  let c := 0 + (ls.map Lookup.hit).sum
  refine ⟨({ u with stats := u.stats.push bz c } : State).flush .sendBatch, { bz with confirmed := c },
    ?_, by simp [Stats.push, hus, hb₁], by simp [huf, hfl], hn, hs, hf, ?_, hzs, Nat.zero_add _,
    ?_, ?_, ?_, ?_, ?_⟩
  · rw [List.length_nil] at hu
    rw [mainLoop, if_pos hb, sendBatch, run_append, hr, Option.some_bind, run, hsettle,
      Option.some_bind, hu]
    exact congrArg (fun n => some (afterBatch cfg n _)) hn
  · show ([] ++ List.zipWith Lookup.apply ls txs).map TxRecord.transfer = _
    rw [List.nil_append, hzk, hk, List.enum_eq_enumFrom]
  · simp only [Stats.push, State.flush_stats, hus, hts, hos]
  · simp only [Stats.push, State.flush_stats, hus, hss, hs]
  · simp only [Stats.push, State.flush_stats, hus, hfs, hf]
  · simp only [Stats.push, State.flush_stats, hus, hcs]
  · simp only [State.flush_calls, huc, hca, List.enum_eq_enumFrom, ← hk, List.map_map]
    rfl

/-- A tick, for every way its awaits end: from `main`'s call of `sendBatch(b)` to its return,
the attempts ending as `os` and the receipt queries of the sent ones as `ls` (module doc). -/
theorem tick_run {b : Nat} (s : State) (hb : b ≤ cfg.totalBatches) (os : List Attempt)
    (hos : os.length = cfg.txPerBatch) (ls : List Lookup)
    (hls : ls.length = os.countP Attempt.isSent) :
    ∃ t bs,
      run cfg (mainLoop cfg b s) (os.flatMap Attempt.events ++ .resolve :: ls.map Lookup.event) =
        some (afterBatch cfg b t) ∧
      t.stats.batches = s.stats.batches ++ [bs] ∧ t.flushes = s.flushes ++ [(.sendBatch, t.stats)] ∧
      bs.batchNumber = b ∧ bs.success = os.countP Attempt.isSent ∧
      bs.failed = os.countP (!·.isSent) ∧
      bs.transactions.map TxRecord.transfer = os.enum.filterMap (fun p => p.2.record cfg b p.1) ∧
      bs.transactions.map (·.status) = ls.map (fun o => o.status .pending) ∧
      bs.confirmed = (ls.map Lookup.hit).sum ∧
      t.stats.totalTxSent = s.stats.totalTxSent + cfg.txPerBatch ∧
      t.stats.totalTxSuccess = s.stats.totalTxSuccess + bs.success ∧
      t.stats.totalTxFailed = s.stats.totalTxFailed + bs.failed ∧
      t.stats.totalConfirmed = s.stats.totalConfirmed + bs.confirmed ∧
      t.calls = s.calls ++ os.enum.flatMap (fun p => p.2.calls cfg b p.1) ++
        (os.enum.filterMap fun p => p.2.record cfg b p.1).map (fun t => .getTransactionReceipt t.hash) := by
  obtain ⟨t, bs, hr, h⟩ := tick_effect s hb os hos ls hls
  exact ⟨t, bs, hr, h.batches, h.flushes, h.batchNumber, h.success, h.failed, h.records, h.statuses,
    h.confirmed, h.totalTxSent, h.totalTxSuccess, h.totalTxFailed, h.totalConfirmed, h.calls⟩

end

/-- A batch of the deployed configuration in which the `sendTransaction` of attempt 4 throws and
the other nine transfers are sent, every `getNonce` answering 0. -/
def oneThrowsAttempts : List Attempt :=
  (List.range 10).map fun k => if k = 4 then .sendThrows 0 else .sent 0 (100 + k)

theorem tick_run_oneThrows : ∃ t bs,
    run stressConfig (mainLoop stressConfig 1 (State.init fun _ => 0))
        (oneThrowsAttempts.flatMap Attempt.events ++
          .resolve :: (List.replicate 9 (Lookup.answer (some ⟨some 1⟩))).map Lookup.event) =
      some (afterBatch stressConfig 1 t) ∧
    t.stats.batches = [bs] ∧ bs.success = 9 ∧ bs.failed = 1 ∧ bs.confirmed = 9 := by
  obtain ⟨t, bs, hr, hb, -, -, hs, hf, -, -, hc, -⟩ :=
    @tick_run stressConfig 1 (State.init fun _ => 0) (by decide) oneThrowsAttempts rfl
      (List.replicate 9 (Lookup.answer (some ⟨some 1⟩))) rfl
  exact ⟨t, bs, hr, hb, by rw [hs]; rfl, by rw [hf]; rfl, by rw [hc]; rfl⟩

end PanoStress
