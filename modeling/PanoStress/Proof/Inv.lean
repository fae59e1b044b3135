import Mathlib.Algebra.BigOperators.Group.List
import PanoStress.Proof.Step

/-!
# The session invariant

`Inv cfg s` holds of every reachable state (`inv_reachable`):

* every `updateStatsFile()` called from `sendBatch` or from `main` wrote from stats in which every
  finished batch is `BatchOk` (all `txPerBatch` attempts counted, one record per success,
  `confirmed` the number of confirmed records) and the four counters are the sums over the
  finished batches (`FlushesOk`);
* while the process runs, the counters are the sums over the finished batches and the open one
  (`Core`), and the open batch is as far as its `Await` says (`FrameCore`, `Await.Ok`): it has made
  `Await.made` attempts, its records from `Await.polled` on are still pending, and the receipt
  loop has counted `Await.counted` confirmations, all of them.

Each stretch of code keeps it given what its caller establishes (`Inv.submit`, `Inv.poll`,
`Inv.finishBatch`, ...); `Inv.step` is the case analysis over `Resume`.
-/

namespace PanoStress

/-! ## Sums and counts -/

@[simp] theorem sumOf_nil (f : BatchStats → Nat) : sumOf f [] = 0 := rfl

@[simp] theorem sumOf_append (f : BatchStats → Nat) (a b : List BatchStats) :
    sumOf f (a ++ b) = sumOf f a + sumOf f b := by simp [sumOf]

@[simp] theorem sumOf_singleton (f : BatchStats → Nat) (b : BatchStats) : sumOf f [b] = f b := by
  simp [sumOf]

theorem countConfirmed_append (a b : List TxRecord) :
    countConfirmed (a ++ b) = countConfirmed a + countConfirmed b := List.countP_append _ _ _

/-- Setting a pending record's status counts it iff the status is `'confirmed'`. -/
theorem countConfirmed_setStatus {bs : BatchStats} {j : Nat} (st : TxStatus)
    (hj : j < bs.transactions.length) (hp : bs.transactions[j].status = .pending) :
    countConfirmed (bs.setStatus j st).transactions =
      countConfirmed bs.transactions + if st = .confirmed then 1 else 0 := by
  simp only [countConfirmed, BatchStats.setStatus, List.modify_eq_set, List.countP_set _ _ _ _ hj]
  simp [List.getElem?_eq_getElem hj, hp]

@[simp] theorem setStatus_batchNumber (bs : BatchStats) (j : Nat) (st : TxStatus) :
    (bs.setStatus j st).batchNumber = bs.batchNumber := rfl
@[simp] theorem setStatus_success (bs : BatchStats) (j : Nat) (st : TxStatus) :
    (bs.setStatus j st).success = bs.success := rfl
@[simp] theorem setStatus_failed (bs : BatchStats) (j : Nat) (st : TxStatus) :
    (bs.setStatus j st).failed = bs.failed := rfl
@[simp] theorem setStatus_confirmed (bs : BatchStats) (j : Nat) (st : TxStatus) :
    (bs.setStatus j st).confirmed = bs.confirmed := rfl

theorem length_setStatus (bs : BatchStats) (j : Nat) (st : TxStatus) :
    (bs.setStatus j st).transactions.length = bs.transactions.length := List.length_modify _ _ _

theorem drop_setStatus (bs : BatchStats) (j : Nat) (st : TxStatus) :
    (bs.setStatus j st).transactions.drop (j + 1) = bs.transactions.drop (j + 1) := by
  apply List.ext_getElem?
  intro k
  simp [BatchStats.setStatus, List.getElem?_modify, show j ≠ j + 1 + k by omega]

/-! ## The invariant -/

/-- A finished batch. -/
structure BatchOk (N : Nat) (bs : BatchStats) : Prop where
  attempts : bs.success + bs.failed = N
  recorded : bs.transactions.length = bs.success
  confirmed : bs.confirmed = countConfirmed bs.transactions

/-- The session counters are the sums over `bs`. -/
structure Totals (st : Stats) (bs : List BatchStats) : Prop where
  sent : st.totalTxSent = st.totalTxSuccess + st.totalTxFailed
  success : st.totalTxSuccess = sumOf (·.success) bs
  failed : st.totalTxFailed = sumOf (·.failed) bs
  confirmed : st.totalConfirmed = sumOf (·.confirmed) bs

/-- Every finished batch is `BatchOk` and the counters are the sums over the finished batches. -/
structure SessionOk (N : Nat) (st : Stats) : Prop where
  batches : ∀ bs ∈ st.batches, BatchOk N bs
  totals : Totals st st.batches

/-- Every `updateStatsFile()` but `cleanup`'s wrote from `SessionOk` stats. -/
def FlushesOk (N : Nat) (fl : List (Caller × Stats)) : Prop :=
  ∀ p ∈ fl, p.1 ≠ .cleanup → SessionOk N p.2

/-- Finished batches `BatchOk`, counters the sums over them and the open batches `o`. -/
structure Core (cfg : Config) (st : Stats) (o : List BatchStats) : Prop where
  batches : ∀ bs ∈ st.batches, BatchOk cfg.txPerBatch bs
  totals : Totals st (st.batches ++ o)

/-- The open batch `bs` of a session with `sealed` finished batches, having made `made` attempts,
its records from `polled` on pending, `counted` of them confirmed. -/
structure FrameCore (sealed : Nat) (bs : BatchStats) (made polled counted : Nat) : Prop where
  number : bs.batchNumber = sealed + 1
  made : bs.success + bs.failed = made
  recorded : bs.transactions.length = bs.success
  confirmed : bs.confirmed = 0
  pending : ∀ tx ∈ bs.transactions.drop polled, tx.status = .pending
  counted : counted = countConfirmed bs.transactions

/-- The attempts made by a batch waiting at an `Await`. -/
def Await.made (N : Nat) : Await → Nat
  | .getNonce i | .sendTransaction i _ _ => i
  | .pause i => i + 1
  | .settle | .getTransactionReceipt _ _ => N

/-- The records the receipt loop has queried. -/
def Await.polled : Await → Nat
  | .getTransactionReceipt j _ => j
  | _ => 0

/-- The confirmations the receipt loop has counted. -/
def Await.counted : Await → Nat
  | .getTransactionReceipt _ c => c
  | _ => 0

/-- What each `Await` promises of its own: the iteration in range, the request of its position,
the queried record present. -/
def Await.Ok (cfg : Config) (bs : BatchStats) : Await → Prop
  | .getNonce i | .pause i => i < cfg.txPerBatch
  | .sendTransaction i _ tx => i < cfg.txPerBatch ∧ tx = txRequest cfg bs.batchNumber i
  | .settle => True
  | .getTransactionReceipt j _ => j < bs.transactions.length

/-- The `Pc` part of the invariant, `sealed` batches finished. -/
def PcOk (cfg : Config) (sealed : Nat) : Pc → Prop
  | .getNetwork | .getBalance _ => sealed = 0
  | .sendBatch ⟨bs, a⟩ =>
    FrameCore sealed bs (a.made cfg.txPerBatch) a.polled a.counted ∧ a.Ok cfg bs
  | .interval b => b = sealed ∧ b < cfg.totalBatches
  | .finished | .exited _ => True

/-- The open batch. -/
def Pc.open : Pc → List BatchStats
  | .sendBatch f => [f.batchStats]
  | _ => []

@[simp] theorem Pc.open_sendBatch (f : Frame) : (Pc.sendBatch f).open = [f.batchStats] := rfl

/-- The session invariant (module doc). -/
structure Inv (cfg : Config) (s : State) : Prop where
  flushes : FlushesOk cfg.txPerBatch s.flushes
  core : s.pc.live → Core cfg s.stats s.pc.open
  pc : PcOk cfg s.stats.batches.length s.pc

theorem Core.sessionOk {cfg : Config} {st : Stats} (h : Core cfg st []) :
    SessionOk cfg.txPerBatch st :=
  ⟨h.batches, by simpa using h.totals⟩

theorem FlushesOk.append {N : Nat} {fl : List (Caller × Stats)} (h : FlushesOk N fl)
    {c : Caller} {st : Stats} (hc : c ≠ .cleanup → SessionOk N st) : FlushesOk N (fl ++ [(c, st)]) := by
  intro p hp
  rcases List.mem_append.1 hp with hp | hp
  · exact h p hp
  · rw [List.mem_singleton.1 hp]; exact hc

theorem totals_iff {st : Stats} {bs : List BatchStats} :
    Totals st bs ↔ st.totalTxSent = st.totalTxSuccess + st.totalTxFailed ∧
      st.totalTxSuccess = sumOf (·.success) bs ∧ st.totalTxFailed = sumOf (·.failed) bs ∧
      st.totalConfirmed = sumOf (·.confirmed) bs :=
  ⟨fun h => ⟨h.1, h.2, h.3, h.4⟩, fun ⟨h1, h2, h3, h4⟩ => ⟨h1, h2, h3, h4⟩⟩

/-! ## The open batch -/

section
variable {n N j c : Nat} {bs : BatchStats}

theorem FrameCore.pending_get (hb : FrameCore n bs N j c) (hj : j < bs.transactions.length) :
    bs.transactions[j].status = .pending :=
  hb.pending _ (by rw [List.drop_eq_getElem_cons hj]; exact List.mem_cons_self _ _)

/-- The receipt loop passes record `j` without touching it. -/
theorem FrameCore.skip (hb : FrameCore n bs N j c) : FrameCore n bs N (j + 1) c :=
  { hb with pending := fun tx hm => hb.pending tx (by
      rw [← List.drop_drop] at hm; exact List.mem_of_mem_drop hm) }

/-- The receipt loop gives the pending record `j` the status `st`. -/
theorem FrameCore.setStatus (hb : FrameCore n bs N j c) (hj : j < bs.transactions.length)
    (st : TxStatus) :
    FrameCore n (bs.setStatus j st) N (j + 1) (c + if st = .confirmed then 1 else 0) where
  number := hb.number
  made := hb.made
  recorded := (length_setStatus bs j st).trans hb.recorded
  confirmed := hb.confirmed
  pending := by rw [drop_setStatus]; exact hb.skip.pending
  counted := by rw [countConfirmed_setStatus st hj (hb.pending_get hj), hb.counted]

end

/-! ## Preservation -/

section
variable {cfg : Config} {s : State}

theorem Core.setStatus {bs : BatchStats} (hc : Core cfg s.stats [bs]) (j : Nat) (st : TxStatus) :
    Core cfg s.stats [bs.setStatus j st] :=
  ⟨hc.batches, by simpa [totals_iff] using hc.totals⟩

theorem completed_inv (hf : FlushesOk cfg.txPerBatch s.flushes) (hc : Core cfg s.stats []) :
    Inv cfg (completed s) :=
  ⟨hf.append fun _ => hc.sessionOk, fun h => (Bool.false_ne_true h).elim, trivial⟩

theorem submit_inv {bs : BatchStats} {i : Nat} (hf : FlushesOk cfg.txPerBatch s.flushes)
    (hc : Core cfg s.stats [bs]) (hb : FrameCore s.stats.batches.length bs i 0 0)
    (hi : i ≤ cfg.txPerBatch) : Inv cfg (submit cfg bs i s) := by
  unfold submit
  split
  · exact ⟨hf, fun _ => hc, hb, ‹_›⟩
  · obtain rfl : i = cfg.txPerBatch := by omega
    exact ⟨hf, fun _ => hc, hb, trivial⟩

theorem mainLoop_inv (hf : FlushesOk cfg.txPerBatch s.flushes) (hc : Core cfg s.stats [])
    {b : Nat} (hb : b = s.stats.batches.length + 1) : Inv cfg (mainLoop cfg b s) := by
  unfold mainLoop
  split
  · refine submit_inv hf ⟨hc.batches, ?_⟩ ⟨hb, rfl, rfl, rfl, by simp, rfl⟩ (Nat.zero_le _)
    have := hc.totals
    simp only [totals_iff, List.append_nil] at this ⊢
    simpa using this
  · exact completed_inv hf hc

theorem afterBatch_inv (hf : FlushesOk cfg.txPerBatch s.flushes) (hc : Core cfg s.stats [])
    {b : Nat} (hb : b = s.stats.batches.length) : Inv cfg (afterBatch cfg b s) := by
  unfold afterBatch
  split
  · exact ⟨hf, fun _ => hc, hb, ‹_›⟩
  · exact mainLoop_inv hf hc (by omega)

/-- The stats once `finishBatch` has pushed `bs` with `c` confirmations. -/
def Stats.push (st : Stats) (bs : BatchStats) (c : Nat) : Stats :=
  { st with totalConfirmed := st.totalConfirmed + c, batches := st.batches ++ [{ bs with confirmed := c }] }

/-- `finishBatch` of a batch whose `confirmed` is still 0 stores `confirmed` whatever its value. -/
theorem finishBatch_eq {bs : BatchStats} {c : Nat} (h : bs.confirmed = 0) :
    finishBatch cfg bs c s =
      afterBatch cfg bs.batchNumber ({ s with stats := s.stats.push bs c }.flush .sendBatch) := by
  unfold finishBatch
  split
  · rfl
  · obtain rfl : c = 0 := by omega
    cases bs
    subst h
    rfl

theorem finishBatch_inv {bs : BatchStats} {j c : Nat} (hf : FlushesOk cfg.txPerBatch s.flushes)
    (hc : Core cfg s.stats [bs]) (hb : FrameCore s.stats.batches.length bs cfg.txPerBatch j c) :
    Inv cfg (finishBatch cfg bs c s) := by
  rw [finishBatch_eq hb.confirmed]
  have hok : BatchOk cfg.txPerBatch { bs with confirmed := c } := ⟨hb.made, hb.recorded, hb.counted⟩
  have hc' : Core cfg (s.stats.push bs c) [] := by
    refine ⟨fun x hx => ?_, ?_⟩
    · rcases List.mem_append.1 hx with hx | hx
      · exact hc.batches x hx
      · rw [List.mem_singleton.1 hx]; exact hok
    · have := hc.totals
      simp only [totals_iff, Stats.push, sumOf_append, sumOf_singleton, hb.confirmed,
        List.append_nil] at this ⊢
      omega
  exact afterBatch_inv (hf.append fun _ => hc'.sessionOk) hc' (by simp [Stats.push, hb.number])

theorem poll_inv {bs : BatchStats} {j c : Nat} (hf : FlushesOk cfg.txPerBatch s.flushes)
    (hc : Core cfg s.stats [bs]) (hb : FrameCore s.stats.batches.length bs cfg.txPerBatch j c) :
    Inv cfg (poll cfg bs j c s) := by
  unfold poll
  split
  · exact ⟨hf, fun _ => hc, hb, (List.getElem?_eq_some_iff.1 ‹_›).1⟩
  · exact finishBatch_inv hf hc hb

theorem received_inv {bs : BatchStats} {j c : Nat} (r : Option Receipt)
    (hf : FlushesOk cfg.txPerBatch s.flushes) (hc : Core cfg s.stats [bs])
    (hb : FrameCore s.stats.batches.length bs cfg.txPerBatch j c)
    (hj : j < bs.transactions.length) : Inv cfg (received cfg bs j c r s) := by
  unfold received
  split
  · simpa using poll_inv hf (hc.setStatus j .confirmed) (hb.setStatus hj .confirmed)
  · simpa using poll_inv hf (hc.setStatus j .failed) (hb.setStatus hj .failed)
  · exact poll_inv hf hc hb.skip

theorem prepare_inv {bs : BatchStats} {i n : Nat} (hf : FlushesOk cfg.txPerBatch s.flushes)
    (hc : Core cfg s.stats [bs]) (hb : FrameCore s.stats.batches.length bs i 0 0)
    (hi : i < cfg.txPerBatch) : Inv cfg (prepare cfg bs i n s) :=
  ⟨hf, fun _ => hc, hb, hi, rfl⟩

theorem recordSent_inv {bs : BatchStats} {i n : Nat} {tx : TxRequest} (h : Hash)
    (hf : FlushesOk cfg.txPerBatch s.flushes) (hc : Core cfg s.stats [bs])
    (hb : FrameCore s.stats.batches.length bs i 0 0) (hi : i < cfg.txPerBatch) :
    Inv cfg (recordSent cfg bs i n tx h s) := by
  refine ⟨hf, fun _ => ⟨hc.batches, ?_⟩, ⟨hb.number, ?_, ?_, hb.confirmed, ?_, ?_⟩, hi⟩
  · have := hc.totals
    simp only [totals_iff, recordSent, Pc.open_sendBatch, sumOf_append, sumOf_singleton] at this ⊢
    omega
  · simp only [Await.made]; have := hb.made; omega
  · simp [hb.recorded]
  · simpa [Await.polled, or_imp, forall_and] using hb.pending
  · simpa [Await.counted, countConfirmed_append, countConfirmed] using hb.counted

theorem recordFailed_inv {bs : BatchStats} {i : Nat} (hf : FlushesOk cfg.txPerBatch s.flushes)
    (hc : Core cfg s.stats [bs]) (hb : FrameCore s.stats.batches.length bs i 0 0)
    (hi : i < cfg.txPerBatch) : Inv cfg (recordFailed cfg bs i s) := by
  refine submit_inv hf ⟨hc.batches, ?_⟩ { hb with made := ?_ } hi
  · have := hc.totals
    simp only [totals_iff, sumOf_append, sumOf_singleton] at this ⊢
    omega
  · have := hb.made; simp only; omega

theorem getBalances_inv {i : Nat} (hf : FlushesOk cfg.txPerBatch s.flushes)
    (hc : Core cfg s.stats []) (h0 : s.stats.batches.length = 0) : Inv cfg (getBalances cfg i s) := by
  unfold getBalances
  split
  · exact ⟨hf, fun _ => hc, h0⟩
  · exact mainLoop_inv hf hc (by omega)

theorem cleanup_inv (hf : FlushesOk cfg.txPerBatch s.flushes) : Inv cfg (cleanup s) :=
  ⟨hf.append fun h => absurd rfl h, fun h => (Bool.false_ne_true h).elim, trivial⟩

theorem Inv.frame {bs : BatchStats} {a : Await} (h : Inv cfg s) (hp : s.pc = .sendBatch ⟨bs, a⟩) :
    Core cfg s.stats [bs] ∧
      FrameCore s.stats.batches.length bs (a.made cfg.txPerBatch) a.polled a.counted ∧
      a.Ok cfg bs := by
  have hc := h.core (by rw [hp]; rfl)
  have hpc := h.pc
  rw [hp] at hc hpc
  exact ⟨hc, hpc⟩

theorem Inv.idle {p : Pc} (h : Inv cfg s) (hp : s.pc = p) (hl : p.live) (ho : p.open = []) :
    Core cfg s.stats [] ∧ PcOk cfg s.stats.batches.length p := by
  have hc := h.core (hp ▸ hl)
  rw [hp, ho] at hc
  exact ⟨hc, hp ▸ h.pc⟩

theorem Inv.step {s' : State} {e : Event} (h : Inv cfg s) (hs : step cfg s e = some s') :
    Inv cfg s' := by
  rcases step_cases hs with ⟨-, rfl⟩ | hr
  · exact cleanup_inv h.flushes
  cases hr with
  | network hp | balance hp =>
    obtain ⟨hc, h0⟩ := h.idle hp rfl rfl
    exact getBalances_inv h.flushes hc h0
  | fatal => exact ⟨h.flushes, fun h => (Bool.false_ne_true h).elim, trivial⟩
  | nonce _ hp =>
    obtain ⟨hc, hb, hi⟩ := h.frame hp
    exact prepare_inv h.flushes hc hb hi
  | failed hp =>
    rcases hp with hp | ⟨n, tx, hp⟩
    · obtain ⟨hc, hb, hi⟩ := h.frame hp
      exact recordFailed_inv h.flushes hc hb hi
    · obtain ⟨hc, hb, hi, -⟩ := h.frame hp
      exact recordFailed_inv h.flushes hc hb hi
  | sent x hp =>
    obtain ⟨hc, hb, hi, -⟩ := h.frame hp
    exact recordSent_inv x h.flushes hc hb hi
  | pause hp =>
    obtain ⟨hc, hb, hi⟩ := h.frame hp
    exact submit_inv h.flushes hc hb hi
  | settle hp =>
    obtain ⟨hc, hb, -⟩ := h.frame hp
    exact poll_inv h.flushes hc hb
  | receipt r hp =>
    obtain ⟨hc, hb, hj⟩ := h.frame hp
    exact received_inv r h.flushes hc hb hj
  | lost hp =>
    obtain ⟨hc, hb, -⟩ := h.frame hp
    exact poll_inv h.flushes hc hb.skip
  | interval hp =>
    obtain ⟨hc, hb, -⟩ := h.idle hp rfl rfl
    exact mainLoop_inv h.flushes hc (by omega)

theorem Inv.init (nonces : Address → Nat) : Inv cfg (State.init nonces) :=
  ⟨fun _ h => (List.not_mem_nil _ h).elim, fun _ => ⟨fun _ h => (List.not_mem_nil _ h).elim,
    ⟨rfl, rfl, rfl, rfl⟩⟩, rfl⟩

theorem inv_reachable {nonces : Address → Nat} (h : Reachable cfg nonces s) : Inv cfg s :=
  Reachable.induction (Inv.init nonces) (fun _ _ _ _ hi hs => hi.step hs) h

end

end PanoStress
