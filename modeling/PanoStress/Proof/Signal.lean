import PanoStress.Proof.Session

/-!
# The signal handler

`cleanup` (lines 261-267) runs at any await of a live process: it calls `updateStatsFile()` with
the counters as they are, prints the summary and calls `process.exit(0)` at once. The tick in
progress, if any, is abandoned where it waits: its batch is never pushed, and nothing runs after
the handler (`cleanup_snapshot`, with `CleanupOk` collecting what it says). Since `sendBatch`
bumps the session counters at each attempt
(lines 148-150, 157-159) and pushes the batch only at its end (line 193), the snapshot counts the
finished batches plus the attempts the interrupted tick has made so far. Only `totalConfirmed`,
bumped in the same synchronous stretch as the push (lines 183-194), is always the sum over the
finished batches.

`signal_in_pause`: a signal during the first 500 ms pause exits with one transfer sent and no
batch finished.
-/

namespace PanoStress

section
variable {cfg : Config} {s : State}

theorem Await.made_le {bs : BatchStats} {a : Await} (h : a.Ok cfg bs) :
    a.made cfg.txPerBatch ≤ cfg.txPerBatch := by
  cases a <;> simp only [Await.made, Await.Ok] at h ⊢ <;> omega

/-- The open batch of a live process has confirmed nothing yet and made at most `txPerBatch`
attempts. -/
theorem Inv.open_le (h : Inv cfg s) :
    sumOf (·.confirmed) s.pc.open = 0 ∧
      sumOf (·.success) s.pc.open + sumOf (·.failed) s.pc.open ≤ cfg.txPerBatch := by
  rcases hp : s.pc with _ | _ | ⟨bs, a⟩ | _ | _ | _
  case sendBatch =>
    obtain ⟨-, hb, ha⟩ := h.frame hp
    exact ⟨by simp [Pc.open, hb.confirmed], by simpa [Pc.open, hb.made] using Await.made_le ha⟩
  all_goals exact ⟨rfl, Nat.zero_le _⟩

/-- What the handler does at `s` and what its snapshot reports (module doc). -/
structure CleanupOk (cfg : Config) (s : State) : Prop where
  handles : step cfg s .signal = some (cleanup s)
  exits : (cleanup s).pc = .exited 0
  final : ∀ e, step cfg (cleanup s) e = none
  stats : (cleanup s).stats = s.stats
  flushes : (cleanup s).flushes = s.flushes ++ [(.cleanup, s.stats)]
  batches : ∀ bs ∈ s.stats.batches, BatchOk cfg.txPerBatch bs
  totalConfirmed : (updateStatsFile s.stats).totalConfirmed = sumOf (·.confirmed) s.stats.batches
  totalSuccess : (updateStatsFile s.stats).totalSuccess =
    sumOf (·.success) s.stats.batches + sumOf (·.success) s.pc.open
  totalFailed : (updateStatsFile s.stats).totalFailed =
    sumOf (·.failed) s.stats.batches + sumOf (·.failed) s.pc.open
  totalTransactionsSent : (updateStatsFile s.stats).totalTransactionsSent =
    cfg.txPerBatch * (updateStatsFile s.stats).batchesCompleted +
      (sumOf (·.success) s.pc.open + sumOf (·.failed) s.pc.open)
  made_le : sumOf (·.success) s.pc.open + sumOf (·.failed) s.pc.open ≤ cfg.txPerBatch

/-- The handler at every await of every run. -/
theorem cleanup_snapshot {nonces : Address → Nat} (h : Reachable cfg nonces s) (hl : s.pc.live) :
    CleanupOk cfg s := by
  have hi := inv_reachable h
  have hc := hi.core hl
  obtain ⟨h0, hle⟩ := hi.open_le
  have hsum := sumOf_attempts hc.batches
  obtain ⟨hsent, hsucc, hfail, hconf⟩ := totals_iff.1 hc.totals
  simp only [sumOf_append] at hsucc hfail hconf
  refine ⟨by simp [step, hl], rfl, fun e => by cases e <;> rfl, rfl, rfl, hc.batches,
    by simp [updateStatsFile, hconf, h0], hsucc, hfail, ?_, hle⟩
  simp only [updateStatsFile, hsent, hsucc, hfail]
  omega

end

/-- Start-up and the first submission of batch 1, up to its 500 ms pause. -/
def signalInPauseEvents : List Event := [.resolve, .resolve, .resolve, .nonce 0, .sent 1]

/-- The handler during that pause writes batch 1's attempt so far and no finished batch. -/
theorem cleanup_snapshot_inPause : ∃ s, Reachable stressConfig (fun _ => 0) s ∧ s.pc.live ∧
    (updateStatsFile s.stats).totalTransactionsSent =
      stressConfig.txPerBatch * (updateStatsFile s.stats).batchesCompleted +
        (sumOf (·.success) s.pc.open + sumOf (·.failed) s.pc.open) := by
  obtain ⟨s, hr, hl⟩ : ∃ s, run stressConfig (State.init fun _ => 0) signalInPauseEvents = some s ∧
      s.pc.live := ⟨_, rfl, rfl⟩
  have hs := (Reachable.init _).run hr
  exact ⟨s, hs, hl, (cleanup_snapshot hs hl).totalTransactionsSent⟩

/-- The process exits during batch 1 without pushing it, and the snapshot it writes has one
transfer sent and no batch finished. -/
theorem signal_in_pause : ∃ s s', Reachable stressConfig (fun _ => 0) s ∧
    (∃ bs, s.pc = .sendBatch ⟨bs, .pause 0⟩) ∧ step stressConfig s .signal = some s' ∧
    s'.pc = .exited 0 ∧ (∀ e, step stressConfig s' e = none) ∧ s'.stats.batches = [] ∧
    s'.flushes = [(.cleanup, s.stats)] ∧ (updateStatsFile s.stats).totalTransactionsSent = 1 ∧
    (updateStatsFile s.stats).totalTransactionsSent ≠
      stressConfig.txPerBatch * (updateStatsFile s.stats).batchesCompleted := by
  obtain ⟨s, bs, hr, hp, hs, hf⟩ : ∃ s bs,
      run stressConfig (State.init fun _ => 0) signalInPauseEvents = some s ∧
      s.pc = .sendBatch ⟨bs, .pause 0⟩ ∧ s.stats = ⟨1, 1, 0, 0, []⟩ ∧ s.flushes = [] :=
    ⟨_, _, rfl, rfl, rfl, rfl⟩
  refine ⟨s, cleanup s, (Reachable.init _).run hr, ⟨bs, hp⟩, by simp [step, hp, Pc.live], rfl,
    fun e => by cases e <;> rfl, by simp [cleanup, hs], by simp [cleanup, hf], ?_, ?_⟩ <;>
    simp [updateStatsFile, hs, stressConfig]

end PanoStress
