import Mathlib.Algebra.Order.BigOperators.Group.List
import Mathlib.Algebra.Order.Field.Basic
import Mathlib.Tactic.GCongr
import Mathlib.Tactic.Linarith
import Mathlib.Tactic.Positivity
import PanoStress.Proof.Inv

/-!
# What every flush of a run writes

`flush_sessionOk`: in every reachable state, each `updateStatsFile()` that `sendBatch` or the
completion path of `main` has called wrote from stats in which every finished batch counts all
`txPerBatch` attempts, holds one record per success and `confirmed` is the number of its
confirmed records, at most its successes; the counters are the sums over the finished batches and
`totalTxSent = totalTxSuccess + totalTxFailed = txPerBatch * batches.length`. As exact rationals
the snapshot's rates then satisfy `0 ≤ confirmation_rate ≤ success_rate ≤ 100`; both are 0 when
nothing has been sent, and each is 0 exactly when its numerator is. `SnapshotOk` collects all of
it, and `SessionOk.snapshotOk` derives it from the invariant.

They are 0 also when attempts were made and all threw (`allFail_rates_zero`), so a zero rate does
not mean that nothing was sent.
-/

namespace PanoStress

/-! ## Rates -/

theorem rate_zero_right (p : Nat) : rate p 0 = 0 := rfl

theorem rate_nonneg (p t : Nat) : 0 ≤ rate p t := by
  unfold rate; split <;> positivity

theorem rate_le_rate {p q : Nat} (t : Nat) (h : p ≤ q) : rate p t ≤ rate q t := by
  unfold rate
  split
  · gcongr
  · rfl

theorem rate_le_hundred {p t : Nat} (h : p ≤ t) : rate p t ≤ 100 := by
  unfold rate
  split
  · have : (p : ℚ) / t ≤ 1 := (div_le_one (by exact_mod_cast ‹0 < t›)).2 (by exact_mod_cast h)
    linarith
  · norm_num

theorem rate_eq_zero_iff {p t : Nat} (h : p ≤ t) : rate p t = 0 ↔ p = 0 := by
  unfold rate
  split
  · simp [Nat.pos_iff_ne_zero.1 ‹0 < t›]
  · simp; omega

theorem rate_self {t : Nat} (h : 0 < t) : rate t t = 100 := by
  rw [rate, if_pos h, div_self (by exact_mod_cast h.ne'), one_mul]

/-! ## Finished batches -/

section
variable {N : Nat}

theorem BatchOk.confirmed_le {bs : BatchStats} (h : BatchOk N bs) : bs.confirmed ≤ bs.success := by
  rw [h.confirmed, ← h.recorded]
  exact List.countP_le_length _

theorem sumOf_attempts {bs : List BatchStats} (h : ∀ b ∈ bs, BatchOk N b) :
    sumOf (·.success) bs + sumOf (·.failed) bs = N * bs.length := by
  induction bs with
  | nil => rfl
  | cons b bs ih =>
    have hb := (h b (List.mem_cons_self _ _)).attempts
    have := ih fun x hx => h x (List.mem_cons_of_mem _ hx)
    simp only [sumOf, List.map_cons, List.sum_cons, List.length_cons] at this ⊢
    rw [Nat.mul_succ]
    omega

theorem SessionOk.sent_eq {st : Stats} (h : SessionOk N st) :
    st.totalTxSent = N * st.batches.length := by
  rw [h.totals.sent, h.totals.success, h.totals.failed, sumOf_attempts h.batches]

theorem SessionOk.confirmed_le {st : Stats} (h : SessionOk N st) :
    st.totalConfirmed ≤ st.totalTxSuccess := by
  rw [h.totals.confirmed, h.totals.success]
  exact List.sum_le_sum fun b hb => (h.batches b hb).confirmed_le

/-- What a snapshot written from stats `st` reports, with `N` attempts per batch (module doc). -/
structure SnapshotOk (N : Nat) (st : Stats) extends SessionOk N st : Prop where
  confirmed_le : ∀ bs ∈ st.batches, bs.confirmed ≤ bs.success
  sent_eq : st.totalTxSent = N * st.batches.length
  confirmationRate_nonneg : 0 ≤ (updateStatsFile st).confirmationRate
  confirmationRate_le : (updateStatsFile st).confirmationRate ≤ (updateStatsFile st).successRate
  successRate_le : (updateStatsFile st).successRate ≤ 100
  rates_unsent : (updateStatsFile st).totalTransactionsSent = 0 →
    (updateStatsFile st).successRate = 0 ∧ (updateStatsFile st).confirmationRate = 0
  successRate_eq_zero :
    (updateStatsFile st).successRate = 0 ↔ (updateStatsFile st).totalSuccess = 0
  confirmationRate_eq_zero :
    (updateStatsFile st).confirmationRate = 0 ↔ (updateStatsFile st).totalConfirmed = 0

theorem SessionOk.snapshotOk {st : Stats} (h : SessionOk N st) : SnapshotOk N st := by
  have hs : st.totalTxSuccess ≤ st.totalTxSent := by rw [h.totals.sent]; omega
  have hc := h.confirmed_le
  refine ⟨h, fun bs hb => (h.batches bs hb).confirmed_le, h.sent_eq, rate_nonneg _ _,
    rate_le_rate _ hc, rate_le_hundred hs, fun h0 => ?_, rate_eq_zero_iff hs,
    rate_eq_zero_iff (hc.trans hs)⟩
  simp only [updateStatsFile] at h0 ⊢
  rw [h0]
  exact ⟨rate_zero_right _, rate_zero_right _⟩

end

/-! ## Every flush of a run -/

section
variable {cfg : Config}

/-- Every `updateStatsFile()` of `sendBatch` or of `main`'s completion path, in every run. -/
theorem flush_sessionOk {nonces : Address → Nat} {s : State} (h : Reachable cfg nonces s) :
    ∀ p ∈ s.flushes, p.1 ≠ .cleanup → SnapshotOk cfg.txPerBatch p.2 :=
  fun p hp hc => ((inv_reachable h).flushes p hp hc).snapshotOk

end

/-- Start-up, then one batch of the deployed configuration whose ten `getNonce` calls all
throw, up to the interval sleep. -/
def allFailEvents : List Event :=
  [.resolve, .resolve, .resolve] ++ List.replicate 10 .reject ++ [.resolve]

/-- The stats `sendBatch` flushes at the end of that batch. -/
theorem allFail_run : ∃ s, run stressConfig (State.init fun _ => 0) allFailEvents = some s ∧
    s.flushes = [(.sendBatch, ⟨10, 0, 10, 0, [⟨1, [], 0, 10, 0⟩]⟩)] := ⟨_, rfl, rfl⟩

theorem flush_sessionOk_allFail : ∃ s, Reachable stressConfig (fun _ => 0) s ∧
    ∃ p ∈ s.flushes, p.1 = .sendBatch ∧
      p.2.totalTxSent = stressConfig.txPerBatch * p.2.batches.length := by
  obtain ⟨s, hr, hf⟩ := allFail_run
  have hs := (Reachable.init _).run hr
  have hm : (Caller.sendBatch, (⟨10, 0, 10, 0, [⟨1, [], 0, 10, 0⟩]⟩ : Stats)) ∈ s.flushes := by
    simp [hf]
  exact ⟨s, hs, _, hm, rfl, (flush_sessionOk hs _ hm (by decide)).sent_eq⟩

/-- Ten attempts made and all thrown: both rates are 0 though something was sent. -/
theorem allFail_rates_zero : ∃ s, Reachable stressConfig (fun _ => 0) s ∧
    ∃ p ∈ s.flushes, p.1 = .sendBatch ∧ (updateStatsFile p.2).totalTransactionsSent ≠ 0 ∧
      (updateStatsFile p.2).successRate = 0 ∧ (updateStatsFile p.2).confirmationRate = 0 := by
  obtain ⟨s, hr, hf⟩ := allFail_run
  refine ⟨s, (Reachable.init _).run hr, (.sendBatch, ⟨10, 0, 10, 0, [⟨1, [], 0, 10, 0⟩]⟩),
    by simp [hf], rfl, by decide, ?_, ?_⟩ <;> simp [updateStatsFile, rate]

end PanoStress
