import Mathlib.Data.List.Infix
import PanoStress.Proof.Step

/-!
# The session history only grows

`Extends s t`: `t`'s sealed batches extend `s`'s, untouched, and none of the four session
counters is lower in `t`. Every stretch of code between two awaits and the handler keep it
(`extends_submit`, `extends_finishBatch`, ...), so one step does (`extends_step`) and a whole run
does (`history_extends`): `stats.batches` is an append-only history whose entries are never
modified once pushed, and the counters never decrease, from any state and for any events.
-/

namespace PanoStress

/-- `t`'s history extends `s`'s (module doc). -/
structure Extends (s t : State) : Prop where
  batches : s.stats.batches <+: t.stats.batches
  sent : s.stats.totalTxSent ≤ t.stats.totalTxSent
  success : s.stats.totalTxSuccess ≤ t.stats.totalTxSuccess
  failed : s.stats.totalTxFailed ≤ t.stats.totalTxFailed
  confirmed : s.stats.totalConfirmed ≤ t.stats.totalConfirmed

section
variable {cfg : Config} {s t u : State}

theorem Extends.refl (s : State) : Extends s s :=
  ⟨List.prefix_refl _, le_rfl, le_rfl, le_rfl, le_rfl⟩

theorem Extends.trans (h : Extends s t) (h' : Extends t u) : Extends s u :=
  ⟨h.batches.trans h'.batches, h.sent.trans h'.sent, h.success.trans h'.success,
    h.failed.trans h'.failed, h.confirmed.trans h'.confirmed⟩

/-- A state with `s`'s stats extends `s`. -/
theorem Extends.of_stats (h : t.stats = s.stats) : Extends s t := by
  constructor <;> simp [h]

theorem extends_submit {bs : BatchStats} {i : Nat} : Extends s (submit cfg bs i s) := by
  unfold submit; split <;> exact .of_stats rfl

theorem extends_mainLoop {b : Nat} : Extends s (mainLoop cfg b s) := by
  unfold mainLoop sendBatch; split
  · exact extends_submit
  · exact .of_stats rfl

theorem extends_afterBatch {b : Nat} : Extends s (afterBatch cfg b s) := by
  unfold afterBatch; split
  · exact .of_stats rfl
  · exact extends_mainLoop

theorem extends_finishBatch {bs : BatchStats} {c : Nat} : Extends s (finishBatch cfg bs c s) := by
  unfold finishBatch
  refine Extends.trans ?_ extends_afterBatch
  split <;> exact ⟨List.prefix_append _ _, by simp, by simp, by simp, by simp⟩

theorem extends_poll {bs : BatchStats} {j c : Nat} : Extends s (poll cfg bs j c s) := by
  unfold poll; split
  · exact .of_stats rfl
  · exact extends_finishBatch

theorem extends_received {bs : BatchStats} {j c : Nat} (r : Option Receipt) :
    Extends s (received cfg bs j c r s) := by
  unfold received; split <;> exact extends_poll

theorem extends_recordSent {bs : BatchStats} {i n : Nat} {tx : TxRequest} (h : Hash) :
    Extends s (recordSent cfg bs i n tx h s) :=
  ⟨List.prefix_refl _, Nat.le_succ _, Nat.le_succ _, le_rfl, le_rfl⟩

theorem extends_recordFailed {bs : BatchStats} {i : Nat} : Extends s (recordFailed cfg bs i s) := by
  unfold recordFailed
  refine .trans ?_ extends_submit
  exact ⟨List.prefix_refl _, Nat.le_succ _, le_rfl, Nat.le_succ _, le_rfl⟩

theorem extends_getBalances {i : Nat} : Extends s (getBalances cfg i s) := by
  unfold getBalances; split
  · exact .of_stats rfl
  · exact extends_mainLoop

theorem extends_step {e : Event} (h : step cfg s e = some t) : Extends s t := by
  rcases step_cases h with ⟨-, rfl⟩ | hr
  · exact .of_stats rfl
  cases hr with
  | network | balance => exact extends_getBalances
  | fatal | nonce => exact .of_stats rfl
  | failed => exact extends_recordFailed
  | sent x => exact extends_recordSent x
  | pause => exact extends_submit
  | settle | lost => exact extends_poll
  | receipt r => exact extends_received r
  | interval => exact extends_mainLoop

/-- Over every run, from any state: the sealed batches only grow, each kept as it was pushed,
and the four session counters never decrease. -/
theorem history_extends {es : List Event} (h : run cfg s es = some t) :
    s.stats.batches <+: t.stats.batches ∧ s.stats.totalTxSent ≤ t.stats.totalTxSent ∧
      s.stats.totalTxSuccess ≤ t.stats.totalTxSuccess ∧
      s.stats.totalTxFailed ≤ t.stats.totalTxFailed ∧
      s.stats.totalConfirmed ≤ t.stats.totalConfirmed := by
  suffices he : Extends s t from ⟨he.batches, he.sent, he.success, he.failed, he.confirmed⟩
  induction es generalizing s with
  | nil => cases h; exact .refl _
  | cons e es ih =>
    simp only [run, Option.bind_eq_some] at h
    obtain ⟨s', hs, hr⟩ := h
    exact (extends_step hs).trans (ih hr)

end

theorem history_extends_oneFailed : ∃ t,
    run stressConfig (State.init fun _ => 0) [.resolve, .resolve, .resolve, .reject] = some t ∧
      t.stats.totalTxFailed = 1 ∧
      (State.init fun _ => 0).stats.totalTxFailed ≤ t.stats.totalTxFailed := by
  obtain ⟨t, hr, hf⟩ : ∃ t, run stressConfig (State.init fun _ => 0)
      [.resolve, .resolve, .resolve, .reject] = some t ∧ t.stats.totalTxFailed = 1 := ⟨_, rfl, rfl⟩
  exact ⟨t, hr, hf, (history_extends hr).2.2.2.1⟩

end PanoStress
