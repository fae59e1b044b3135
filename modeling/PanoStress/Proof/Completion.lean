import PanoStress.Proof.Tick
import PanoStress.Proof.Schedule

/-!
# Every session without a signal completes

A `TickOutcome` is how one tick's awaits end: its `txPerBatch` attempts and the receipt queries
of the sent ones. The events of a whole session are start-up (`getNetwork` and every
`getBalance` resolve), then the ticks, with the interval sleep resolving between two ticks
(`ticksEvents`).

`session_run`: for every `totalBatches` tick outcomes, the run from start-up goes through and
`main` returns. The stats hold one batch per tick, in order. Each batch's entry in
`recent_batches` is its tick's: number `b`, the sent attempts as successes, the others as
failures, and the status-1 receipts as confirmations. The last snapshot is `main`'s completion
flush. The induction is over the ticks left (`ticks_run`), each one `tick_effect`; start-up is
`balances_run`.
-/

namespace PanoStress

/-- How one tick's awaits end: each attempt, then each sent attempt's receipt query. -/
structure TickOutcome where
  attempts : List Attempt
  lookups : List Lookup

namespace TickOutcome

/-- The tick's events: its attempts, the settle delay, its receipt queries. -/
def events (o : TickOutcome) : List Event :=
  o.attempts.flatMap Attempt.events ++ .resolve :: o.lookups.map Lookup.event

/-- One outcome per attempt, one receipt outcome per sent attempt. -/
def Ok (cfg : Config) (o : TickOutcome) : Prop :=
  o.attempts.length = cfg.txPerBatch ∧ o.lookups.length = o.attempts.countP Attempt.isSent

/-- The `recent_batches` entry of batch `b` sealed by a tick that ends as `o`. -/
def summary (o : TickOutcome) (b : Nat) : BatchSummary :=
  ⟨b, o.attempts.countP Attempt.isSent, o.attempts.countP (!·.isSent), (o.lookups.map Lookup.hit).sum⟩

end TickOutcome

/-- The ticks' events, the interval sleep resolving between two ticks. -/
def ticksEvents : List TickOutcome → List Event
  | [] => []
  | [o] => o.events
  | o :: os => o.events ++ .resolve :: ticksEvents os

section
variable {cfg : Config}

/-- The balance loop from wallet `i`, every query resolving. -/
theorem balances_run (k : Nat) : ∀ (i : Nat) (s : State), i + k = cfg.senders.length →
    ∃ s', run cfg (getBalances cfg i s) (List.replicate k .resolve) = some (mainLoop cfg 1 s') ∧
      s'.stats = s.stats ∧ s'.flushes = s.flushes := by
  induction k with
  | zero =>
    intro i s hi
    refine ⟨s, ?_, rfl, rfl⟩
    rw [getBalances, List.getElem?_eq_none (by omega)]
    rfl
  | succ k ih =>
    intro i s hi
    have hi' : i < cfg.senders.length := by omega
    obtain ⟨s', hr, hst, hfl⟩ :=
      ih (i + 1) { s.call (.getBalance cfg.senders[i]) with pc := .getBalance i } (by omega)
    refine ⟨s', ?_, hst, hfl⟩
    rw [getBalances, List.getElem?_eq_getElem hi', List.replicate_succ]
    exact hr

/-- The ticks left after batch `b`, each ending as its outcome, then `main`'s completion. -/
theorem ticks_run (os : List TickOutcome) : ∀ (b : Nat) (s : State),
    b + os.length = cfg.totalBatches → (∀ o ∈ os, o.Ok cfg) →
    ∃ t, run cfg (mainLoop cfg (b + 1) s) (ticksEvents os) = some (completed t) ∧
      t.stats.batches.map BatchStats.summary =
        s.stats.batches.map BatchStats.summary ++
          (os.enumFrom (b + 1)).map fun p => p.2.summary p.1 := by
  induction os with
  | nil =>
    intro b s hb _
    refine ⟨s, ?_, by simp⟩
    rw [mainLoop, if_neg (by simp at hb; omega)]
    rfl
  | cons o os ih =>
    intro b s hb hok
    simp only [List.length_cons] at hb
    obtain ⟨ho₁, ho₂⟩ := hok o (List.mem_cons_self _ _)
    obtain ⟨t₁, bs, hr, ht₁⟩ := @tick_effect cfg (b + 1) s (by omega) o.attempts ho₁ o.lookups ho₂
    have hsum : bs.summary = o.summary (b + 1) := by
      simp only [BatchStats.summary, TickOutcome.summary, ht₁.batchNumber, ht₁.success, ht₁.failed,
        ht₁.confirmed]
    have hr₁ : run cfg (mainLoop cfg (b + 1) s) o.events = some (afterBatch cfg (b + 1) t₁) := hr
    cases os with
    | nil =>
      simp only [List.length_nil, Nat.zero_add] at hb
      refine ⟨t₁, ?_, by simp [ht₁.batches, hsum]⟩
      rw [ticksEvents, hr₁, afterBatch, if_neg (by omega), mainLoop, if_neg (by omega)]
    | cons o' os =>
      obtain ⟨t, hr', ht⟩ := ih (b + 1) { t₁ with pc := .interval (b + 1) }
        (by simp at hb ⊢; omega) fun x hx => hok x (List.mem_cons_of_mem _ hx)
      refine ⟨t, ?_, ?_⟩
      · rw [show ticksEvents (o :: o' :: os) = o.events ++ .resolve :: ticksEvents (o' :: os) from rfl,
          run_append, hr₁, Option.some_bind, afterBatch, if_pos (by simp at hb; omega)]
        exact hr'
      · rw [ht, ht₁.batches, List.map_append, List.map_singleton, hsum, List.enumFrom_cons,
          List.map_cons, List.append_assoc]
        rfl

/-- Start-up answering, then `totalBatches` ticks each ending as its outcome: `main`'s completion
path, one batch per tick with its tick's summary. -/
theorem session_completed (nonces : Address → Nat) (os : List TickOutcome)
    (hl : os.length = cfg.totalBatches) (hok : ∀ o ∈ os, o.Ok cfg) :
    ∃ t, run cfg (State.init nonces)
        (List.replicate (cfg.senders.length + 1) .resolve ++ ticksEvents os) = some (completed t) ∧
      t.stats.batches.map BatchStats.summary = (os.enumFrom 1).map (fun p => p.2.summary p.1) := by
  obtain ⟨s', hr₀, hst, -⟩ :=
    @balances_run cfg cfg.senders.length 0 (State.init nonces) (Nat.zero_add _)
  obtain ⟨t, hr, ht⟩ := @ticks_run cfg os 0 s' (by omega) hok
  have h₀ : run cfg (State.init nonces) (List.replicate (cfg.senders.length + 1) .resolve) =
      some (mainLoop cfg 1 s') := hr₀
  refine ⟨t, ?_, ?_⟩
  · rw [run_append, h₀, Option.some_bind]
    exact hr
  · rw [ht, hst]
    rfl

/-- With no signal, start-up answering and every tick ending as its outcome, `main` returns: one
batch per tick, in order, each with its tick's summary, and the last snapshot is `main`'s. -/
theorem session_run (nonces : Address → Nat) (os : List TickOutcome)
    (hl : os.length = cfg.totalBatches) (hok : ∀ o ∈ os, o.Ok cfg) :
    ∃ t, run cfg (State.init nonces)
        (List.replicate (cfg.senders.length + 1) .resolve ++ ticksEvents os) = some t ∧
      t.pc = .finished ∧
      t.stats.batches.map BatchStats.summary = (os.enumFrom 1).map (fun p => p.2.summary p.1) ∧
      t.flushes.getLast? = some (.main, t.stats) := by
  obtain ⟨t, hr, ht⟩ := session_completed nonces os hl hok
  exact ⟨completed t, hr, rfl, ht, by simp [completed]⟩

/-- Start-up answering, then `totalBatches` ticks each ending as its outcome: `main` returns. -/
theorem session_finishes (nonces : Address → Nat) (os : List TickOutcome)
    (hl : os.length = cfg.totalBatches) (hok : ∀ o ∈ os, o.Ok cfg) :
    ∃ t, run cfg (State.init nonces)
      (List.replicate (cfg.senders.length + 1) .resolve ++ ticksEvents os) = some t ∧
      t.pc = .finished := by
  obtain ⟨t, hr, -⟩ := session_completed nonces os hl hok
  exact ⟨completed t, hr, rfl⟩

end

/-- Two ticks of one transfer each, sent and confirmed. -/
def confirmedTicks : List TickOutcome :=
  [⟨[.sent 0 1], [.answer (some ⟨some 1⟩)]⟩, ⟨[.sent 1 2], [.answer (some ⟨some 1⟩)]⟩]

theorem session_run_twoTicks : ∃ t, run twoTickConfig (State.init fun _ => 0)
      (List.replicate (twoTickConfig.senders.length + 1) .resolve ++ ticksEvents confirmedTicks) =
        some t ∧
    t.pc = .finished ∧ t.stats.batches.map BatchStats.summary = [⟨1, 1, 0, 1⟩, ⟨2, 1, 0, 1⟩] := by
  have hl : confirmedTicks.length = twoTickConfig.totalBatches := by decide
  have hok : ∀ o ∈ confirmedTicks, o.Ok twoTickConfig := by
    simp only [confirmedTicks, List.forall_mem_cons, List.forall_mem_nil]
    exact ⟨⟨by decide, rfl⟩, ⟨by decide, rfl⟩, nofun⟩
  obtain ⟨t, hr, hp, hs, -⟩ := session_run (fun _ => 0) confirmedTicks hl hok
  exact ⟨t, hr, hp, by rw [hs]; rfl⟩

end PanoStress
