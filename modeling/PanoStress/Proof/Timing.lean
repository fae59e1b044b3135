import PanoStress.Proof.Traces

/-!
# How long a session takes

`main` and `sendBatch` wait on three timers: the 500 ms pause after each sent transfer (line 153),
the 3000 ms settle delay before the receipt queries (line 166) and the `INTERVAL_MINUTES` sleep
between two ticks (line 313). `Pc.sleep` is the delay of the timer the process waits on at each
await, 0 where it waits on the node. A timed run gives each event the milliseconds since the
previous one (`timedStep`): a timer fires no earlier than its delay after it was set, which is
when the process reached the await, while the node and the signal may take any time. Every timed
run is a run of the machine whose clock has advanced by at least the delays of the timers that
fired along it (`timedRun_slept`), and every run can be timed so that the clock advances by
exactly that (`timed_exact`).

`slept` adds those delays along a run. Over an attempt it is 500 if the transfer was sent
(`slept_attempt`), over a tick the pauses and the settle delay (`slept_tick`), and over a session
the ticks and the `totalBatches - 1` interval sleeps between them (`slept_ticks`,
`slept_session`).

`session_duration`: every session after which `main` has returned took at least
`(totalBatches - 1) * INTERVAL_MINUTES` minutes, 3 s per batch and 500 ms per transfer sent.
Nothing waits after the last tick, so with the deployed constants a session whose node answers at
once returns after 7 h 52 min 24 s, short of `DURATION_HOURS` (`session_duration_deployed`).
-/

namespace PanoStress

/-- The delay in milliseconds of the timer the process waits on at `p`: the pause after a sent
transfer (line 153), the settle delay (line 166), the interval sleep (line 313); 0 at an RPC. -/
def Pc.sleep (cfg : Config) : Pc → Nat
  | .sendBatch ⟨_, .pause _⟩ => 500
  | .sendBatch ⟨_, .settle⟩ => 3000
  | .interval _ => cfg.intervalMinutes * 60 * 1000
  | _ => 0

section
variable (cfg : Config)

/-- A step at clock `p.2` on the event `te.1`, settling `te.2` milliseconds after the previous
one: a timer does not fire before its delay. -/
def timedStep (p : State × Nat) (te : Event × Nat) : Option (State × Nat) :=
  if te.1 = .resolve ∧ te.2 < p.1.pc.sleep cfg then none
  else (step cfg p.1 te.1).map fun s => (s, p.2 + te.2)

/-- The process and the clock after the timed events `tes`. -/
def timedRun (p : State × Nat) : List (Event × Nat) → Option (State × Nat)
  | [] => some p
  | te :: tes => (timedStep cfg p te).bind (timedRun · tes)

/-- The delays of the timers that fire along the run of `es` from `s`. -/
def slept (s : State) : List Event → Nat
  | [] => 0
  | e :: es => (if e = .resolve then s.pc.sleep cfg else 0) + ((step cfg s e).map (slept · es)).getD 0

end

section
variable {cfg : Config} {s s' : State} {e : Event} {es : List Event}

theorem slept_cons (hs : step cfg s e = some s') :
    slept cfg s (e :: es) = (if e = .resolve then s.pc.sleep cfg else 0) + slept cfg s' es := by
  simp [slept, hs]

theorem slept_append {l : List Event} {u : State} (hl : run cfg s l = some u) :
    slept cfg s (l ++ es) = slept cfg s l + slept cfg u es := by
  induction l generalizing s with
  | nil => cases hl; simp [slept]
  | cons e l ih =>
    simp only [run, Option.bind_eq_some] at hl
    obtain ⟨s₁, hs, hl⟩ := hl
    rw [List.cons_append, slept_cons hs, slept_cons hs, ih hl, Nat.add_assoc]

/-- No timer fires without a `resolve`. -/
theorem slept_of_forall_ne (h : ∀ e ∈ es, e ≠ .resolve) : slept cfg s es = 0 := by
  induction es generalizing s with
  | nil => rfl
  | cons e es ih =>
    rw [slept, if_neg (h e (List.mem_cons_self _ _))]
    rcases step cfg s e with _ | s' <;>
      simp [ih fun e he => h e (List.mem_cons_of_mem _ he)]

/-! ## Timed runs -/

/-- A timed run is a run of the machine, and its clock advanced by at least the timers' delays. -/
theorem timedRun_slept {tes : List (Event × Nat)} {t t' : Nat}
    (h : timedRun cfg (s, t) tes = some (s', t')) :
    run cfg s (tes.map Prod.fst) = some s' ∧ t + slept cfg s (tes.map Prod.fst) ≤ t' := by
  induction tes generalizing s t with
  | nil =>
    cases h
    exact ⟨rfl, by simp [slept]⟩
  | cons te tes ih =>
    obtain ⟨e, d⟩ := te
    simp only [timedRun, timedStep, Option.bind_eq_some] at h
    obtain ⟨⟨s₁, t₁⟩, h₁, h⟩ := h
    split_ifs at h₁ with hd
    obtain ⟨s₂, hs, he⟩ := Option.map_eq_some'.1 h₁
    obtain ⟨rfl, rfl⟩ := Prod.mk.inj he
    obtain ⟨hr, ht⟩ := ih h
    refine ⟨by simp [run, hs, hr], ?_⟩
    have hd' : (if e = .resolve then s.pc.sleep cfg else 0) ≤ d := by
      split_ifs with he'
      exacts [Nat.le_of_not_lt fun hlt => hd ⟨he', hlt⟩, Nat.zero_le _]
    rw [List.map_cons, slept_cons hs]
    omega

/-- Every run can be timed with each timer firing at its delay and everything else at once. -/
theorem timed_exact (t : Nat) (h : run cfg s es = some s') :
    ∃ tes : List (Event × Nat), tes.map Prod.fst = es ∧
      timedRun cfg (s, t) tes = some (s', t + slept cfg s es) := by
  induction es generalizing s t with
  | nil =>
    cases h
    exact ⟨[], rfl, rfl⟩
  | cons e es ih =>
    simp only [run, Option.bind_eq_some] at h
    obtain ⟨s₁, hs, h⟩ := h
    obtain ⟨tes, hm, ht⟩ := ih (t + if e = .resolve then s.pc.sleep cfg else 0) h
    refine ⟨(e, if e = .resolve then s.pc.sleep cfg else 0) :: tes, by simp [hm], ?_⟩
    have hstep : timedStep cfg (s, t) (e, if e = .resolve then s.pc.sleep cfg else 0) =
        some (s₁, t + if e = .resolve then s.pc.sleep cfg else 0) := by
      simp only [timedStep, hs, Option.map_some']
      split_ifs with h₁ h₂ <;> simp_all
    rw [timedRun, hstep, Option.some_bind, ht, slept_cons hs, Nat.add_assoc]

/-! ## The timers of a session -/

theorem slept_attempt {bs : BatchStats} {i : Nat} (hi : i < cfg.txPerBatch) (o : Attempt) :
    slept cfg (submit cfg bs i s) o.events = if o.isSent then 500 else 0 := by
  rw [submit_lt s hi]
  cases o <;> simp [slept, Attempt.events, Attempt.isSent, step, resume, Pc.sleep, prepare,
    recordSent, recordFailed]

theorem slept_submit (os : List Attempt) : ∀ (i : Nat) (bs : BatchStats) (s : State),
    i + os.length = cfg.txPerBatch →
    slept cfg (submit cfg bs i s) (os.flatMap Attempt.events) = 500 * os.countP Attempt.isSent := by
  induction os with
  | nil => exact fun _ _ _ _ => rfl
  | cons o os ih =>
    intro i bs s hi
    simp only [List.length_cons] at hi
    obtain ⟨s₁, bs₁, hr, -⟩ := @attempt_run cfg bs i s (by omega) o
    rw [List.flatMap_cons, slept_append hr, slept_attempt (by omega), ih (i + 1) bs₁ s₁ (by omega),
      List.countP_cons]
    split_ifs <;> omega

/-- A tick sleeps 500 ms per transfer sent and the settle delay. -/
theorem slept_tick {b : Nat} (hb : b ≤ cfg.totalBatches) (o : TickOutcome) (ho : o.Ok cfg) :
    slept cfg (mainLoop cfg b s) o.events = 500 * o.attempts.countP Attempt.isSent + 3000 := by
  have ha : 0 + o.attempts.length = cfg.txPerBatch := by rw [Nat.zero_add]; exact ho.1
  obtain ⟨t, bs', hr, hp, -⟩ := @submit_run cfg o.attempts 0 ⟨b, [], 0, 0, 0⟩ s ha
  have hs : step cfg t .resolve = some (poll cfg bs' 0 0 t) := by simp [step, resume, hp]
  have hl : ∀ e ∈ o.lookups.map Lookup.event, e ≠ .resolve := by
    simp only [List.mem_map]
    rintro _ ⟨_ | _, -, rfl⟩ <;> nofun
  rw [mainLoop, if_pos hb, sendBatch, TickOutcome.events, slept_append hr,
    slept_submit _ 0 _ s ha, slept_cons hs, if_pos rfl, hp, slept_of_forall_ne hl]
  rfl

/-- The ticks left after batch `b`, with the interval sleep between two of them. -/
theorem slept_ticks (os : List TickOutcome) : ∀ (b : Nat) (s : State),
    b + os.length = cfg.totalBatches → (∀ o ∈ os, o.Ok cfg) →
    slept cfg (mainLoop cfg (b + 1) s) (ticksEvents os) =
      500 * (os.map fun o => o.attempts.countP Attempt.isSent).sum + 3000 * os.length +
        (os.length - 1) * (cfg.intervalMinutes * 60 * 1000) := by
  induction os with
  | nil => exact fun _ _ _ _ => by simp [ticksEvents, slept]
  | cons o os ih =>
    intro b s hb hok
    simp only [List.length_cons] at hb
    have ho := hok o (List.mem_cons_self _ _)
    obtain ⟨t₁, -, hr, -⟩ := @tick_effect cfg (b + 1) s (by omega) o.attempts ho.1 o.lookups ho.2
    have hr₁ : run cfg (mainLoop cfg (b + 1) s) o.events = some (afterBatch cfg (b + 1) t₁) := hr
    have ht := @slept_tick cfg s (b + 1) (by omega) o ho
    cases os with
    | nil => simp [ticksEvents, ht]
    | cons o' os =>
      have hs : step cfg { t₁ with pc := .interval (b + 1) } .resolve =
          some (mainLoop cfg (b + 1 + 1) { t₁ with pc := .interval (b + 1) }) := rfl
      rw [show ticksEvents (o :: o' :: os) = o.events ++ .resolve :: ticksEvents (o' :: os) from rfl,
        slept_append hr₁, ht, afterBatch, if_pos (by simp at hb; omega), slept_cons hs, if_pos rfl,
        ih (b + 1) _ (by simp at hb ⊢; omega) fun x hx => hok x (List.mem_cons_of_mem _ hx)]
      have hI : ({ t₁ with pc := .interval (b + 1) } : State).pc.sleep cfg =
          cfg.intervalMinutes * 60 * 1000 := rfl
      simp only [hI, List.map_cons, List.sum_cons, List.length_cons, Nat.add_sub_cancel]
      rw [Nat.add_one_mul os.length]
      omega

/-- Start-up waits on no timer. -/
theorem slept_balances (k : Nat) : ∀ (i : Nat) (s : State), i + k = cfg.senders.length →
    slept cfg (getBalances cfg i s) (List.replicate k .resolve) = 0 := by
  induction k with
  | zero => exact fun _ _ _ => rfl
  | succ k ih =>
    intro i s hi
    have hp : getBalances cfg i s =
        { s.call (.getBalance cfg.senders[i]) with pc := .getBalance i } := by
      rw [getBalances, List.getElem?_eq_getElem (by omega)]
    have hs : step cfg (getBalances cfg i s) .resolve =
        some (getBalances cfg (i + 1) (getBalances cfg i s)) := by
      rw [hp]
      rfl
    rw [List.replicate_succ, slept_cons hs, ih (i + 1) _ (by omega), hp]
    rfl

/-- The timers of a whole session. -/
theorem slept_session (nonces : Address → Nat) {os : List TickOutcome}
    (hl : os.length = cfg.totalBatches) (hok : ∀ o ∈ os, o.Ok cfg) :
    slept cfg (State.init nonces) (sessionEvents cfg os) =
      500 * (os.map fun o => o.attempts.countP Attempt.isSent).sum + 3000 * cfg.totalBatches +
        (cfg.totalBatches - 1) * (cfg.intervalMinutes * 60 * 1000) := by
  obtain ⟨s', hr₀, -⟩ :=
    @balances_run cfg cfg.senders.length 0 (State.init nonces) (Nat.zero_add _)
  have h₀ : run cfg (State.init nonces) (List.replicate (cfg.senders.length + 1) .resolve) =
      some (mainLoop cfg 1 s') := hr₀
  have hs : step cfg (State.init nonces) .resolve = some (getBalances cfg 0 (State.init nonces)) := rfl
  rw [sessionEvents, slept_append h₀, List.replicate_succ, slept_cons hs,
    slept_balances _ 0 _ (Nat.zero_add _), slept_ticks os 0 s' (by omega) hok, hl]
  simp [State.init, Pc.sleep]

end

/-! ## The length of a session -/

section
variable {cfg : Config} {nonces : Address → Nat}

/-- The batches of a completed session sent the transfers of its ticks' sent attempts. -/
theorem session_sent {os : List TickOutcome} {t : State} (hl : os.length = cfg.totalBatches)
    (hok : ∀ o ∈ os, o.Ok cfg) (h : run cfg (State.init nonces) (sessionEvents cfg os) = some t) :
    (t.stats.batches.map (·.success)).sum = (os.map fun o => o.attempts.countP Attempt.isSent).sum := by
  obtain ⟨t', hr, hs⟩ := session_completed nonces os hl hok
  obtain rfl : t = completed t' := Option.some.inj (h.symm.trans hr)
  calc (t'.stats.batches.map (·.success)).sum
      = ((t'.stats.batches.map BatchStats.summary).map (·.success)).sum := by rw [List.map_map]; rfl
    _ = (((os.enumFrom 1).map fun p => p.2.summary p.1).map (·.success)).sum := by rw [hs]
    _ = (((os.enumFrom 1).map Prod.snd).map fun o => o.attempts.countP Attempt.isSent).sum := by
        rw [List.map_map, List.map_map]
        rfl
    _ = _ := by rw [List.enumFrom_map_snd]

/-- **Every session after which `main` has returned** took at least `(totalBatches - 1) *
INTERVAL_MINUTES` minutes of interval sleeps, the 3 s settle delay of each batch and the 500 ms
pause after each transfer sent, from start-up at clock `t₀` to `main`'s return at `t₁`. -/
theorem session_duration {tes : List (Event × Nat)} {t : State} {t₀ t₁ : Nat}
    (h : timedRun cfg (State.init nonces, t₀) tes = some (t, t₁)) (hf : t.pc = .finished) :
    t₀ + (cfg.totalBatches - 1) * (cfg.intervalMinutes * 60 * 1000) + 3000 * cfg.totalBatches +
      500 * (t.stats.batches.map (·.success)).sum ≤ t₁ := by
  obtain ⟨hr, ht⟩ := timedRun_slept h
  obtain ⟨os, hl, hok, he⟩ := session_complete ⟨t, hr, hf⟩
  rw [he] at hr ht
  rw [slept_session nonces hl hok] at ht
  rw [session_sent hl hok hr]
  omega

end

/-- All ten `getNonce` calls of each of the 48 ticks throw. -/
def nonceThrowsTicks : List TickOutcome :=
  List.replicate stressConfig.totalBatches ⟨List.replicate stressConfig.txPerBatch .nonceThrows, []⟩

theorem session_duration_deployed : ∃ tes t t₁,
    timedRun stressConfig (State.init fun _ => 0, 0) tes = some (t, t₁) ∧ t.pc = .finished ∧
    t₁ = 28344000 ∧ t₁ < stressConfig.durationHours * 60 * 60 * 1000 ∧
    0 + (stressConfig.totalBatches - 1) * (stressConfig.intervalMinutes * 60 * 1000) +
      3000 * stressConfig.totalBatches + 500 * (t.stats.batches.map (·.success)).sum ≤ t₁ := by
  have hl : nonceThrowsTicks.length = stressConfig.totalBatches := List.length_replicate _ _
  have hok : ∀ o ∈ nonceThrowsTicks, o.Ok stressConfig := fun o ho => by
    rw [List.eq_of_mem_replicate ho]
    exact ⟨List.length_replicate _ _, by simp [List.countP_replicate, Attempt.isSent]⟩
  obtain ⟨t, hr, hf⟩ := session_finishes (fun _ => 0) nonceThrowsTicks hl hok
  obtain ⟨tes, -, ht⟩ := timed_exact 0 hr
  have hs := slept_session (fun _ => 0) hl hok
  simp only [sessionEvents] at hs
  rw [hs] at ht
  have h₁ := session_duration ht hf
  refine ⟨tes, t, _, ht, hf, ?_, by decide, h₁⟩
  simp [nonceThrowsTicks, List.countP_replicate, Attempt.isSent]
  decide

end PanoStress
