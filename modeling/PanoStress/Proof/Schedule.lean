import PanoStress.Proof.Session

/-!
# The schedule of `main`

`Sched cfg s` holds of every reachable state (`sched_reachable`):

* the sealed batches are numbered `1, 2, ...` in the order they were pushed, and there are at
  most `totalBatches` of them; so are those of the stats every flush wrote from (`SealedLog`);
* before the batch loop (`getNetwork`, `getBalance i` with `i` a wallet) nothing is flushed and
  the stats are the initial ones (`Fresh`);
* a tick runs only while fewer than `totalBatches` batches are sealed, and `main` returns only
  when all `totalBatches` are, its last act the completion flush.

The step lemma uses `Inv` for the number of the open batch and of the interval sleep.
`sealed_numbered`, `snapshot_recent` and `session_completes` read the invariant off at every
state, at every flush and at `finished`.
-/

namespace PanoStress

/-- Nothing is flushed and the stats are as initialised. -/
structure Fresh (s : State) : Prop where
  stats : s.stats = Stats.init
  flushes : s.flushes = []

/-- The `Pc` part of the schedule invariant. -/
def SchedPc (cfg : Config) (s : State) : Pc → Prop
  | .getNetwork => Fresh s
  | .getBalance i => i < cfg.senders.length ∧ Fresh s
  | .sendBatch _ => s.stats.batches.length < cfg.totalBatches
  | .finished =>
    s.stats.batches.length = cfg.totalBatches ∧ s.flushes.getLast? = some (.main, s.stats)
  | .interval _ | .exited _ => True

/-- The sealed batches `bs`: numbered `1, 2, ...` in order, at most `totalBatches` of them. -/
structure Sealed (cfg : Config) (bs : List BatchStats) : Prop where
  numbers : bs.map (·.batchNumber) = List.range' 1 bs.length
  bounded : bs.length ≤ cfg.totalBatches

/-- The sealed batches `bs`, and those of every flush `fl`, are `Sealed`; those of a flush are a
prefix of `bs`. -/
structure SealedLog (cfg : Config) (bs : List BatchStats) (fl : List (Caller × Stats)) : Prop where
  sealed : Sealed cfg bs
  flushes : ∀ p ∈ fl, Sealed cfg p.2.batches
  prefixes : ∀ p ∈ fl, p.2.batches <+: bs

/-- The schedule invariant (module doc). -/
structure Sched (cfg : Config) (s : State) : Prop where
  log : SealedLog cfg s.stats.batches s.flushes
  pc : SchedPc cfg s s.pc

section
variable {cfg : Config} {s : State}

theorem Fresh.log (h : Fresh s) : SealedLog cfg s.stats.batches s.flushes := by
  rw [h.stats, h.flushes]
  exact ⟨⟨rfl, Nat.zero_le _⟩, fun _ h => (List.not_mem_nil _ h).elim,
    fun _ h => (List.not_mem_nil _ h).elim⟩

/-- Pushing batch number `len + 1` while fewer than `totalBatches` are sealed. -/
theorem Sealed.push {bs : List BatchStats} (h : Sealed cfg bs) {b : BatchStats}
    (hn : b.batchNumber = bs.length + 1) (hlt : bs.length < cfg.totalBatches) :
    Sealed cfg (bs ++ [b]) :=
  ⟨by simp [h.numbers, hn, List.range'_1_concat, Nat.add_comm], by simp; omega⟩

/-- A flush writes from stats whose batches are the sealed ones. -/
theorem SealedLog.flush {bs : List BatchStats} {fl : List (Caller × Stats)}
    (h : SealedLog cfg bs fl) (c : Caller) {st : Stats} (hst : st.batches = bs) :
    SealedLog cfg bs (fl ++ [(c, st)]) :=
  ⟨h.sealed, fun p hp => by
    rcases List.mem_append.1 hp with hp | hp
    · exact h.flushes p hp
    · rw [List.mem_singleton.1 hp, hst]; exact h.sealed, fun p hp => by
    rcases List.mem_append.1 hp with hp | hp
    · exact h.prefixes p hp
    · rw [List.mem_singleton.1 hp, hst]⟩

theorem SealedLog.push {bs : List BatchStats} {fl : List (Caller × Stats)}
    (h : SealedLog cfg bs fl) {b : BatchStats} (hn : b.batchNumber = bs.length + 1)
    (hlt : bs.length < cfg.totalBatches) : SealedLog cfg (bs ++ [b]) fl :=
  ⟨h.sealed.push hn hlt, h.flushes, fun p hp => (h.prefixes p hp).trans (List.prefix_append _ _)⟩

theorem sched_submit {bs : BatchStats} {i : Nat} (hs : SealedLog cfg s.stats.batches s.flushes)
    (hlt : s.stats.batches.length < cfg.totalBatches) : Sched cfg (submit cfg bs i s) := by
  unfold submit; split <;> exact ⟨hs, hlt⟩

theorem sched_mainLoop {b : Nat} (hs : SealedLog cfg s.stats.batches s.flushes)
    (hb : b = s.stats.batches.length + 1) : Sched cfg (mainLoop cfg b s) := by
  unfold mainLoop sendBatch
  split
  · exact sched_submit hs (by omega)
  · exact ⟨hs.flush .main rfl,
      show s.stats.batches.length = _ by have := hs.sealed.bounded; omega, by simp [completed]⟩

theorem sched_afterBatch {b : Nat} (hs : SealedLog cfg s.stats.batches s.flushes)
    (hb : b = s.stats.batches.length) : Sched cfg (afterBatch cfg b s) := by
  unfold afterBatch
  split
  · exact ⟨hs, trivial⟩
  · exact sched_mainLoop hs (by omega)

theorem sched_finishBatch {bs : BatchStats} {c : Nat}
    (hs : SealedLog cfg s.stats.batches s.flushes) (hn : bs.batchNumber = s.stats.batches.length + 1)
    (hlt : s.stats.batches.length < cfg.totalBatches) : Sched cfg (finishBatch cfg bs c s) := by
  unfold finishBatch
  split <;> refine sched_afterBatch ((hs.push ?_ hlt).flush .sendBatch rfl) ?_ <;> simp [hn]

theorem sched_poll {bs : BatchStats} {j c : Nat} (hs : SealedLog cfg s.stats.batches s.flushes)
    (hn : bs.batchNumber = s.stats.batches.length + 1)
    (hlt : s.stats.batches.length < cfg.totalBatches) : Sched cfg (poll cfg bs j c s) := by
  unfold poll
  split
  · exact ⟨hs, hlt⟩
  · exact sched_finishBatch hs hn hlt

theorem sched_getBalances {i : Nat} (hf : Fresh s) : Sched cfg (getBalances cfg i s) := by
  unfold getBalances
  split
  · exact ⟨hf.log, (List.getElem?_eq_some_iff.1 ‹_›).1, hf.stats, hf.flushes⟩
  · exact sched_mainLoop hf.log (by simp [hf.stats, Stats.init])

theorem Sched.step {s' : State} {e : Event} (hi : Inv cfg s) (h : Sched cfg s)
    (hs : step cfg s e = some s') : Sched cfg s' := by
  rcases step_cases hs with ⟨-, rfl⟩ | hr
  · exact ⟨h.log.flush .cleanup rfl, trivial⟩
  have hpc := h.pc
  cases hr with
  | network hp => rw [hp] at hpc; exact sched_getBalances hpc
  | balance hp => rw [hp] at hpc; exact sched_getBalances hpc.2
  | fatal => exact ⟨h.log, trivial⟩
  | nonce _ hp => rw [hp] at hpc; exact ⟨h.log, hpc⟩
  | failed hp =>
    obtain ⟨a, hp⟩ : ∃ a, s.pc = .sendBatch ⟨_, a⟩ := by
      rcases hp with hp | ⟨_, _, hp⟩ <;> exact ⟨_, hp⟩
    rw [hp] at hpc
    exact sched_submit h.log hpc
  | sent x hp => rw [hp] at hpc; exact ⟨h.log, hpc⟩
  | pause hp => rw [hp] at hpc; exact sched_submit h.log hpc
  | settle hp | lost hp => rw [hp] at hpc; exact sched_poll h.log (hi.frame hp).2.1.number hpc
  | receipt r hp =>
    rw [hp] at hpc
    have hn := (hi.frame hp).2.1.number
    unfold received
    split <;> exact sched_poll h.log (by simpa using hn) hpc
  | interval hp =>
    have hb := hi.pc
    rw [hp] at hb
    exact sched_mainLoop h.log (by rw [hb.1])

theorem Sched.init (nonces : Address → Nat) : Sched cfg (State.init nonces) :=
  have hf : Fresh (State.init nonces) := ⟨rfl, rfl⟩
  ⟨hf.log, hf⟩

theorem sched_reachable {nonces : Address → Nat} (h : Reachable cfg nonces s) : Sched cfg s :=
  Reachable.induction (Sched.init nonces) (fun _ _ _ hr hs he => hs.step (inv_reachable hr) he) h

/-! ## At every state, at completion, at a start-up failure -/

/-- In every run the sealed batches are numbered `1, 2, ...` in the order they were pushed, and
there are at most `totalBatches` of them. -/
theorem sealed_numbered {nonces : Address → Nat} (h : Reachable cfg nonces s) :
    s.stats.batches.map (·.batchNumber) = List.range' 1 s.stats.batches.length ∧
      s.stats.batches.length ≤ cfg.totalBatches :=
  ⟨(sched_reachable h).log.sealed.numbers, (sched_reachable h).log.sealed.bounded⟩

/-- When `main` returns, all `totalBatches` batches are sealed, numbered `1..totalBatches`,
`txPerBatch * totalBatches` attempts were made, and the last flush is the completion path's,
from the final stats. -/
theorem session_completes {nonces : Address → Nat} (h : Reachable cfg nonces s)
    (hf : s.pc = .finished) :
    s.stats.batches.length = cfg.totalBatches ∧
      s.stats.batches.map (·.batchNumber) = List.range' 1 cfg.totalBatches ∧
      s.stats.totalTxSent = cfg.txPerBatch * cfg.totalBatches ∧
      s.flushes.getLast? = some (.main, s.stats) := by
  have hs := sched_reachable h
  have hpc := hs.pc
  rw [hf] at hpc
  obtain ⟨hlen, hlast⟩ := hpc
  have hok := (inv_reachable h).flushes _ (List.mem_of_getLast?_eq_some hlast) (by simp)
  exact ⟨hlen, hlen ▸ hs.log.sealed.numbers, hlen ▸ hok.sent_eq, hlast⟩

/-- Stats whose counters are the sums over their batches are determined by the batches. -/
theorem Stats.eq_of_totals {st st' : Stats} (h : Totals st st.batches) (h' : Totals st' st'.batches)
    (hb : st.batches = st'.batches) : st = st' := by
  cases st with
  | mk a1 a2 a3 a4 a5 =>
    cases st' with
    | mk b1 b2 b3 b4 b5 =>
      obtain ⟨h1, h2, h3, h4⟩ := totals_iff.1 h
      obtain ⟨h1', h2', h3', h4'⟩ := totals_iff.1 h'
      simp only at hb h1 h2 h3 h4 h1' h2' h3' h4'
      subst hb
      simp only [Stats.mk.injEq, and_true]
      omega

/-- Two snapshots written by `sendBatch` or by `main`'s completion path with the same number of
sealed batches were written from the same stats: writing again with no new batch changes
nothing. -/
theorem flush_idempotent {nonces : Address → Nat} (h : Reachable cfg nonces s)
    {p q : Caller × Stats} (hp : p ∈ s.flushes) (hq : q ∈ s.flushes) (hpc : p.1 ≠ .cleanup)
    (hqc : q.1 ≠ .cleanup) (hl : p.2.batches.length = q.2.batches.length) : p.2 = q.2 := by
  have hlog := (sched_reachable h).log
  exact Stats.eq_of_totals ((inv_reachable h).flushes p hp hpc).totals
    ((inv_reachable h).flushes q hq hqc).totals
    ((List.prefix_of_prefix_length_le (hlog.prefixes p hp) (hlog.prefixes q hq) hl.le).eq_of_length hl)

end

/-- The deployed constants with one transfer per batch and a 4-hour interval: two ticks. -/
def twoTickConfig : Config :=
  { stressConfig with txPerBatch := 1, intervalMinutes := 240, intervalMinutes_pos := by decide }

/-- A tick whose one transfer, of hash `h`, is sent and confirmed. -/
def confirmedTick (h : Hash) : List Event :=
  [.nonce 0, .sent h, .resolve, .resolve, .receipt (some ⟨some 1⟩)]

/-- Start-up with both balances, then both ticks of `twoTickConfig` with the sleep between. -/
def twoTickEvents : List Event :=
  [.resolve, .resolve, .resolve] ++ confirmedTick 1 ++ [.resolve] ++ confirmedTick 2

theorem twoTick_run : ∃ s, run twoTickConfig (State.init fun _ => 0) twoTickEvents = some s ∧
    s.pc = .finished := ⟨_, rfl, rfl⟩

theorem sealed_numbered_allFail : ∃ s, Reachable stressConfig (fun _ => 0) s ∧
    s.stats.batches.map (·.batchNumber) = List.range' 1 s.stats.batches.length := by
  obtain ⟨s, hr, -⟩ := allFail_run
  have hs := (Reachable.init _).run hr
  exact ⟨s, hs, (sealed_numbered hs).1⟩

theorem flush_idempotent_twoTicks : ∃ s, Reachable twoTickConfig (fun _ => 0) s ∧
    ∃ p ∈ s.flushes, ∃ q ∈ s.flushes, p.1 = .sendBatch ∧ q.1 = .main ∧
      p.2.batches.length = q.2.batches.length ∧ p.2 = q.2 := by
  obtain ⟨s, hr, st, hfl⟩ : ∃ s, run twoTickConfig (State.init fun _ => 0) twoTickEvents = some s ∧
      ∃ st, s.flushes.drop 1 = [(.sendBatch, st), (.main, st)] := ⟨_, rfl, _, rfl⟩
  have hs := (Reachable.init _).run hr
  have hp : (Caller.sendBatch, st) ∈ s.flushes :=
    List.mem_of_mem_drop (by simp [hfl] : (Caller.sendBatch, st) ∈ s.flushes.drop 1)
  have hq : (Caller.main, st) ∈ s.flushes :=
    List.mem_of_mem_drop (by simp [hfl] : (Caller.main, st) ∈ s.flushes.drop 1)
  exact ⟨s, hs, _, hp, _, hq, rfl, rfl, rfl, flush_idempotent hs hp hq (by simp) (by simp) rfl⟩

theorem session_completes_twoTicks : ∃ s, Reachable twoTickConfig (fun _ => 0) s ∧
    s.pc = .finished ∧ s.stats.batches.length = twoTickConfig.totalBatches := by
  obtain ⟨s, hr, hf⟩ := twoTick_run
  have hs := (Reachable.init _).run hr
  exact ⟨s, hs, hf, (session_completes hs hf).1⟩

end PanoStress
