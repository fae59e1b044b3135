import PanoStress.Proof.Schedule

/-!
# Runs against a node that never fails

`Event.ideal`: no RPC throws and every receipt reports status 1. Over such events every attempt
is recorded and confirmed: `IdealInv` (every sealed batch has no failure and as many
confirmations as successes; the open batch has no failure, and the receipt loop has counted one
confirmation per record it passed) is kept by every ideal step (`IdealInv.step`). With `Inv` and
the flushes' batches being prefixes of the sealed ones (`SealedLog`), `ideal_session` gives that
every snapshot from `sendBatch` or `main` holds batches that each made all `txPerBatch` transfers,
all confirmed, and reports both rates at 100% once something was sent.
-/

namespace PanoStress

/-- An answer of a node that never fails. -/
def Event.ideal : Event → Bool
  | .reject => false
  | .receipt r => r == some ⟨some 1⟩
  | _ => true

/-- A batch with no failure and every success confirmed. -/
def BatchStats.Ideal (bs : BatchStats) : Prop := bs.failed = 0 ∧ bs.confirmed = bs.success

/-- The invariant of runs over ideal events (module doc). -/
structure IdealInv (s : State) : Prop where
  sealed : ∀ bs ∈ s.stats.batches, bs.Ideal
  frame : ∀ bs a, s.pc = .sendBatch ⟨bs, a⟩ → bs.failed = 0 ∧ a.counted = a.polled

section
variable {cfg : Config} {s : State}

/-- `IdealInv` at a state whose open batch, if any, is `bs` with no failure, at an await that
has counted what it polled. -/
theorem IdealInv.mk_frame {t : State} (hs : ∀ b ∈ t.stats.batches, b.Ideal) {bs : BatchStats}
    {a : Await} (hp : t.pc = .sendBatch ⟨bs, a⟩) (hf : bs.failed = 0) (ha : a.counted = a.polled) :
    IdealInv t :=
  ⟨hs, fun _ _ h => by rw [hp] at h; cases h; exact ⟨hf, ha⟩⟩

theorem IdealInv.idle {t : State} (hs : ∀ b ∈ t.stats.batches, b.Ideal)
    (hp : ∀ f, t.pc ≠ .sendBatch f) : IdealInv t :=
  ⟨hs, fun _ _ h => (hp _ h).elim⟩

theorem ideal_submit {bs : BatchStats} {i : Nat} (hs : ∀ b ∈ s.stats.batches, b.Ideal)
    (hf : bs.failed = 0) : IdealInv (submit cfg bs i s) := by
  unfold submit; split <;> exact .mk_frame hs rfl hf rfl

theorem ideal_mainLoop {b : Nat} (hs : ∀ b ∈ s.stats.batches, b.Ideal) :
    IdealInv (mainLoop cfg b s) := by
  unfold mainLoop sendBatch; split
  · exact ideal_submit hs rfl
  · exact .idle hs nofun

theorem ideal_afterBatch {b : Nat} (hs : ∀ b ∈ s.stats.batches, b.Ideal) :
    IdealInv (afterBatch cfg b s) := by
  unfold afterBatch; split
  · exact .idle hs nofun
  · exact ideal_mainLoop hs

/-- Sealing a batch whose every success the receipt loop confirmed. -/
theorem ideal_finishBatch {bs : BatchStats} {c : Nat} (hs : ∀ b ∈ s.stats.batches, b.Ideal)
    (hf : bs.failed = 0) (h0 : bs.confirmed = 0) (hc : c = bs.success) :
    IdealInv (finishBatch cfg bs c s) := by
  rw [finishBatch_eq h0]
  refine ideal_afterBatch fun b hb => ?_
  rcases List.mem_append.1 hb with hb | hb
  · exact hs b hb
  · rw [List.mem_singleton.1 hb]; exact ⟨hf, hc⟩

theorem ideal_poll {bs : BatchStats} {j : Nat} (hs : ∀ b ∈ s.stats.batches, b.Ideal)
    (hf : bs.failed = 0) (h0 : bs.confirmed = 0) (hj : j ≤ bs.transactions.length)
    (hl : bs.transactions.length = bs.success) : IdealInv (poll cfg bs j j s) := by
  unfold poll; split
  · exact .mk_frame hs rfl hf rfl
  · have := List.getElem?_eq_none_iff.1 ‹_›
    exact ideal_finishBatch hs hf h0 (by omega)

theorem ideal_getBalances {i : Nat} (hs : ∀ b ∈ s.stats.batches, b.Ideal) :
    IdealInv (getBalances cfg i s) := by
  unfold getBalances; split
  · exact .idle hs nofun
  · exact ideal_mainLoop hs

/-- An ideal step keeps the invariant: the event is a signal, a resolve, a nonce, a response or
a confirming receipt, and each can only settle the awaits below. -/
theorem IdealInv.step {s' : State} {e : Event} (hi : Inv cfg s) (h : IdealInv s)
    (he : e.ideal) (hs : step cfg s e = some s') : IdealInv s' := by
  rcases e with _ | n | _ | x | r | _
  · rcases hp : s.pc with _ | i | ⟨bs, _ | i | i | _ | ⟨j, c⟩⟩ | b | _ | _ <;>
      simp only [PanoStress.step, resume, hp, reduceCtorEq, Option.some.injEq] at hs <;> subst hs
    · exact ideal_getBalances h.sealed
    · exact ideal_getBalances h.sealed
    · exact ideal_submit h.sealed (h.frame _ _ hp).1
    · obtain ⟨-, hb, -⟩ := hi.frame hp
      exact ideal_poll h.sealed (h.frame _ _ hp).1 hb.confirmed (Nat.zero_le _) hb.recorded
    · exact ideal_mainLoop h.sealed
  · rcases hp : s.pc with _ | i | ⟨bs, _ | i | i | _ | ⟨j, c⟩⟩ | b | _ | _ <;>
      simp only [PanoStress.step, resume, hp, reduceCtorEq, Option.some.injEq] at hs
    subst hs
    exact .mk_frame h.sealed rfl (h.frame _ _ hp).1 rfl
  · cases he
  · rcases hp : s.pc with _ | i | ⟨bs, _ | i | i | _ | ⟨j, c⟩⟩ | b | _ | _ <;>
      simp only [PanoStress.step, resume, hp, reduceCtorEq, Option.some.injEq] at hs
    subst hs
    exact .mk_frame h.sealed rfl (h.frame _ _ hp).1 rfl
  · obtain rfl : r = some ⟨some 1⟩ := by simpa [Event.ideal] using he
    rcases hp : s.pc with _ | i | ⟨bs, _ | i | i | _ | ⟨j, c⟩⟩ | b | _ | _ <;>
      simp only [PanoStress.step, resume, hp, reduceCtorEq, Option.some.injEq] at hs
    subst hs
    obtain ⟨hf, hc⟩ := h.frame _ _ hp
    obtain ⟨-, hb, hj⟩ := hi.frame hp
    simp only [Await.counted, Await.polled] at hc
    subst hc
    exact ideal_poll h.sealed hf hb.confirmed (by rw [length_setStatus]; exact hj)
      ((length_setStatus _ _ _).trans hb.recorded)
  · simp only [PanoStress.step] at hs
    split at hs
    · cases hs; exact .idle h.sealed nofun
    · cases hs

theorem IdealInv.init (nonces : Address → Nat) : IdealInv (State.init nonces) :=
  .idle nofun nofun

/-- A run over ideal events from a reachable state keeps the invariant. -/
theorem IdealInv.run {nonces : Address → Nat} {es : List Event} {t : State}
    (h : Reachable cfg nonces s) (hI : IdealInv s) (he : ∀ e ∈ es, e.ideal)
    (hr : run cfg s es = some t) : IdealInv t := by
  induction es generalizing s with
  | nil => cases hr; exact hI
  | cons e es ih =>
    simp only [PanoStress.run, Option.bind_eq_some] at hr
    obtain ⟨s', hs, hr⟩ := hr
    exact ih (h.tail hs) (hI.step (inv_reachable h) (he e (List.mem_cons_self _ _)) hs)
      (fun e' he' => he e' (List.mem_cons_of_mem _ he')) hr

/-- Against a node that never fails, every snapshot of `sendBatch` or of `main`'s completion path
holds batches that each made all `txPerBatch` transfers and had every one confirmed, and once
something was sent it reports a success rate and a confirmation rate of 100%. -/
theorem ideal_session {nonces : Address → Nat} {es : List Event} {t : State}
    (he : ∀ e ∈ es, e.ideal) (h : run cfg (State.init nonces) es = some t) :
    ∀ p ∈ t.flushes, p.1 ≠ .cleanup →
      (∀ bs ∈ p.2.batches,
        bs.success = cfg.txPerBatch ∧ bs.failed = 0 ∧ bs.confirmed = cfg.txPerBatch) ∧
      (0 < p.2.totalTxSent →
        (updateStatsFile p.2).successRate = 100 ∧ (updateStatsFile p.2).confirmationRate = 100) := by
  intro p hp hc
  have hr := (Reachable.init nonces).run h
  have hI := IdealInv.run (Reachable.init nonces) (IdealInv.init nonces) he h
  have hok := (inv_reachable hr).flushes p hp hc
  have hid : ∀ bs ∈ p.2.batches, bs.Ideal := fun bs hb =>
    hI.sealed bs (((sched_reachable hr).log.prefixes p hp).subset hb)
  have hf : p.2.totalTxFailed = 0 := by
    rw [hok.totals.failed, sumOf]
    exact List.sum_eq_zero fun _ hx => by
      obtain ⟨bs, hb, rfl⟩ := List.mem_map.1 hx
      exact (hid bs hb).1
  have hcs : p.2.totalConfirmed = p.2.totalTxSent := by
    rw [hok.totals.confirmed, hok.totals.sent, hf, hok.totals.success, sumOf, sumOf,
      List.map_congr_left fun bs hb => (hid bs hb).2, Nat.add_zero]
  refine ⟨fun bs hb => ?_, fun hpos => ?_⟩
  · have := (hok.batches bs hb).attempts
    obtain ⟨hbf, hbc⟩ := hid bs hb
    omega
  · simp only [updateStatsFile]
    rw [hcs, show p.2.totalTxSuccess = p.2.totalTxSent by rw [hok.totals.sent, hf, Nat.add_zero]]
    exact ⟨rate_self hpos, rate_self hpos⟩

end

theorem ideal_session_twoTicks : ∃ t st,
    run twoTickConfig (State.init fun _ => 0) twoTickEvents = some t ∧ (Caller.main, st) ∈ t.flushes ∧
      st.totalTxSent = 2 ∧
      (updateStatsFile st).successRate = 100 ∧ (updateStatsFile st).confirmationRate = 100 := by
  obtain ⟨t, st, hr, hl, hn⟩ : ∃ t st,
      run twoTickConfig (State.init fun _ => 0) twoTickEvents = some t ∧
        t.flushes.getLast? = some (.main, st) ∧ st.totalTxSent = 2 := ⟨_, _, rfl, rfl, rfl⟩
  have hm := List.mem_of_getLast?_eq_some hl
  exact ⟨t, st, hr, hm, hn, (ideal_session (by decide) hr _ hm nofun).2 (by rw [hn]; decide)⟩

end PanoStress
