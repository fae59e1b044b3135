import PanoStress.Proof.Schedule

/-!
# The session always ends

`Pc.rank cfg p` is the most awaits the process can still settle from `p`: for a tick of `N`
attempts, three per attempt (`getNonce`, `sendTransaction`, the pause), the settle delay and one
receipt query per record, then the interval sleep before every later tick (`Config.after`).
Every step from a reachable state lowers it (`rank_step`; the invariants give the loop indices
in range), so every run from start-up has at most
`senders.length + 1 + (totalBatches * (4 * txPerBatch + 2) - 1)` events, 2018 for the deployed
constants; a run whose every answer is a success meets it (14 events for two ticks of one
transfer, `session_terminates_twoTicks`). A running process always
accepts an answer other than the signal (`step_progress`), so a run the environment cannot
extend has ended. Neither loop retries and no await is waited on twice: `session_terminates`.
-/

namespace PanoStress

/-- The most awaits left once batch `b` is sealed: the sleep and tick of every later batch. -/
def Config.after (cfg : Config) (b : Nat) : Nat :=
  (cfg.totalBatches - b) * (4 * cfg.txPerBatch + 2)

/-- The most awaits left in a tick of `N` attempts at `a`, with `l` records. -/
def Await.rank (N l : Nat) : Await → Nat
  | .getNonce i => 4 * (N - i) + l + 1
  | .sendTransaction i _ _ => 4 * (N - i) + l
  | .pause i => 4 * (N - i) + l - 2
  | .settle => l + 1
  | .getTransactionReceipt j _ => l - j

/-- The most awaits left at `p`. -/
def Pc.rank (cfg : Config) : Pc → Nat
  | .getNetwork => cfg.senders.length + 1 + (cfg.after 0 - 1)
  | .getBalance i => cfg.senders.length - i + (cfg.after 0 - 1)
  | .sendBatch ⟨bs, a⟩ => a.rank cfg.txPerBatch bs.transactions.length + cfg.after bs.batchNumber
  | .interval b => cfg.after b
  | .finished | .exited _ => 0

section
variable {cfg : Config} {s : State}

theorem after_succ {b : Nat} (h : b < cfg.totalBatches) :
    cfg.after b = cfg.after (b + 1) + (4 * cfg.txPerBatch + 2) := by
  unfold Config.after
  rw [show cfg.totalBatches - b = cfg.totalBatches - (b + 1) + 1 by omega, Nat.succ_mul]

theorem after_eq_zero {b : Nat} (h : cfg.totalBatches ≤ b) : cfg.after b = 0 := by
  simp [Config.after, Nat.sub_eq_zero_of_le h]

theorem submit_rank {bs : BatchStats} {i : Nat} :
    (submit cfg bs i s).pc.rank cfg =
      4 * (cfg.txPerBatch - i) + bs.transactions.length + 1 + cfg.after bs.batchNumber := by
  unfold submit
  split
  · rfl
  · simp only [Pc.rank, Await.rank]; omega

theorem mainLoop_rank {b : Nat} : (mainLoop cfg (b + 1) s).pc.rank cfg = cfg.after b - 1 := by
  unfold mainLoop sendBatch
  split
  · rw [submit_rank, @after_succ cfg b (by omega)]; simp only [List.length_nil]; omega
  · rw [after_eq_zero (by omega)]; rfl

theorem afterBatch_rank {b : Nat} : (afterBatch cfg b s).pc.rank cfg = cfg.after b := by
  unfold afterBatch
  split
  · rfl
  · rw [mainLoop_rank, after_eq_zero (by omega)]

theorem poll_rank {bs : BatchStats} {j c : Nat} :
    (poll cfg bs j c s).pc.rank cfg = bs.transactions.length - j + cfg.after bs.batchNumber := by
  unfold poll
  split
  · rfl
  · have := List.getElem?_eq_none_iff.1 ‹_›
    unfold finishBatch
    split <;> rw [afterBatch_rank] <;> simp <;> omega

theorem getBalances_rank {i : Nat} :
    (getBalances cfg i s).pc.rank cfg ≤ cfg.senders.length - i + (cfg.after 0 - 1) := by
  unfold getBalances
  split
  · rfl
  · rw [mainLoop_rank]; omega

theorem prepare_rank {bs : BatchStats} {i n : Nat} :
    (prepare cfg bs i n s).pc.rank cfg =
      4 * (cfg.txPerBatch - i) + bs.transactions.length + cfg.after bs.batchNumber := rfl

theorem recordSent_rank {bs : BatchStats} {i n : Nat} {tx : TxRequest} {h : Hash} :
    (recordSent cfg bs i n tx h s).pc.rank cfg =
      4 * (cfg.txPerBatch - i) + (bs.transactions.length + 1) - 2 + cfg.after bs.batchNumber := by
  simp [recordSent, Pc.rank, Await.rank]

theorem recordFailed_rank {bs : BatchStats} {i : Nat} :
    (recordFailed cfg bs i s).pc.rank cfg =
      4 * (cfg.txPerBatch - (i + 1)) + bs.transactions.length + 1 + cfg.after bs.batchNumber :=
  submit_rank

theorem received_rank {bs : BatchStats} {j c : Nat} (r : Option Receipt) :
    (received cfg bs j c r s).pc.rank cfg =
      bs.transactions.length - (j + 1) + cfg.after bs.batchNumber := by
  unfold received
  split <;> rw [poll_rank] <;> simp [length_setStatus]

/-- A running reachable state has an await left. -/
theorem rank_pos (hi : Inv cfg s) (hs : Sched cfg s) (hl : s.pc.live) : 0 < s.pc.rank cfg := by
  have hpc := hi.pc
  have hsc := hs.pc
  rcases hp : s.pc with _ | i | ⟨bs, a⟩ | b | _ | _ <;> rw [hp] at hpc hsc hl
  · simp [Pc.rank]
  · simp only [Pc.rank]; have := hsc.1; omega
  · obtain ⟨-, ha⟩ := hpc
    cases a <;> simp only [Pc.rank, Await.rank, Await.Ok] at ha ⊢ <;> omega
  · rw [Pc.rank, after_succ hpc.2]; omega
  all_goals cases hl

/-- Every step from a reachable state settles one of the awaits left. -/
theorem rank_step {s' : State} {e : Event} (hi : Inv cfg s) (hs : Sched cfg s)
    (h : step cfg s e = some s') : s'.pc.rank cfg < s.pc.rank cfg := by
  rcases step_cases h with ⟨hl, rfl⟩ | hr
  · exact rank_pos hi hs hl
  have hpc := hs.pc
  cases hr with
  | network hp =>
    rw [hp]; exact getBalances_rank.trans_lt (by simp only [Pc.rank, Nat.sub_zero]; omega)
  | balance hp =>
    rw [hp] at hpc ⊢
    have := hpc.1
    exact getBalances_rank.trans_lt (by simp only [Pc.rank]; omega)
  | fatal hp => rcases hp with hp | ⟨i, hp⟩ <;> exact rank_pos hi hs (by rw [hp]; rfl)
  | nonce _ hp => rw [hp, prepare_rank]; simp only [Pc.rank, Await.rank]; omega
  | failed hp =>
    rcases hp with hp | ⟨n, tx, hp⟩ <;> have ha := (hi.frame hp).2.2 <;>
      rw [hp, recordFailed_rank] <;> simp only [Await.Ok, Pc.rank, Await.rank] at ha ⊢ <;> omega
  | sent x hp =>
    have ha := (hi.frame hp).2.2.1
    rw [hp, recordSent_rank]; simp only [Pc.rank, Await.rank]; omega
  | pause hp =>
    have ha := (hi.frame hp).2.2
    rw [hp, submit_rank]; simp only [Await.Ok, Pc.rank, Await.rank] at ha ⊢; omega
  | settle hp => rw [hp, poll_rank]; simp only [Pc.rank, Await.rank]; omega
  | receipt r hp =>
    have ha := (hi.frame hp).2.2
    rw [hp, received_rank]; simp only [Await.Ok, Pc.rank, Await.rank] at ha ⊢; omega
  | lost hp =>
    have ha := (hi.frame hp).2.2
    rw [hp, poll_rank]; simp only [Await.Ok, Pc.rank, Await.rank] at ha ⊢; omega
  | interval hp =>
    have hb := hi.pc
    rw [hp] at hb ⊢
    rw [mainLoop_rank, Pc.rank, after_succ hb.2]; omega

/-- A run from a reachable state settles at most its rank of awaits. -/
theorem run_rank {nonces : Address → Nat} {es : List Event} {t : State}
    (h : Reachable cfg nonces s) (hr : run cfg s es = some t) :
    es.length + t.pc.rank cfg ≤ s.pc.rank cfg := by
  induction es generalizing s with
  | nil => cases hr; simp
  | cons e es ih =>
    simp only [run, Option.bind_eq_some] at hr
    obtain ⟨s', hs, hr⟩ := hr
    have := ih (h.tail hs) hr
    have := rank_step (inv_reachable h) (sched_reachable h) hs
    simp only [List.length_cons]
    omega

/-- A running process accepts some answer other than the signal. -/
theorem step_progress (hl : s.pc.live) : ∃ e, e ≠ .signal ∧ step cfg s e ≠ none := by
  rcases hp : s.pc with _ | _ | ⟨bs, _ | _ | _ | _ | _⟩ | _ | _ | _
  all_goals first
    | (refine ⟨.resolve, nofun, ?_⟩; simp [step, resume, hp]; done)
    | (refine ⟨.reject, nofun, ?_⟩; simp [step, resume, hp]; done)
    | simp [hp, Pc.live] at hl

/-- Every run from start-up has at most `senders.length + 1 + (totalBatches * (4 * txPerBatch + 2)
- 1)` events, and a run that no answer of the environment can extend has ended: `main` returned
or the process exited. -/
theorem session_terminates {nonces : Address → Nat} {es : List Event} {t : State}
    (h : run cfg (State.init nonces) es = some t) :
    es.length ≤
        cfg.senders.length + 1 + (cfg.totalBatches * (4 * cfg.txPerBatch + 2) - 1) ∧
      ((∀ e, e ≠ .signal → step cfg t e = none) → t.pc.live = false) := by
  refine ⟨?_, fun hstuck => ?_⟩
  · have := run_rank (Reachable.init nonces) h
    simp only [State.init, Pc.rank, Config.after, Nat.sub_zero] at this
    omega
  · by_contra hl
    obtain ⟨e, he, hs⟩ := step_progress (Bool.not_eq_false _ ▸ hl)
    exact hs (hstuck e he)

end

theorem session_terminates_twoTicks : ∃ t,
    run twoTickConfig (State.init fun _ => 0) twoTickEvents = some t ∧
    twoTickEvents.length = twoTickConfig.senders.length + 1 +
      (twoTickConfig.totalBatches * (4 * twoTickConfig.txPerBatch + 2) - 1) ∧
    ((∀ e, e ≠ .signal → step twoTickConfig t e = none) → t.pc.live = false) := by
  obtain ⟨t, hr, -⟩ := twoTick_run
  exact ⟨t, hr, le_antisymm (session_terminates hr).1 (by decide), (session_terminates hr).2⟩

end PanoStress
