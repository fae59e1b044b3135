import PanoStress.Proof.Adequacy
import PanoStress.Proof.Phase
import PanoStress.Proof.Termination

/-!
# Every run from start-up

`session_finishes_iff` describes the runs after which `main` has returned. This module describes
all the others, so that the tick outcomes describe every run of the process.

A process that has not exited can always still finish: at every await some answer other than
the signal keeps it from exiting (`step_answer`), and since every step lowers the rank of
`Termination` this reaches `main`'s return (`finishes_of_reachable`). So a run from start-up
that has not exited is a prefix of a complete session (`extend_complete`). A run that has exited
took its last step from a running process (`run_exited`): the signal, whose handler exits 0, or
a rejection at start-up, where `main` calls `process.exit(1)` (`resume_exited`), and only the
start-up answers, all resolving, come before such a rejection (`startup_resolves`).

`session_runs_iff`: the runs from start-up are exactly the prefixes of complete sessions, the
proper prefixes followed by the signal (`signal_run`), and the start-up prefixes
`k ≤ senders.length` resolving followed by a rejection (`startup_reject`).
-/

namespace PanoStress

section
variable {cfg : Config} {nonces : Address → Nat} {s s' u : State} {e : Event} {es : List Event}

/-! ## A process that has not exited can finish -/

/-- In the batch loop the process runs or `main` has returned. -/
theorem going_of_inLoop {p : Pc} (h : p.phase.InLoop) : p.live ∨ p = .finished := by
  rcases p with _ | _ | _ | _ | _ | c
  case finished => exact .inr rfl
  case exited => rcases h with h | h <;> cases c <;> cases h
  all_goals exact .inl rfl

theorem going_getBalances {i : Nat} :
    (getBalances cfg i s).pc.live ∨ (getBalances cfg i s).pc = .finished := by
  unfold getBalances
  split
  · exact .inl rfl
  · exact going_of_inLoop inLoop_mainLoop

/-- At every await some answer other than the signal keeps the process from exiting. -/
theorem step_answer (hl : s.pc.live) :
    ∃ e s', step cfg s e = some s' ∧ (s'.pc.live ∨ s'.pc = .finished) := by
  rcases hp : s.pc with _ | i | ⟨bs, i | ⟨i, n, tx⟩ | i | _ | ⟨j, c⟩⟩ | b | _ | c
  case getNetwork =>
    exact ⟨.resolve, getBalances cfg 0 s, by simp [step, resume, hp], going_getBalances⟩
  case getBalance =>
    exact ⟨.resolve, getBalances cfg (i + 1) s, by simp [step, resume, hp], going_getBalances⟩
  case sendBatch.mk.getNonce | sendBatch.mk.sendTransaction =>
    exact ⟨.reject, recordFailed cfg bs i s, by simp [step, resume, hp], going_of_inLoop inLoop_submit⟩
  case sendBatch.mk.pause =>
    exact ⟨.resolve, submit cfg bs (i + 1) s, by simp [step, resume, hp], going_of_inLoop inLoop_submit⟩
  case sendBatch.mk.settle =>
    exact ⟨.resolve, poll cfg bs 0 0 s, by simp [step, resume, hp], going_of_inLoop inLoop_poll⟩
  case sendBatch.mk.getTransactionReceipt =>
    exact ⟨.reject, poll cfg bs (j + 1) c s, by simp [step, resume, hp], going_of_inLoop inLoop_poll⟩
  case interval =>
    exact ⟨.resolve, mainLoop cfg (b + 1) s, by simp [step, resume, hp],
      going_of_inLoop inLoop_mainLoop⟩
  all_goals simp [hp, Pc.live] at hl

theorem finishes_prepend {l : List Event} (hl : run cfg s l = some u) (h : Finishes cfg u es) :
    Finishes cfg s (l ++ es) := by
  obtain ⟨t, ht, hp⟩ := h
  exact ⟨t, by rw [run_append, hl, Option.some_bind, ht], hp⟩

theorem finishes_split {l : List Event} (h : Finishes cfg s (l ++ es)) :
    ∃ u, run cfg s l = some u ∧ Finishes cfg u es := by
  obtain ⟨t, ht, hp⟩ := h
  obtain ⟨u, hu, ht⟩ := Option.bind_eq_some.1 ((run_append s l es).symm.trans ht)
  exact ⟨u, hu, t, ht, hp⟩

/-- A finishing run that is not over starts at a running process. -/
theorem live_of_finishes (h : Finishes cfg s es) (hne : es ≠ []) : s.pc.live := by
  rcases hp : s.pc with _ | _ | _ | _ | _ | c
  case finished => exact absurd (finishes_finished hp h) hne
  case exited => exact absurd h (not_finishes_exited hp)
  all_goals rfl

/-- From every reachable state that has not exited, some answers make `main` return; `n` bounds
the rank. -/
theorem finishes_of_reachable : ∀ (n : Nat) (s : State), Reachable cfg nonces s →
    s.pc.rank cfg < n → (s.pc.live ∨ s.pc = .finished) → ∃ es, Finishes cfg s es
  | 0, _, _, hn, _ => absurd hn (Nat.not_lt_zero _)
  | n + 1, s, h, hn, .inl hl => by
    obtain ⟨e, s', hs, hg⟩ := step_answer hl
    have hr := rank_step (inv_reachable h) (sched_reachable h) hs
    obtain ⟨es, hf⟩ := finishes_of_reachable n s' (h.tail hs) (by omega) hg
    exact ⟨e :: es, finishes_prepend (by simp [run, hs] : run cfg s [e] = some s') hf⟩
  | n + 1, s, _, _, .inr hp => ⟨[], s, rfl, hp⟩

/-- A run from start-up that has not exited is a prefix of a complete session, and what is left
of it finishes from where the run ends. -/
theorem extend_complete (h : run cfg (State.init nonces) es = some u)
    (hg : u.pc.live ∨ u.pc = .finished) : ∃ es', Finishes cfg u es' ∧ Complete cfg (es ++ es') := by
  obtain ⟨es', hf⟩ :=
    finishes_of_reachable _ u ((Reachable.init nonces).run h) (Nat.lt_succ_self _) hg
  exact ⟨es', hf, session_complete (finishes_prepend h hf)⟩

/-! ## How a run exits -/

/-- `main` exits on an answer only when a start-up query rejects: `process.exit(1)`. -/
theorem resume_exited {p : Pc} {c : Nat} (hp : s.pc = p) (h : resume cfg s p e = some s')
    (hx : s'.pc = .exited c) : e = .reject ∧ s.pc.phase = .idle := by
  have hg : ∀ q : Pc, (q.live ∨ q = .finished) → q = .exited c → False := by
    rintro q (hq | hq) rfl <;> cases hq
  rcases p with _ | i | ⟨bs, _ | ⟨i, n, tx⟩ | i | _ | ⟨j, c⟩⟩ | b | _ | c <;>
    cases e <;> simp only [resume, Option.some.injEq, reduceCtorEq] at h <;> subst h
  case getNetwork.reject | getBalance.reject => exact ⟨rfl, by rw [hp]; rfl⟩
  case getNetwork.resolve | getBalance.resolve => exact (hg _ going_getBalances hx).elim
  case sendBatch.mk.getNonce.nonce | sendBatch.mk.sendTransaction.sent => cases hx
  case sendBatch.mk.getNonce.reject | sendBatch.mk.sendTransaction.reject
    | sendBatch.mk.pause.resolve => exact (hg _ (going_of_inLoop inLoop_submit) hx).elim
  case sendBatch.mk.settle.resolve | sendBatch.mk.getTransactionReceipt.reject =>
    exact (hg _ (going_of_inLoop inLoop_poll) hx).elim
  case sendBatch.mk.getTransactionReceipt.receipt r =>
    unfold received at hx
    split at hx <;> exact (hg _ (going_of_inLoop inLoop_poll) hx).elim
  case interval.resolve => exact (hg _ (going_of_inLoop inLoop_mainLoop) hx).elim

/-- Once in the batch loop, the process never returns to start-up. -/
theorem not_idle_of_mainLoop {b : Nat} {p : List Event} (hr : run cfg (mainLoop cfg b s) p = some u) :
    u.pc.phase ≠ .idle := fun hu => by
  have h := Phase.level_le_of_reach (phase_run hr)
  rw [hu] at h
  rcases @inLoop_mainLoop cfg s b with h' | h' <;> rw [h'] at h <;> exact absurd h (by decide)

theorem not_idle_of_exited {c : Nat} {p : List Event} (hs : s.pc = .exited c)
    (hr : run cfg s p = some u) : u.pc.phase ≠ .idle := fun hu => by
  obtain ⟨-, rfl⟩ := run_dead (by rw [hs]; rfl) hr
  rw [hs] at hu
  rcases c with _ | c <;> cases hu

/-- A run from the balance query of wallet `i` that stops at start-up resolved every query, and
wallet `i + p.length` is still to be queried. -/
theorem startup_run : ∀ (p : List Event) (i : Nat) (s u : State),
    run cfg (getBalances cfg i s) p = some u → u.pc.phase = .idle →
    i + p.length < cfg.senders.length ∧ p = List.replicate p.length .resolve := by
  intro p
  induction p with
  | nil =>
    intro i s u hr hu
    cases hr
    unfold getBalances at hu
    split at hu
    · exact ⟨(List.getElem?_eq_some_iff.1 ‹_›).1, rfl⟩
    · exact absurd hu (not_idle_of_mainLoop (rfl : run cfg (mainLoop cfg 1 s) [] = some _))
  | cons e p ih =>
    intro i s u hr hu
    unfold getBalances at hr
    split at hr
    · rename_i a ha
      have hi : i < cfg.senders.length := (List.getElem?_eq_some_iff.1 ha).1
      simp only [run, Option.bind_eq_some] at hr
      obtain ⟨s', hs, hr⟩ := hr
      cases e <;> simp only [step, resume, Pc.live, if_true, Option.some.injEq, reduceCtorEq] at hs <;>
        subst hs
      case resolve =>
        obtain ⟨hl, hp⟩ := ih (i + 1) _ u hr hu
        exact ⟨by simp only [List.length_cons]; omega, by rw [List.length_cons, List.replicate_succ, ← hp]⟩
      all_goals exact absurd hu (not_idle_of_exited rfl hr)
    · exact absurd hu (not_idle_of_mainLoop hr)

/-- A run from start-up that stops at start-up resolved every query it made, at most one per
wallet. -/
theorem startup_resolves {p : List Event} (hr : run cfg (State.init nonces) p = some u)
    (hu : u.pc.phase = .idle) : p.length ≤ cfg.senders.length ∧ p = List.replicate p.length .resolve := by
  rcases p with _ | ⟨e, p⟩
  · exact ⟨Nat.zero_le _, rfl⟩
  simp only [run, Option.bind_eq_some] at hr
  obtain ⟨s', hs, hr⟩ := hr
  cases e <;> simp only [step, resume, State.init, Pc.live, if_true, Option.some.injEq,
    reduceCtorEq] at hs <;> subst hs
  case resolve =>
    obtain ⟨hl, hp⟩ := startup_run p 0 _ u hr hu
    exact ⟨by simp only [List.length_cons]; omega, by rw [List.length_cons, List.replicate_succ, ← hp]⟩
  all_goals exact absurd hu (not_idle_of_exited rfl hr)

/-- The balance loop from wallet `i`, `m` queries resolving, waits on wallet `i + m`'s. -/
theorem balances_upto (m : Nat) : ∀ (i : Nat) (s : State), i + m < cfg.senders.length →
    ∃ u, run cfg (getBalances cfg i s) (List.replicate m .resolve) = some u ∧
      u.pc = .getBalance (i + m) := by
  induction m with
  | zero =>
    intro i s hi
    refine ⟨_, rfl, ?_⟩
    rw [getBalances, List.getElem?_eq_getElem (by omega)]
    rfl
  | succ m ih =>
    intro i s hi
    obtain ⟨u, hu, hp⟩ := ih (i + 1) { s.call (.getBalance cfg.senders[i]) with pc := .getBalance i }
      (by omega)
    refine ⟨u, ?_, by rw [hp]; congr 1; omega⟩
    rw [getBalances, List.getElem?_eq_getElem (by omega), List.replicate_succ]
    exact hu

/-- The last step of a run from start-up that has exited is the signal at a running process, or
a rejection at start-up. -/
theorem run_exited {c : Nat} {t : State} (h : run cfg (State.init nonces) es = some t)
    (hc : t.pc = .exited c) : ∃ p u, run cfg (State.init nonces) p = some u ∧ u.pc.live ∧
      (es = p ++ [.signal] ∨ es = p ++ [.reject] ∧ u.pc.phase = .idle) := by
  rcases List.eq_nil_or_concat es with rfl | ⟨p, e, rfl⟩
  · cases h
    cases hc
  rw [List.concat_eq_append] at h ⊢
  obtain ⟨u, hu, ht⟩ := Option.bind_eq_some.1 ((run_append _ p [e]).symm.trans h)
  have hs : step cfg u e = some t := by simpa [run] using ht
  refine ⟨p, u, hu, step_live hs, ?_⟩
  by_cases he : e = .signal
  · exact .inl (he ▸ rfl)
  have hr : resume cfg u u.pc e = some t := by
    cases e <;> first | exact absurd rfl he | exact hs
  obtain ⟨rfl, hidle⟩ := resume_exited rfl hr hc
  exact .inr ⟨rfl, hidle⟩

/-- A proper prefix of a complete session, then the signal: the handler exits 0. -/
theorem signal_run {p es' : List Event} (hc : Complete cfg (p ++ es')) (hne : es' ≠ []) :
    ∃ t, run cfg (State.init nonces) (p ++ [.signal]) = some t ∧ t.pc = .exited 0 := by
  obtain ⟨u, hu, hf⟩ := finishes_split (finishes_of_complete nonces hc)
  refine ⟨cleanup u, ?_, rfl⟩
  rw [run_append, hu, Option.some_bind]
  simp [run, step, live_of_finishes hf hne]

/-- `k ≤ senders.length` start-up queries resolving, then a rejection: `process.exit(1)`. -/
theorem startup_reject {k : Nat} (hk : k ≤ cfg.senders.length) :
    ∃ t, run cfg (State.init nonces) (List.replicate k .resolve ++ [.reject]) = some t ∧
      t.pc = .exited 1 := by
  rcases k with _ | m
  · exact ⟨_, rfl, rfl⟩
  obtain ⟨u, hu, hp⟩ := @balances_upto cfg m 0 (State.init nonces) (by omega)
  have h₀ : run cfg (State.init nonces) (List.replicate (m + 1) .resolve ++ [.reject]) =
      run cfg (getBalances cfg 0 (State.init nonces)) (List.replicate m .resolve ++ [.reject]) := rfl
  refine ⟨{ u with pc := .exited 1 }, ?_, rfl⟩
  rw [h₀, run_append, hu, Option.some_bind]
  simp [run, step, resume, hp]

/-! ## The runs from start-up -/

/-- **Every run from start-up** is a prefix of a complete session, or such a prefix that is not
the whole session followed by the signal, or `k ≤ senders.length` start-up queries resolving
followed by a rejection; and each of these runs goes through. -/
theorem session_runs_iff (nonces : Address → Nat) (es : List Event) :
    (∃ t, run cfg (State.init nonces) es = some t) ↔
      (∃ es', Complete cfg (es ++ es')) ∨
      (∃ p es', es = p ++ [.signal] ∧ es' ≠ [] ∧ Complete cfg (p ++ es')) ∨
      ∃ k ≤ cfg.senders.length, es = List.replicate k .resolve ++ [.reject] := by
  constructor
  · rintro ⟨t, ht⟩
    by_cases hg : t.pc.live ∨ t.pc = .finished
    · obtain ⟨es', -, hc⟩ := extend_complete ht hg
      exact .inl ⟨es', hc⟩
    obtain ⟨c, hc⟩ : ∃ c, t.pc = .exited c := by
      rcases hp : t.pc with _ | _ | _ | _ | _ | c
      case exited => exact ⟨c, rfl⟩
      all_goals simp [hp, Pc.live] at hg
    obtain ⟨p, u, hu, hl, rfl | ⟨rfl, hidle⟩⟩ := run_exited ht hc
    · obtain ⟨es', hf, hc⟩ := extend_complete hu (.inl hl)
      refine .inr (.inl ⟨p, es', rfl, fun he => ?_, hc⟩)
      subst he
      rw [finishes_nil hf] at hl
      cases hl
    · obtain ⟨hk, hp⟩ := startup_resolves hu hidle
      exact .inr (.inr ⟨p.length, hk, by rw [← hp]⟩)
  · rintro (⟨es', hc⟩ | ⟨p, es', rfl, hne, hc⟩ | ⟨k, hk, rfl⟩)
    · obtain ⟨u, hu, -⟩ := finishes_split (finishes_of_complete nonces hc)
      exact ⟨u, hu⟩
    · obtain ⟨t, ht, -⟩ := signal_run hc hne
      exact ⟨t, ht⟩
    · obtain ⟨t, ht, -⟩ := startup_reject hk
      exact ⟨t, ht⟩

end

end PanoStress
