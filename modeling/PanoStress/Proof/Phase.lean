import PanoStress.Proof.Step

/-!
# The scheduler's phases

The design's session scheduler moves `Idle → Running → (Interrupted | Completed)`, and a
connectivity failure at start-up is fatal. `Phase` is that machine, with `failed` for the fatal
exit; `Pc.phase` reads the phase off the code's state, and `Phase.Next` lists the moves the code
makes. `phase_refines`: every step of the code is one of them (`phase_step`), so every run is a
path of them (`phase_run`) along which the phase only moves forward, and the three end phases
have no step (`phase_final`). The code has two
moves beyond the design's: a signal during start-up exits 0 at once (`interruptIdle`), and with
`totalBatches = 0` start-up goes straight to completion (`completeIdle`).
-/

namespace PanoStress

/-- The phases of the session scheduler. -/
inductive Phase where
  | idle
  | running
  | completed
  | interrupted
  | failed
deriving DecidableEq, Repr

/-- The phase of the process at `p`. -/
def Pc.phase : Pc → Phase
  | .getNetwork | .getBalance _ => .idle
  | .sendBatch _ | .interval _ => .running
  | .finished => .completed
  | .exited 0 => .interrupted
  | .exited _ => .failed

/-- The moves between phases. -/
inductive Phase.Next : Phase → Phase → Prop
  /-- The next start-up query. -/
  | check : Next .idle .idle
  /-- Start-up done, the first tick starts. -/
  | start : Next .idle .running
  /-- Start-up done and no tick scheduled. -/
  | completeIdle : Next .idle .completed
  /-- A start-up query fails: `process.exit(1)`. -/
  | fatal : Next .idle .failed
  /-- The signal during start-up. -/
  | interruptIdle : Next .idle .interrupted
  /-- Within a tick, or from one tick to the next. -/
  | tick : Next .running .running
  /-- The last tick done. -/
  | complete : Next .running .completed
  /-- The signal during a tick or a sleep. -/
  | interrupt : Next .running .interrupted

/-- How far a phase is along the scheduler. -/
def Phase.level : Phase → Nat
  | .idle => 0
  | .running => 1
  | _ => 2

theorem Phase.Next.level_le {a b : Phase} (h : Phase.Next a b) : a.level ≤ b.level := by
  cases h <;> decide

section
variable {cfg : Config} {s : State}

/-- Where a stretch of code that starts inside the batch loop can stop. -/
def Phase.InLoop (p : Phase) : Prop := p = .running ∨ p = .completed

theorem Phase.InLoop.next {p : Phase} (h : p.InLoop) : Phase.Next .running p := by
  rcases h with rfl | rfl
  exacts [.tick, .complete]

theorem inLoop_submit {bs : BatchStats} {i : Nat} : (submit cfg bs i s).pc.phase.InLoop := by
  unfold submit; split <;> exact .inl rfl

theorem inLoop_mainLoop {b : Nat} : (mainLoop cfg b s).pc.phase.InLoop := by
  unfold mainLoop sendBatch; split
  · exact inLoop_submit
  · exact .inr rfl

theorem inLoop_afterBatch {b : Nat} : (afterBatch cfg b s).pc.phase.InLoop := by
  unfold afterBatch; split
  · exact .inl rfl
  · exact inLoop_mainLoop

theorem inLoop_poll {bs : BatchStats} {j c : Nat} : (poll cfg bs j c s).pc.phase.InLoop := by
  unfold poll; split
  · exact .inl rfl
  · unfold finishBatch; exact inLoop_afterBatch

theorem next_getBalances {i : Nat} : Phase.Next .idle (getBalances cfg i s).pc.phase := by
  unfold getBalances; split
  · exact .check
  · rcases @inLoop_mainLoop cfg s 1 with h | h <;> rw [h]
    exacts [.start, .completeIdle]

theorem phase_step {s' : State} {e : Event} (h : step cfg s e = some s') :
    Phase.Next s.pc.phase s'.pc.phase := by
  rcases step_cases h with ⟨hl, rfl⟩ | hr
  · rcases hp : s.pc with _ | _ | _ | _ | _ | _ <;> rw [hp] at hl <;>
      first | exact .interruptIdle | exact .interrupt | cases hl
  cases hr with
  | network hp | balance hp => rw [hp]; exact next_getBalances
  | fatal hp => rcases hp with hp | ⟨_, hp⟩ <;> rw [hp] <;> exact .fatal
  | nonce _ hp | sent _ hp => rw [hp]; exact .tick
  | failed hp => rcases hp with hp | ⟨_, _, hp⟩ <;> rw [hp] <;> exact inLoop_submit.next
  | pause hp => rw [hp]; exact inLoop_submit.next
  | settle hp | lost hp => rw [hp]; exact inLoop_poll.next
  | receipt r hp => rw [hp]; unfold received; split <;> exact inLoop_poll.next
  | interval hp => rw [hp]; exact inLoop_mainLoop.next

theorem phase_final (hs : 2 ≤ s.pc.phase.level) (e : Event) : step cfg s e = none := by
  rcases hp : s.pc with _ | _ | _ | _ | _ | _ <;> rw [hp] at hs
  case finished | exited => cases e <;> simp [step, resume, hp, Pc.live]
  all_goals simp [Pc.phase, Phase.level] at hs

theorem phase_run {t : State} {es : List Event} (h : run cfg s es = some t) :
    Relation.ReflTransGen Phase.Next s.pc.phase t.pc.phase := by
  induction es generalizing s with
  | nil => cases h; exact .refl
  | cons e es ih =>
    simp only [run, Option.bind_eq_some] at h
    obtain ⟨s', hs, hr⟩ := h
    exact .head (phase_step hs) (ih hr)

theorem Phase.level_le_of_reach {a b : Phase} (h : Relation.ReflTransGen Phase.Next a b) :
    a.level ≤ b.level := by
  induction h with
  | refl => exact le_rfl
  | tail _ hn ih => exact ih.trans hn.level_le

/-- The code refines the scheduler: every step is one of its moves, every run a path of them
along which the phase never goes back, and the end phases have no step. -/
theorem phase_refines :
    (∀ (s s' : State) (e : Event), step cfg s e = some s' → Phase.Next s.pc.phase s'.pc.phase) ∧
      (∀ (s t : State) (es : List Event), run cfg s es = some t →
        Relation.ReflTransGen Phase.Next s.pc.phase t.pc.phase ∧
          s.pc.phase.level ≤ t.pc.phase.level) ∧
      ∀ s : State, 2 ≤ s.pc.phase.level → ∀ e, step cfg s e = none :=
  ⟨fun _ _ _ => phase_step, fun _ _ _ h => ⟨phase_run h, Phase.level_le_of_reach (phase_run h)⟩,
    fun _ => phase_final⟩

end

end PanoStress
