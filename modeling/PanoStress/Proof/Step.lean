import PanoStress.Machine

/-!
# What one step can do

`Resume cfg s s'`: `main` resumes from `s` to `s'`, one constructor per arm of `resume`, with the
`Pc` the arm reads. `step_cases` says a step is `cleanup` at a live `Pc` or one of these, so every
invariant below is a case analysis over `Resume`, never over `resume`'s match.
`Reachable.induction` packages the induction over runs.
-/

namespace PanoStress

@[simp] theorem State.call_pc (s : State) (c : Call) : (s.call c).pc = s.pc := rfl
@[simp] theorem State.call_stats (s : State) (c : Call) : (s.call c).stats = s.stats := rfl
@[simp] theorem State.call_node (s : State) (c : Call) : (s.call c).node = s.node := rfl
@[simp] theorem State.call_calls (s : State) (c : Call) : (s.call c).calls = s.calls ++ [c] := rfl
@[simp] theorem State.call_flushes (s : State) (c : Call) : (s.call c).flushes = s.flushes := rfl
@[simp] theorem State.flush_pc (s : State) (c : Caller) : (s.flush c).pc = s.pc := rfl
@[simp] theorem State.flush_stats (s : State) (c : Caller) : (s.flush c).stats = s.stats := rfl
@[simp] theorem State.flush_node (s : State) (c : Caller) : (s.flush c).node = s.node := rfl
@[simp] theorem State.flush_calls (s : State) (c : Caller) : (s.flush c).calls = s.calls := rfl
@[simp] theorem State.flush_flushes (s : State) (c : Caller) :
    (s.flush c).flushes = s.flushes ++ [(c, s.stats)] := rfl

section
variable {cfg : Config} {s s' : State}

/-- The transitions of `resume`, one per arm. -/
inductive Resume (cfg : Config) (s : State) : State → Prop
  | network : s.pc = .getNetwork → Resume cfg s (getBalances cfg 0 s)
  | balance {i : Nat} : s.pc = .getBalance i → Resume cfg s (getBalances cfg (i + 1) s)
  | fatal : s.pc = .getNetwork ∨ (∃ i, s.pc = .getBalance i) →
      Resume cfg s { s with pc := .exited 1 }
  | nonce {bs : BatchStats} {i : Nat} (n : Nat) : s.pc = .sendBatch ⟨bs, .getNonce i⟩ →
      Resume cfg s (prepare cfg bs i n s)
  | failed {bs : BatchStats} {i : Nat} : (s.pc = .sendBatch ⟨bs, .getNonce i⟩ ∨
      ∃ n tx, s.pc = .sendBatch ⟨bs, .sendTransaction i n tx⟩) →
      Resume cfg s (recordFailed cfg bs i s)
  | sent {bs : BatchStats} {i n : Nat} {tx : TxRequest} (h : Hash) :
      s.pc = .sendBatch ⟨bs, .sendTransaction i n tx⟩ → Resume cfg s (recordSent cfg bs i n tx h s)
  | pause {bs : BatchStats} {i : Nat} : s.pc = .sendBatch ⟨bs, .pause i⟩ →
      Resume cfg s (submit cfg bs (i + 1) s)
  | settle {bs : BatchStats} : s.pc = .sendBatch ⟨bs, .settle⟩ → Resume cfg s (poll cfg bs 0 0 s)
  | receipt {bs : BatchStats} {j c : Nat} (r : Option Receipt) :
      s.pc = .sendBatch ⟨bs, .getTransactionReceipt j c⟩ → Resume cfg s (received cfg bs j c r s)
  | lost {bs : BatchStats} {j c : Nat} : s.pc = .sendBatch ⟨bs, .getTransactionReceipt j c⟩ →
      Resume cfg s (poll cfg bs (j + 1) c s)
  | interval {b : Nat} : s.pc = .interval b → Resume cfg s (mainLoop cfg (b + 1) s)

theorem resume_spec {p : Pc} {e : Event} (hp : s.pc = p) (h : resume cfg s p e = some s') :
    Resume cfg s s' := by
  rcases p with _ | i | ⟨bs, _ | ⟨i, n, tx⟩ | i | _ | ⟨j, c⟩⟩ | b | _ | c <;>
    cases e <;> simp only [resume, Option.some.injEq, reduceCtorEq] at h <;> subst h
  all_goals first
    | exact .network hp | exact .balance hp | exact .fatal (.inl hp)
    | exact .fatal (.inr ⟨_, hp⟩) | exact .nonce _ hp | exact .failed (.inl hp)
    | exact .failed (.inr ⟨_, _, hp⟩) | exact .sent _ hp | exact .pause hp | exact .settle hp
    | exact .receipt _ hp | exact .lost hp | exact .interval hp

/-- A step is the handler at a live `Pc`, or `main` resuming. -/
theorem step_cases {e : Event} (h : step cfg s e = some s') :
    (s.pc.live ∧ s' = cleanup s) ∨ Resume cfg s s' := by
  cases e
  case signal =>
    simp only [step] at h
    split at h
    · exact .inl ⟨‹_›, (Option.some.inj h).symm⟩
    · cases h
  all_goals exact .inr (resume_spec rfl h)

/-- Only a live process steps. -/
theorem step_live {e : Event} (h : step cfg s e = some s') : s.pc.live := by
  rcases step_cases h with ⟨hl, -⟩ | hr
  · exact hl
  cases hr with
  | fatal hp => rcases hp with hp | ⟨_, hp⟩ <;> rw [hp] <;> rfl
  | failed hp => rcases hp with hp | ⟨_, _, hp⟩ <;> rw [hp] <;> rfl
  | network hp | balance hp | nonce _ hp | sent _ hp | pause hp | settle hp | receipt _ hp | lost hp
  | interval hp => rw [hp]; rfl

/-- Induction over runs: a property of the initial state kept by every step from a reachable
state holds of every reachable state. -/
theorem Reachable.induction {nonces : Address → Nat} {P : State → Prop}
    (init : P (State.init nonces))
    (step : ∀ s s' e, Reachable cfg nonces s → P s → step cfg s e = some s' → P s')
    (h : Reachable cfg nonces s) : P s := by
  induction h with
  | refl => exact init
  | tail hr hs ih => obtain ⟨e, he⟩ := hs; exact step _ _ e hr ih he

theorem Reachable.tail {nonces : Address → Nat} {e : Event} (h : Reachable cfg nonces s)
    (hs : step cfg s e = some s') : Reachable cfg nonces s' :=
  Relation.ReflTransGen.tail h ⟨e, hs⟩

/-- A state a run of events reaches from a reachable state is reachable. -/
theorem Reachable.run {nonces : Address → Nat} {es : List Event} (h : Reachable cfg nonces s)
    (hr : run cfg s es = some s') : Reachable cfg nonces s' := by
  induction es generalizing s with
  | nil => cases hr; exact h
  | cons e es ih =>
    simp only [PanoStress.run, Option.bind_eq_some] at hr
    obtain ⟨t, ht, hr⟩ := hr
    exact ih (h.tail ht) hr

theorem Reachable.init (nonces : Address → Nat) : Reachable cfg nonces (State.init nonces) :=
  Relation.ReflTransGen.refl

theorem run_append (s : State) (es₁ es₂ : List Event) :
    run cfg s (es₁ ++ es₂) = (run cfg s es₁).bind (run cfg · es₂) := by
  induction es₁ generalizing s with
  | nil => rfl
  | cons e es₁ ih =>
    simp only [List.cons_append, PanoStress.run, Option.bind_assoc]
    exact congrArg _ (funext fun t => ih t)

end

end PanoStress
