import PanoStress.Proof.Completion

/-!
# Every completed session is a pattern of tick outcomes

`session_run` runs every pattern of `TickOutcome`s to `main`'s return. This module proves the
converse: the outcomes miss no behaviour. `Finishes cfg s es` says the events `es` take `s` to a
state where `main` has returned. At each await, a finishing run's next event is one that `main`
resumes on (`finishes_cons`: never the signal, whose handler exits), and which ones those are is
read off `resume` (`next_getNonce`, `next_sendTransaction`, ...). So from the start of an attempt
the events begin with one `Attempt`'s (`attempt_shape`), from a receipt query with one `Lookup`'s
(`poll_shape`), a tick with one `TickOutcome`'s (`tick_shape`), and the loops repeat this
(`balances_shape`, `submit_shape`, `ticks_shape`). The forward lemmas (`attempt_run`,
`submit_run`, `poll_run`) give the state each prefix ends in, and `finishes_append` continues
from there.

`session_finishes_iff`: the runs from start-up after which `main` has returned are exactly
start-up's answers and then `totalBatches` ticks, each ending as some `TickOutcome`, with the
interval sleep between two ticks (`session_complete` one way, `session_finishes` the other).
-/

namespace PanoStress

/-- The events `es` take `s` to a state where `main` has returned. -/
def Finishes (cfg : Config) (s : State) (es : List Event) : Prop :=
  ∃ t, run cfg s es = some t ∧ t.pc = .finished

/-- The events of a session, start-up's answers and then ticks ending as `os`. -/
def sessionEvents (cfg : Config) (os : List TickOutcome) : List Event :=
  List.replicate (cfg.senders.length + 1) .resolve ++ ticksEvents os

/-- `es` are start-up's answers and then `totalBatches` ticks, each ending as some outcome: by
`session_finishes_iff`, the sessions after which `main` has returned. -/
def Complete (cfg : Config) (es : List Event) : Prop :=
  ∃ os : List TickOutcome, os.length = cfg.totalBatches ∧ (∀ o ∈ os, o.Ok cfg) ∧
    es = sessionEvents cfg os

section
variable {cfg : Config} {s : State} {e : Event} {es : List Event}

/-- A process that no longer runs takes no step. -/
theorem run_dead {t : State} (hl : s.pc.live = false) (h : run cfg s es = some t) : es = [] ∧ t = s := by
  cases es with
  | nil => exact ⟨rfl, (Option.some.inj h).symm⟩
  | cons e es =>
    simp only [run, Option.bind_eq_some] at h
    obtain ⟨s', hs, -⟩ := h
    exact absurd (step_live hs) (by simp [hl])

theorem finishes_nil (h : Finishes cfg s []) : s.pc = .finished := by
  obtain ⟨t, ht, hp⟩ := h
  cases ht
  exact hp

/-- After `main` returns, nothing more happens. -/
theorem finishes_finished (hp : s.pc = .finished) (h : Finishes cfg s es) : es = [] := by
  obtain ⟨t, ht, -⟩ := h
  exact (run_dead (by rw [hp]; rfl) ht).1

theorem not_finishes_exited {c : Nat} (hp : s.pc = .exited c) : ¬ Finishes cfg s es := by
  rintro ⟨t, ht, htp⟩
  obtain ⟨-, rfl⟩ := run_dead (by rw [hp]; rfl) ht
  rw [hp] at htp
  cases htp

theorem finishes_append {u : State} {l : List Event} (h : Finishes cfg s (l ++ es))
    (hl : run cfg s l = some u) : Finishes cfg u es := by
  obtain ⟨t, ht, hp⟩ := h
  rw [run_append, hl, Option.some_bind] at ht
  exact ⟨t, ht, hp⟩

/-- The first event of a finishing run is one `main` resumes on: the handler exits. -/
theorem finishes_cons (h : Finishes cfg s (e :: es)) :
    ∃ s', resume cfg s s.pc e = some s' ∧ Finishes cfg s' es := by
  obtain ⟨t, ht, hp⟩ := h
  simp only [run, Option.bind_eq_some] at ht
  obtain ⟨s', hs, ht⟩ := ht
  cases e
  case signal =>
    simp only [step] at hs
    split at hs
    · cases hs
      exact absurd ⟨t, ht, hp⟩ (not_finishes_exited rfl)
    · cases hs
  all_goals exact ⟨s', hs, t, ht, hp⟩

/-! ## The next event at each await -/

theorem next_getNetwork (hp : s.pc = .getNetwork) (h : Finishes cfg s (e :: es)) :
    e = .resolve ∧ Finishes cfg (getBalances cfg 0 s) es := by
  obtain ⟨s', hs, h⟩ := finishes_cons h
  rw [hp] at hs
  cases e <;> simp only [resume, Option.some.injEq, reduceCtorEq] at hs <;> subst hs
  exacts [⟨rfl, h⟩, absurd h (not_finishes_exited rfl)]

theorem next_getBalance {i : Nat} (hp : s.pc = .getBalance i) (h : Finishes cfg s (e :: es)) :
    e = .resolve ∧ Finishes cfg (getBalances cfg (i + 1) s) es := by
  obtain ⟨s', hs, h⟩ := finishes_cons h
  rw [hp] at hs
  cases e <;> simp only [resume, Option.some.injEq, reduceCtorEq] at hs <;> subst hs
  exacts [⟨rfl, h⟩, absurd h (not_finishes_exited rfl)]

theorem next_getNonce {bs : BatchStats} {i : Nat} (hp : s.pc = .sendBatch ⟨bs, .getNonce i⟩)
    (h : Finishes cfg s (e :: es)) :
    (∃ n, e = .nonce n ∧ Finishes cfg (prepare cfg bs i n s) es) ∨
      e = .reject ∧ Finishes cfg (recordFailed cfg bs i s) es := by
  obtain ⟨s', hs, h⟩ := finishes_cons h
  rw [hp] at hs
  cases e <;> simp only [resume, Option.some.injEq, reduceCtorEq] at hs <;> subst hs
  exacts [.inl ⟨_, rfl, h⟩, .inr ⟨rfl, h⟩]

theorem next_sendTransaction {bs : BatchStats} {i n : Nat} {tx : TxRequest}
    (hp : s.pc = .sendBatch ⟨bs, .sendTransaction i n tx⟩) (h : Finishes cfg s (e :: es)) :
    (∃ x, e = .sent x ∧ Finishes cfg (recordSent cfg bs i n tx x s) es) ∨
      e = .reject ∧ Finishes cfg (recordFailed cfg bs i s) es := by
  obtain ⟨s', hs, h⟩ := finishes_cons h
  rw [hp] at hs
  cases e <;> simp only [resume, Option.some.injEq, reduceCtorEq] at hs <;> subst hs
  exacts [.inr ⟨rfl, h⟩, .inl ⟨_, rfl, h⟩]

theorem next_pause {bs : BatchStats} {i : Nat} (hp : s.pc = .sendBatch ⟨bs, .pause i⟩)
    (h : Finishes cfg s (e :: es)) : e = .resolve ∧ Finishes cfg (submit cfg bs (i + 1) s) es := by
  obtain ⟨s', hs, h⟩ := finishes_cons h
  rw [hp] at hs
  cases e <;> simp only [resume, Option.some.injEq, reduceCtorEq] at hs
  subst hs
  exact ⟨rfl, h⟩

theorem next_settle {bs : BatchStats} (hp : s.pc = .sendBatch ⟨bs, .settle⟩)
    (h : Finishes cfg s (e :: es)) : e = .resolve ∧ Finishes cfg (poll cfg bs 0 0 s) es := by
  obtain ⟨s', hs, h⟩ := finishes_cons h
  rw [hp] at hs
  cases e <;> simp only [resume, Option.some.injEq, reduceCtorEq] at hs
  subst hs
  exact ⟨rfl, h⟩

theorem next_receipt {bs : BatchStats} {j c : Nat}
    (hp : s.pc = .sendBatch ⟨bs, .getTransactionReceipt j c⟩) (h : Finishes cfg s (e :: es)) :
    ∃ o : Lookup, e = o.event ∧ Finishes cfg (poll cfg (bs.lookup j o) (j + 1) (c + o.hit) s) es := by
  obtain ⟨s', hs, hf⟩ := finishes_cons h
  rw [hp] at hs
  have hl : ∀ o : Lookup, e = o.event → ∃ o' : Lookup, e = o'.event ∧
      Finishes cfg (poll cfg (bs.lookup j o') (j + 1) (c + o'.hit) s) es := by
    rintro o rfl
    rw [received_lookup, Option.some.injEq] at hs
    exact ⟨o, rfl, hs ▸ hf⟩
  cases e
  case receipt r => exact hl (.answer r) rfl
  case reject => exact hl .throws rfl
  all_goals simp [resume] at hs

theorem next_interval {b : Nat} (hp : s.pc = .interval b) (h : Finishes cfg s (e :: es)) :
    e = .resolve ∧ Finishes cfg (mainLoop cfg (b + 1) s) es := by
  obtain ⟨s', hs, h⟩ := finishes_cons h
  rw [hp] at hs
  cases e <;> simp only [resume, Option.some.injEq, reduceCtorEq] at hs
  subst hs
  exact ⟨rfl, h⟩

end

/-! ## The shape of a finishing run -/

section
variable {cfg : Config}

theorem not_finishes_sendBatch {s : State} {f : Frame} (hp : s.pc = .sendBatch f) :
    ¬ Finishes cfg s [] := fun h => by
  have := finishes_nil h
  rw [hp] at this
  cases this

/-- A finishing run from the start of attempt `i` begins with one attempt's events. -/
theorem attempt_shape {bs : BatchStats} {i : Nat} {s : State} {es : List Event}
    (hi : i < cfg.txPerBatch) (h : Finishes cfg (submit cfg bs i s) es) :
    ∃ (o : Attempt) (es' : List Event), es = o.events ++ es' := by
  rw [submit_lt s hi] at h
  rcases es with _ | ⟨e, es⟩
  · exact absurd h (not_finishes_sendBatch rfl)
  rcases next_getNonce rfl h with ⟨n, rfl, h₁⟩ | ⟨rfl, -⟩
  · rcases es with _ | ⟨e, es⟩
    · exact absurd h₁ (not_finishes_sendBatch rfl)
    rcases next_sendTransaction rfl h₁ with ⟨x, rfl, h₂⟩ | ⟨rfl, -⟩
    · rcases es with _ | ⟨e, es⟩
      · exact absurd h₂ (not_finishes_sendBatch rfl)
      obtain ⟨rfl, -⟩ := next_pause rfl h₂
      exact ⟨.sent n x, es, rfl⟩
    · exact ⟨.sendThrows n, es, rfl⟩
  · exact ⟨.nonceThrows, es, rfl⟩

/-- A finishing run from attempt `i` begins with the events of the `k` attempts left. -/
theorem submit_shape (k : Nat) : ∀ (i : Nat) (bs : BatchStats) (s : State) (es : List Event),
    i + k = cfg.txPerBatch → Finishes cfg (submit cfg bs i s) es →
    ∃ os : List Attempt, os.length = k ∧ ∃ es', es = os.flatMap Attempt.events ++ es' := by
  induction k with
  | zero => exact fun _ _ _ es _ _ => ⟨[], rfl, es, rfl⟩
  | succ k ih =>
    intro i bs s es hi h
    obtain ⟨o, es₁, rfl⟩ := attempt_shape (by omega) h
    obtain ⟨s₁, bs₁, hr, -⟩ := @attempt_run cfg bs i s (by omega) o
    obtain ⟨os, hl, es', rfl⟩ := ih (i + 1) bs₁ s₁ es₁ (by omega) (finishes_append h hr)
    exact ⟨o :: os, by simp [hl], es', by simp⟩

/-- A finishing run from the receipt query of record `j` begins with the `k` queries left. -/
theorem poll_shape (k : Nat) : ∀ (j c : Nat) (bs : BatchStats) (s : State) (es : List Event),
    bs.transactions.length = j + k → Finishes cfg (poll cfg bs j c s) es →
    ∃ ls : List Lookup, ls.length = k ∧ ∃ es', es = ls.map Lookup.event ++ es' := by
  induction k with
  | zero => exact fun _ _ _ _ es _ _ => ⟨[], rfl, es, rfl⟩
  | succ k ih =>
    intro j c bs s es hl h
    obtain ⟨tx, htx⟩ : ∃ tx, bs.transactions[j]? = some tx :=
      ⟨_, List.getElem?_eq_getElem (by omega)⟩
    rw [poll_some s htx] at h
    rcases es with _ | ⟨e, es⟩
    · exact absurd h (not_finishes_sendBatch rfl)
    obtain ⟨o, rfl, h₁⟩ := next_receipt rfl h
    obtain ⟨ls, hls, es', rfl⟩ := ih (j + 1) _ _ _ es (by simp [BatchStats.lookup, hl]; omega) h₁
    exact ⟨o :: ls, by simp [hls], es', rfl⟩

theorem finishes_finishBatch {bs : BatchStats} {c : Nat} {s : State} {es : List Event}
    (h : Finishes cfg (finishBatch cfg bs c s) es) : ∃ u, Finishes cfg (afterBatch cfg bs.batchNumber u) es := by
  unfold finishBatch at h
  split_ifs at h <;> exact ⟨_, h⟩

/-- A finishing run from `main`'s call of `sendBatch(b)` begins with one tick's events and goes on
from `sendBatch`'s return. -/
theorem tick_shape {b : Nat} {s : State} {es : List Event} (hb : b ≤ cfg.totalBatches)
    (h : Finishes cfg (mainLoop cfg b s) es) : ∃ o : TickOutcome, o.Ok cfg ∧
      ∃ u es', es = o.events ++ es' ∧ Finishes cfg (afterBatch cfg b u) es' := by
  rw [mainLoop, if_pos hb, sendBatch] at h
  obtain ⟨os, hos, es₁, rfl⟩ := submit_shape cfg.txPerBatch 0 _ s es (Nat.zero_add _) h
  obtain ⟨t₁, bs', hr, hp, hsub⟩ := @submit_run cfg os 0 ⟨b, [], 0, 0, 0⟩ s (by omega)
  have h₁ := finishes_append h hr
  rcases es₁ with _ | ⟨e, es₂⟩
  · exact absurd h₁ (not_finishes_sendBatch hp)
  obtain ⟨rfl, h₂⟩ := next_settle hp h₁
  obtain ⟨txs, ht, hk, -⟩ := hsub.records
  have hlen : bs'.transactions.length = os.countP Attempt.isSent := by
    rw [ht, List.nil_append, ← length_filterMap_record cfg b os 0, ← hk, List.length_map]
  obtain ⟨ls, hls, es₃, rfl⟩ := poll_shape _ 0 0 bs' t₁ es₂ (Nat.zero_add _).symm h₂
  obtain ⟨u, hu, -⟩ := @poll_run cfg bs'.transactions [] ls bs' 0 t₁ hls rfl
  obtain ⟨v, h₃⟩ := finishes_finishBatch (finishes_append h₂ hu)
  have hn : bs'.batchNumber = b := hsub.batch.1
  simp only [hn] at h₃
  exact ⟨⟨os, ls⟩, ⟨hos, hls.trans hlen⟩, v, es₃, by simp [TickOutcome.events], h₃⟩

/-- A finishing run from `main`'s call of `sendBatch(b + 1)`, `k` ticks being left, is the events
of `k` ticks, the interval sleep between two of them. -/
theorem ticks_shape (k : Nat) : ∀ (b : Nat) (s : State) (es : List Event),
    b + k = cfg.totalBatches → Finishes cfg (mainLoop cfg (b + 1) s) es →
    ∃ os : List TickOutcome, os.length = k ∧ (∀ o ∈ os, o.Ok cfg) ∧ es = ticksEvents os := by
  induction k with
  | zero =>
    intro b s es hb h
    rw [mainLoop, if_neg (by omega)] at h
    exact ⟨[], rfl, nofun, finishes_finished rfl h⟩
  | succ k ih =>
    intro b s es hb h
    obtain ⟨o, hok, u, es₁, rfl, h₁⟩ := tick_shape (by omega) h
    rcases k with _ | k
    · rw [afterBatch, if_neg (by omega), mainLoop, if_neg (by omega)] at h₁
      obtain rfl := finishes_finished rfl h₁
      exact ⟨[o], rfl, by simpa using hok, by simp [ticksEvents]⟩
    · rw [afterBatch, if_pos (by omega)] at h₁
      rcases es₁ with _ | ⟨e, es₂⟩
      · exact absurd (finishes_nil h₁) nofun
      obtain ⟨rfl, h₂⟩ := next_interval rfl h₁
      obtain ⟨os, hl, hok', rfl⟩ := ih (b + 1) _ es₂ (by omega) h₂
      obtain ⟨o', os', rfl⟩ := List.exists_cons_of_length_eq_add_one hl
      exact ⟨o :: o' :: os', by simpa using hl, List.forall_mem_cons.2 ⟨hok, hok'⟩, rfl⟩

/-- A finishing run from the balance query of wallet `i` begins with the `k` queries left, each
resolving. -/
theorem balances_shape (k : Nat) : ∀ (i : Nat) (s : State) (es : List Event),
    i + k = cfg.senders.length → Finishes cfg (getBalances cfg i s) es →
    ∃ s' es', es = List.replicate k .resolve ++ es' ∧ Finishes cfg (mainLoop cfg 1 s') es' := by
  induction k with
  | zero =>
    intro i s es hi h
    rw [getBalances, List.getElem?_eq_none (by omega)] at h
    exact ⟨s, es, rfl, h⟩
  | succ k ih =>
    intro i s es hi h
    rw [getBalances, List.getElem?_eq_getElem (by omega)] at h
    rcases es with _ | ⟨e, es⟩
    · exact absurd (finishes_nil h) nofun
    obtain ⟨rfl, h₁⟩ := next_getBalance rfl h
    obtain ⟨s', es', rfl, h₂⟩ := ih (i + 1) _ es (by omega) h₁
    exact ⟨s', es', rfl, h₂⟩

/-- Every finishing run from start-up is start-up's answers and `totalBatches` ticks. -/
theorem session_complete {nonces : Address → Nat} {es : List Event}
    (h : Finishes cfg (State.init nonces) es) : Complete cfg es := by
  rcases es with _ | ⟨e, es⟩
  · exact absurd (finishes_nil h) nofun
  obtain ⟨rfl, h₁⟩ := next_getNetwork rfl h
  obtain ⟨s', es', rfl, h₂⟩ := balances_shape cfg.senders.length 0 _ es (Nat.zero_add _) h₁
  obtain ⟨os, hl, hok, rfl⟩ := ticks_shape cfg.totalBatches 0 s' es' (Nat.zero_add _) h₂
  exact ⟨os, hl, hok, rfl⟩

theorem finishes_of_complete (nonces : Address → Nat) {es : List Event} (h : Complete cfg es) :
    Finishes cfg (State.init nonces) es := by
  obtain ⟨os, hl, hok, rfl⟩ := h
  exact session_finishes nonces os hl hok

/-- **The sessions that end with `main`'s return** are exactly start-up's answers followed by
`totalBatches` ticks, each ending as some `TickOutcome`. -/
theorem session_finishes_iff (nonces : Address → Nat) (es : List Event) :
    Finishes cfg (State.init nonces) es ↔ Complete cfg es :=
  ⟨session_complete, finishes_of_complete nonces⟩

/-! ## The longest sessions -/

/-- Terms each at most `c` sum to at most `c` per term, and to exactly that when each is `c`. -/
theorem sum_map_le {α : Type} {f : α → Nat} {c : Nat} {l : List α} (h : ∀ x ∈ l, f x ≤ c) :
    (l.map f).sum ≤ l.length * c ∧ ((l.map f).sum = l.length * c ↔ ∀ x ∈ l, f x = c) := by
  have hc : (l.map fun _ => c).sum = l.length * c := by simp
  refine ⟨hc ▸ List.sum_le_sum h, fun he x hx => ?_, fun he => by rw [List.map_congr_left he, hc]⟩
  by_contra hne
  exact (hc ▸ List.sum_lt_sum f _ h ⟨x, hx, lt_of_le_of_ne (h x hx) hne⟩).ne he

/-- An attempt's events and its receipt query: four for a sent one, fewer for the others. -/
theorem Attempt.weight (o : Attempt) :
    o.events.length + o.isSent.toNat ≤ 4 ∧ (o.events.length + o.isSent.toNat = 4 ↔ o.isSent) := by
  cases o <;> simp [Attempt.events, Attempt.isSent]

theorem length_attempts : ∀ os : List Attempt,
    (os.flatMap Attempt.events).length + os.countP Attempt.isSent =
      (os.map fun o => o.events.length + o.isSent.toNat).sum
  | [] => rfl
  | o :: os => by
    rw [List.flatMap_cons, List.length_append, List.countP_cons, List.map_cons, List.sum_cons,
      ← length_attempts os]
    cases o.isSent <;> simp <;> omega

/-- A tick and the sleep after it take at most `4 * txPerBatch + 2` events, and exactly that many
when every attempt is sent. -/
theorem length_tick {o : TickOutcome} (ho : o.Ok cfg) :
    o.events.length + 1 ≤ 4 * cfg.txPerBatch + 2 ∧
      (o.events.length + 1 = 4 * cfg.txPerBatch + 2 ↔ ∀ a ∈ o.attempts, a.isSent) := by
  have hl : o.events.length + 1 = (o.attempts.map fun a => a.events.length + a.isSent.toNat).sum + 2 := by
    rw [TickOutcome.events, List.length_append, List.length_cons, List.length_map, ho.2,
      ← length_attempts]
    omega
  obtain ⟨hle, hiff⟩ := sum_map_le fun a (_ : a ∈ o.attempts) => a.weight.1
  rw [ho.1] at hle hiff
  rw [hl]
  refine ⟨by omega, ?_⟩
  calc _ ↔ (o.attempts.map fun a => a.events.length + a.isSent.toNat).sum = cfg.txPerBatch * 4 := by
        omega
    _ ↔ ∀ a ∈ o.attempts, a.events.length + a.isSent.toNat = 4 := hiff
    _ ↔ _ := forall₂_congr fun a _ => a.weight.2

/-- The ticks' events and the sleeps between them. -/
theorem length_ticksEvents : ∀ os : List TickOutcome,
    (ticksEvents os).length = (os.map fun o => o.events.length + 1).sum - 1
  | [] => rfl
  | [o] => by simp [ticksEvents]
  | o :: o' :: os => by
    rw [show ticksEvents (o :: o' :: os) = o.events ++ .resolve :: ticksEvents (o' :: os) from rfl,
      List.length_append, List.length_cons, length_ticksEvents (o' :: os)]
    simp only [List.map_cons, List.sum_cons]
    omega

/-- **Every session that runs to `main`'s return** takes at most
`senders.length + 1 + (totalBatches * (4 * txPerBatch + 2) - 1)` events, and exactly that many
when every attempt of every tick is sent, whatever `getNonce` answered, the hashes and the
receipts. -/
theorem session_longest (nonces : Address → Nat) (os : List TickOutcome)
    (hl : os.length = cfg.totalBatches) (hok : ∀ o ∈ os, o.Ok cfg) :
    Finishes cfg (State.init nonces) (sessionEvents cfg os) ∧
      (sessionEvents cfg os).length ≤
        cfg.senders.length + 1 + (cfg.totalBatches * (4 * cfg.txPerBatch + 2) - 1) ∧
      ((sessionEvents cfg os).length =
          cfg.senders.length + 1 + (cfg.totalBatches * (4 * cfg.txPerBatch + 2) - 1) ↔
        ∀ o ∈ os, ∀ a ∈ o.attempts, a.isSent) := by
  obtain ⟨hle, hiff⟩ := sum_map_le fun o ho => (length_tick (hok o ho)).1
  have hge := List.card_nsmul_le_sum (os.map fun o => o.events.length + 1) 1 (by simp)
  simp only [List.length_map, smul_eq_mul, Nat.mul_one] at hge
  rw [hl] at hle hiff hge
  have hz : cfg.totalBatches = 0 → cfg.totalBatches * (4 * cfg.txPerBatch + 2) = 0 :=
    fun h => by rw [h, Nat.zero_mul]
  have hlen : (sessionEvents cfg os).length =
      cfg.senders.length + 1 + ((os.map fun o => o.events.length + 1).sum - 1) := by
    rw [sessionEvents, List.length_append, List.length_replicate, length_ticksEvents]
  refine ⟨finishes_of_complete nonces ⟨os, hl, hok, rfl⟩, by omega, ?_⟩
  calc _ ↔ (os.map fun o => o.events.length + 1).sum =
        cfg.totalBatches * (4 * cfg.txPerBatch + 2) := by rw [hlen]; omega
    _ ↔ ∀ o ∈ os, o.events.length + 1 = 4 * cfg.txPerBatch + 2 := hiff
    _ ↔ _ := forall₂_congr fun o ho => (length_tick (hok o ho)).2

end

theorem session_longest_confirmed : confirmedTicks.length = twoTickConfig.totalBatches ∧
    (∀ o ∈ confirmedTicks, o.Ok twoTickConfig) ∧
    Finishes twoTickConfig (State.init fun _ => 0) (sessionEvents twoTickConfig confirmedTicks) ∧
    (sessionEvents twoTickConfig confirmedTicks).length = 14 := by
  have hl : confirmedTicks.length = twoTickConfig.totalBatches := by decide
  have hok : ∀ o ∈ confirmedTicks, o.Ok twoTickConfig := by
    simp only [confirmedTicks, List.forall_mem_cons, List.forall_mem_nil]
    exact ⟨⟨by decide, rfl⟩, ⟨by decide, rfl⟩, nofun⟩
  obtain ⟨hf, -, hiff⟩ := session_longest (fun _ => 0) confirmedTicks hl hok
  exact ⟨hl, hok, hf, hiff.2 (by decide)⟩

end PanoStress
