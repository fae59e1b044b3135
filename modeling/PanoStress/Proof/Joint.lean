import PanoStress.Proof.Shared

/-!
# Two sessions on one node

`Joint`: two processes of the stress test against one node, for instance the script started
twice with the same senders. At each step one of them runs (`jointStep`) and the other sees the
node it leaves. A step of a process leaves the node alone or makes it accept one transfer
(`step_node`), so each process's view of a joint run is a run with other clients
(`joint_shared`).

`JointInv` carries both processes' record positions (`SharedInv`). They are distinct, and unless
one of the processes was stopped by the handler (`.exited 0`, which drops its open batch) they
cover the log. A step of the first process keeps it by `Moves` (`JointInv.stepFst`); a step of
the second is one of the first after swapping the two (`jointStep_swap`, `JointInv.swap`).

* `joint_ledger`: in every joint run, each session's records are placed in the shared log. No
  accepted transfer is the transfer of two records, and while neither session was interrupted
  every accepted transfer is the transfer of exactly one record.
* `joint_ledger_sameNonce`: the two sessions may record the same nonce for two transfers of one
  sender, which the node assigned different nonces.
-/

namespace PanoStress

/-- Two processes of the stress test; their `node`s are the one node they share. -/
structure Joint where
  fst : State
  snd : State

/-- Both processes at start-up, the node at pending nonces `nonces`. -/
def Joint.init (nonces : Address → Nat) : Joint := ⟨State.init nonces, State.init nonces⟩

/-- The two processes, exchanged. -/
def Joint.swap (j : Joint) : Joint := ⟨j.snd, j.fst⟩

section
variable (cfg₁ cfg₂ : Config)

/-- A step of the first process (`.inl`) or of the second (`.inr`); the other sees the node the
step leaves. -/
def jointStep (j : Joint) : Event ⊕ Event → Option Joint
  | .inl e => (step cfg₁ j.fst e).map fun s => ⟨s, { j.snd with node := s.node }⟩
  | .inr e => (step cfg₂ j.snd e).map fun s => ⟨{ j.fst with node := s.node }, s⟩

/-- The two processes after the steps `es`. -/
def jointRun (j : Joint) : List (Event ⊕ Event) → Option Joint
  | [] => some j
  | e :: es => (jointStep cfg₁ cfg₂ j e).bind (jointRun · es)

/-- `j` is reachable from both processes' start-up, their steps interleaved in any order. -/
def JointReachable (nonces : Address → Nat) (j : Joint) : Prop :=
  Relation.ReflTransGen (fun j j' => ∃ e, jointStep cfg₁ cfg₂ j e = some j') (Joint.init nonces) j

end

section
variable {cfg cfg₁ cfg₂ : Config} {nonces : Address → Nat} {s s' : State} {e : Event}

theorem jointStep_swap (j : Joint) (e : Event) :
    jointStep cfg₁ cfg₂ j (.inr e) = (jointStep cfg₂ cfg₁ j.swap (.inl e)).map Joint.swap := by
  simp only [jointStep, Joint.swap, Option.map_map]
  rfl

theorem JointReachable.run {es : List (Event ⊕ Event)} {j j' : Joint}
    (h : JointReachable cfg₁ cfg₂ nonces j) (hr : jointRun cfg₁ cfg₂ j es = some j') :
    JointReachable cfg₁ cfg₂ nonces j' := by
  induction es generalizing j with
  | nil => cases hr; exact h
  | cons e es ih =>
    simp only [jointRun, Option.bind_eq_some] at hr
    obtain ⟨t, ht, hr⟩ := hr
    exact ih (h.tail ⟨e, ht⟩) hr

/-- A step leaves the node alone or makes it accept one transfer. -/
theorem step_node (h : step cfg s e = some s') :
    s'.node = s.node ∨ ∃ a tx x, s'.node = s.node.accept a tx x := by
  rcases step_cases h with ⟨-, rfl⟩ | hr
  · exact .inl rfl
  cases hr with
  | network | balance => exact .inl quiet_getBalances.node
  | fatal | nonce => exact .inl rfl
  | failed => exact .inl quiet_submit.node
  | sent x => exact .inr ⟨_, _, x, rfl⟩
  | pause => exact .inl quiet_submit.node
  | settle | lost => exact .inl quiet_poll.node
  | receipt r => exact .inl (quiet_received r).node
  | interval => exact .inl quiet_mainLoop.node

/-- The other process's view of a step: nothing, or another client's transfer. -/
theorem SharedReachable.other {t : State} (h : SharedReachable cfg nonces t) (hn : t.node = s.node)
    (hs : step cfg₁ s e = some s') : SharedReachable cfg nonces { t with node := s'.node } := by
  rcases step_node hs with he | ⟨a, tx, x, he⟩
  · rw [he, ← hn]
    exact h
  · rw [he, ← hn]
    exact h.tail ⟨.inr ⟨a, tx, x⟩, rfl⟩

/-- The same for the other process's invariant. -/
theorem sharedInv_other {t : State} {ps : List Nat} (h : SharedInv nonces t ps)
    (hn : t.node = s.node) (hs : step cfg₁ s e = some s') :
    SharedInv nonces { t with node := s'.node } ps := by
  rcases step_node hs with he | ⟨a, tx, x, he⟩
  · rw [he, ← hn]
    exact h
  · rw [he, ← hn]
    exact h.foreign a tx x

/-- **Each process's view of a joint run** is a run with other clients. -/
theorem joint_shared {j : Joint} (h : JointReachable cfg₁ cfg₂ nonces j) :
    SharedReachable cfg₁ nonces j.fst ∧ SharedReachable cfg₂ nonces j.snd ∧ j.fst.node = j.snd.node := by
  induction h with
  | refl => exact ⟨.refl, .refl, rfl⟩
  | tail _ hs ih =>
    obtain ⟨h₁, h₂, hn⟩ := ih
    obtain ⟨e | e, he⟩ := hs
    · obtain ⟨s, hs, rfl⟩ := Option.map_eq_some'.1 he
      exact ⟨h₁.tail ⟨.inl e, hs⟩, h₂.other hn.symm hs, rfl⟩
    · obtain ⟨s, hs, rfl⟩ := Option.map_eq_some'.1 he
      exact ⟨h₁.other hn hs, h₂.tail ⟨.inl e, hs⟩, rfl⟩

end

/-- Both sessions of the deployed configuration start up, the `getNonce` of each answers 0 for
the first sender, then both submit. -/
def racingEvents : List (Event ⊕ Event) :=
  [.inl .resolve, .inl .resolve, .inl .resolve, .inr .resolve, .inr .resolve, .inr .resolve,
    .inl (.nonce 0), .inr (.nonce 0), .inl (.sent 100), .inr (.sent 200)]

theorem joint_shared_racing : ∃ j, JointReachable stressConfig stressConfig (fun _ => 0) j ∧
    j.fst.node.accepted.map (·.hash) = [100, 200] ∧
    SharedReachable stressConfig (fun _ => 0) j.fst ∧ SharedReachable stressConfig (fun _ => 0) j.snd ∧
    j.fst.node = j.snd.node := by
  obtain ⟨j, hr, h₁⟩ : ∃ j, jointRun stressConfig stressConfig (Joint.init fun _ => 0) racingEvents = some j ∧
      j.fst.node.accepted.map (·.hash) = [100, 200] := ⟨_, rfl, rfl⟩
  have hj : JointReachable stressConfig stressConfig (fun _ => 0) j := JointReachable.run .refl hr
  exact ⟨j, hj, h₁, joint_shared hj⟩

/-! ## The shared log -/

/-- The invariant of joint runs (module doc), `ps₁` and `ps₂` being the two processes' record
positions. -/
structure JointInv (nonces : Address → Nat) (j : Joint) (ps₁ ps₂ : List Nat) : Prop where
  fst : SharedInv nonces j.fst ps₁
  snd : SharedInv nonces j.snd ps₂
  node : j.fst.node = j.snd.node
  disjoint : ∀ p ∈ ps₁, p ∉ ps₂
  cover : j.fst.pc ≠ .exited 0 → j.snd.pc ≠ .exited 0 →
    ∀ p < j.fst.node.accepted.length, p ∈ ps₁ ∨ p ∈ ps₂

section
variable {cfg₁ cfg₂ : Config} {nonces : Address → Nat} {j : Joint} {ps₁ ps₂ : List Nat}

theorem JointInv.swap (h : JointInv nonces j ps₁ ps₂) : JointInv nonces j.swap ps₂ ps₁ where
  fst := h.snd
  snd := h.fst
  node := h.node.symm
  disjoint p h₂ h₁ := h.disjoint p h₁ h₂
  cover h₂ h₁ p hp := (h.cover h₁ h₂ p (h.node ▸ hp)).symm

/-- A step of the first process keeps the invariant. -/
theorem JointInv.stepFst {e : Event} {j' : Joint} (h : JointInv nonces j ps₁ ps₂)
    (hs : jointStep cfg₁ cfg₂ j (.inl e) = some j') : ∃ ps₁', JointInv nonces j' ps₁' ps₂ := by
  obtain ⟨s, hst, rfl⟩ := Option.map_eq_some'.1 hs
  obtain ⟨ps₁', hw, hm⟩ := h.fst.step hst
  have hl : j.fst.pc ≠ .exited 0 := fun hp => by have := step_live hst; rw [hp] at this; cases this
  have hsnd := sharedInv_other h.snd h.node.symm hst
  rcases hm with ⟨hn, rfl⟩ | ⟨-, hp, hpre⟩ | ⟨a, tx, x, hn, rfl⟩
  · exact ⟨_, hw, hsnd, rfl, h.disjoint, fun _ h₂ => hn ▸ h.cover hl h₂⟩
  · exact ⟨_, hw, hsnd, rfl, fun p hp₁ => h.disjoint p (hpre.subset hp₁), fun h₁ => (h₁ hp).elim⟩
  · refine ⟨_, hw, hsnd, rfl, ?_, fun _ h₂ p hp => ?_⟩
    · simp only [List.mem_append, List.mem_singleton]
      rintro p (hp | rfl)
      exacts [h.disjoint p hp, fun hp => Nat.lt_irrefl _ (h.node ▸ placed_lt h.snd.placed _ hp)]
    · simp only [hn, Node.accept_accepted, List.length_append, List.length_singleton] at hp
      simp only [List.mem_append, List.mem_singleton]
      rcases Nat.lt_or_ge p j.fst.node.accepted.length with hp' | hp'
      exacts [(h.cover hl h₂ p hp').imp_left .inl, .inl (.inr (by omega))]

theorem JointInv.step {e : Event ⊕ Event} {j' : Joint} (h : JointInv nonces j ps₁ ps₂)
    (hs : jointStep cfg₁ cfg₂ j e = some j') : ∃ ps₁' ps₂', JointInv nonces j' ps₁' ps₂' := by
  rcases e with e | e
  · obtain ⟨ps₁', hw⟩ := h.stepFst hs
    exact ⟨ps₁', ps₂, hw⟩
  · rw [jointStep_swap] at hs
    obtain ⟨j'', hst, rfl⟩ := Option.map_eq_some'.1 hs
    obtain ⟨ps₂', hw⟩ := h.swap.stepFst hst
    exact ⟨ps₁, ps₂', hw.swap⟩

theorem jointInv_reachable (h : JointReachable cfg₁ cfg₂ nonces j) :
    ∃ ps₁ ps₂, JointInv nonces j ps₁ ps₂ := by
  induction h with
  | refl =>
    exact ⟨[], [], SharedInv.init nonces, SharedInv.init nonces, rfl, nofun, fun _ _ _ hp => by
      simp [Joint.init, State.init] at hp⟩
  | tail _ hs ih =>
    obtain ⟨ps₁, ps₂, hw⟩ := ih
    obtain ⟨e, he⟩ := hs
    exact hw.step he

/-- **In every joint run**, each session's records are placed in the shared log. The positions
of the two sessions' transfers are distinct, and while neither session was interrupted they are
all the positions of the log: every transfer the node accepted is the transfer of exactly one
record. -/
theorem joint_ledger (h : JointReachable cfg₁ cfg₂ nonces j) :
    j.fst.node = j.snd.node ∧ ∃ ps₁ ps₂,
      List.Forall₂ (Placed nonces j.fst.node.accepted) (j.fst.records.map TxRecord.key) ps₁ ∧
      List.Forall₂ (Placed nonces j.fst.node.accepted) (j.snd.records.map TxRecord.key) ps₂ ∧
      (ps₁ ++ ps₂).Nodup ∧
      (j.fst.pc ≠ .exited 0 → j.snd.pc ≠ .exited 0 →
        (ps₁ ++ ps₂).Perm (List.range j.fst.node.accepted.length)) := by
  obtain ⟨ps₁, ps₂, hw⟩ := jointInv_reachable h
  have hnd : (ps₁ ++ ps₂).Nodup :=
    List.nodup_append.2 ⟨hw.fst.sorted.imp Nat.ne_of_lt, hw.snd.sorted.imp Nat.ne_of_lt,
      fun p h₁ h₂ => hw.disjoint p h₁ h₂⟩
  refine ⟨hw.node, ps₁, ps₂, hw.fst.placed, hw.node ▸ hw.snd.placed, hnd, fun h₁ h₂ => ?_⟩
  refine (List.perm_ext_iff_of_nodup hnd (List.nodup_range _)).2 fun p => ?_
  rw [List.mem_append, List.mem_range]
  refine ⟨?_, hw.cover h₁ h₂ p⟩
  rintro (hp | hp)
  · exact placed_lt hw.fst.placed p hp
  · exact hw.node ▸ placed_lt hw.snd.placed p hp

end

theorem joint_ledger_sameNonce : ∃ j, JointReachable stressConfig stressConfig (fun _ => 0) j ∧
    j.fst.records.map (fun r => (r.«from», r.nonce)) = [(0xE56E6757b8D4124B235436a246af5DCB0a69D14D, 0)] ∧
    j.snd.records.map (fun r => (r.«from», r.nonce)) = [(0xE56E6757b8D4124B235436a246af5DCB0a69D14D, 0)] ∧
    j.fst.node.accepted.map (·.nonce) = [0, 1] ∧
    j.fst.node = j.snd.node ∧ ∃ ps₁ ps₂,
      List.Forall₂ (Placed (fun _ => 0) j.fst.node.accepted) (j.fst.records.map TxRecord.key) ps₁ ∧
      List.Forall₂ (Placed (fun _ => 0) j.fst.node.accepted) (j.snd.records.map TxRecord.key) ps₂ ∧
      (ps₁ ++ ps₂).Nodup ∧
      (j.fst.pc ≠ .exited 0 → j.snd.pc ≠ .exited 0 →
        (ps₁ ++ ps₂).Perm (List.range j.fst.node.accepted.length)) := by
  obtain ⟨j, hr, h₁, h₂, h₃⟩ : ∃ j, jointRun stressConfig stressConfig (Joint.init fun _ => 0) racingEvents = some j ∧
      j.fst.records.map (fun r => (r.«from», r.nonce)) = [(0xE56E6757b8D4124B235436a246af5DCB0a69D14D, 0)] ∧
      j.snd.records.map (fun r => (r.«from», r.nonce)) = [(0xE56E6757b8D4124B235436a246af5DCB0a69D14D, 0)] ∧
      j.fst.node.accepted.map (·.nonce) = [0, 1] := ⟨_, rfl, rfl, rfl, rfl⟩
  have hj : JointReachable stressConfig stressConfig (fun _ => 0) j :=
    JointReachable.run .refl hr
  exact ⟨j, hj, h₁, h₂, h₃, joint_ledger hj⟩

end PanoStress
