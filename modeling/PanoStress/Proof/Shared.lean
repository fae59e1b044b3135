import PanoStress.Proof.Nonce

/-!
# Other clients on the same node

The senders are ordinary accounts, and nothing stops another client from submitting transfers
from them while the session runs. `sharedStep` adds that to the machine: at any point the node
may accept another client's transfer (`Foreign`), from any address.

The request handed to `wallet.sendTransaction` carries no nonce (lines 129-134): the node assigns
its sender's pending nonce when it accepts the transfer, whoever else used the sender before.
`Node.Ledger`: every accepted transfer carries its sender's pending nonce at its position in the
node's log (`pendingAfter`). `Placed`: a record's hash, sender and recipient are those of the
transfer at position `p`. `SharedInv` places every record, at increasing positions (the client
has one request outstanding). Every step of the process keeps it and moves the positions as
`Moves` says (`SharedInv.step`); so does another client's transfer (`SharedInv.foreign`).

`shared_records`: in every run with other clients, each record is placed, in order, and its
transfer carries the pending nonce of its sender at its position, whatever nonce the record holds.
-/

namespace PanoStress

/-- Another client's transfer of `tx` from `from`, which the node accepts under `hash`. -/
structure Foreign where
  «from» : Address
  tx : TxRequest
  hash : Hash
deriving DecidableEq, Repr

section
variable (cfg : Config)

/-- A step of the process, or the node accepting another client's transfer. -/
def sharedStep (s : State) : Event ⊕ Foreign → Option State
  | .inl e => step cfg s e
  | .inr f => some { s with node := s.node.accept f.«from» f.tx f.hash }

/-- The process after the events `es`, other clients' transfers among them. -/
def sharedRun (s : State) : List (Event ⊕ Foreign) → Option State
  | [] => some s
  | e :: es => (sharedStep cfg s e).bind (sharedRun · es)

/-- `s` is reachable from start-up, other clients submitting transfers at any point. -/
def SharedReachable (nonces : Address → Nat) (s : State) : Prop :=
  Relation.ReflTransGen (fun s s' => ∃ e, sharedStep cfg s e = some s') (State.init nonces) s

end

section
variable {cfg : Config} {nonces : Address → Nat} {s s' : State}

theorem SharedReachable.init (nonces : Address → Nat) :
    SharedReachable cfg nonces (State.init nonces) :=
  Relation.ReflTransGen.refl

theorem SharedReachable.run {es : List (Event ⊕ Foreign)} (h : SharedReachable cfg nonces s)
    (hr : sharedRun cfg s es = some s') : SharedReachable cfg nonces s' := by
  induction es generalizing s with
  | nil => cases hr; exact h
  | cons e es ih =>
    simp only [sharedRun, Option.bind_eq_some] at hr
    obtain ⟨t, ht, hr⟩ := hr
    exact ih (h.tail ⟨e, ht⟩) hr

end

/-! ## The node's log -/

/-- The pending nonce of `a` once the node has accepted the first `m` transfers of `log`. -/
def pendingAfter (nonces : Address → Nat) (log : List Transfer) (a : Address) (m : Nat) : Nat :=
  nonces a + ((log.take m).filter (·.«from» = a)).length

section
variable {nonces : Address → Nat} {log : List Transfer} {a : Address}

theorem pendingAfter_append {m : Nat} (l : List Transfer) (h : m ≤ log.length) :
    pendingAfter nonces (log ++ l) a m = pendingAfter nonces log a m := by
  rw [pendingAfter, List.take_append_of_le_length h, pendingAfter]

/-- From `m` to `m + k`, `a`'s pending nonce grows by its transfers in between. -/
theorem pendingAfter_add (m k : Nat) :
    pendingAfter nonces log a (m + k) =
      pendingAfter nonces log a m + (((log.drop m).take k).filter (·.«from» = a)).length := by
  simp only [pendingAfter, List.take_add, List.filter_append, List.length_append, Nat.add_assoc]

end

/-- The node's log as it assigns nonces: every accepted transfer carries its sender's pending
nonce at its position, and the pending nonces are those after the whole log. -/
structure Node.Ledger (nonces : Address → Nat) (n : Node) : Prop where
  pending : ∀ a, n.nonces a = pendingAfter nonces n.accepted a n.accepted.length
  assigned : ∀ p t, n.accepted[p]? = some t → t.nonce = pendingAfter nonces n.accepted t.«from» p

namespace Node.Ledger
variable {nonces : Address → Nat}

theorem init (nonces : Address → Nat) : (Node.init nonces).Ledger nonces :=
  ⟨fun _ => by simp [pendingAfter], fun _ _ h => by simp at h⟩

theorem accept {n : Node} (h : n.Ledger nonces) (a : Address) (tx : TxRequest) (x : Hash) :
    (n.accept a tx x).Ledger nonces where
  pending b := by
    rw [Node.accept_nonces, Node.accept_accepted, List.length_append, List.length_singleton,
      pendingAfter_add, pendingAfter_append _ le_rfl, List.drop_left, ← h.pending]
    by_cases hb : b = a
    · subst hb; simp
    · simp [hb, Ne.symm hb]
  assigned p t ht := by
    rw [Node.accept_accepted] at ht ⊢
    rcases Nat.lt_or_ge p n.accepted.length with hp | hp
    · rw [List.getElem?_append_left hp] at ht
      rw [pendingAfter_append _ hp.le]
      exact h.assigned p t ht
    · obtain rfl : p = n.accepted.length := by
        have := (List.getElem?_eq_some_iff.1 ht).1
        simp only [List.length_append, List.length_singleton] at this
        omega
      rw [List.getElem?_append_right le_rfl, Nat.sub_self, List.getElem?_cons_zero] at ht
      obtain rfl := Option.some.inj ht
      rw [pendingAfter_append _ le_rfl]
      exact h.pending a

end Node.Ledger

/-! ## Records in the log -/

/-- The transfer at position `p` of the node's log `log` has hash, sender and recipient `k`, and
the sender's pending nonce at `p`. -/
def Placed (nonces : Address → Nat) (log : List Transfer) (k : Hash × Address × Address)
    (p : Nat) : Prop :=
  log[p]? = some ⟨k.1, k.2.1, k.2.2, pendingAfter nonces log k.2.1 p⟩

section
variable {nonces : Address → Nat} {log : List Transfer} {k : Hash × Address × Address} {p : Nat}

theorem Placed.lt (h : Placed nonces log k p) : p < log.length :=
  (List.getElem?_eq_some_iff.1 h).1

theorem Placed.append (h : Placed nonces log k p) (l : List Transfer) :
    Placed nonces (log ++ l) k p := by
  rw [Placed, List.getElem?_append_left h.lt, pendingAfter_append _ h.lt.le]
  exact h

theorem placed_append {ks : List (Hash × Address × Address)} {ps : List Nat}
    (h : List.Forall₂ (Placed nonces log) ks ps) (l : List Transfer) :
    List.Forall₂ (Placed nonces (log ++ l)) ks ps :=
  h.imp fun _ _ hp => hp.append l

theorem placed_lt {ks : List (Hash × Address × Address)} {ps : List Nat}
    (h : List.Forall₂ (Placed nonces log) ks ps) : ∀ p ∈ ps, p < log.length := by
  induction h with
  | nil => nofun
  | cons hp _ ih => exact List.forall_mem_cons.2 ⟨hp.lt, ih⟩

end

/-- The invariant of runs with other clients (module doc), `ps` being the records' positions. -/
structure SharedInv (nonces : Address → Nat) (s : State) (ps : List Nat) : Prop where
  ledger : s.node.Ledger nonces
  placed : List.Forall₂ (Placed nonces s.node.accepted) (s.records.map TxRecord.key) ps
  sorted : ps.Pairwise (· < ·)

/-- What one step of the process does to the node's log and to the positions: nothing; the
handler's exit, which drops the open batch's; or one transfer accepted, at the end of the log. -/
def Moves (s s' : State) (ps ps' : List Nat) : Prop :=
  s'.node = s.node ∧ ps' = ps ∨
  s'.node = s.node ∧ s'.pc = .exited 0 ∧ ps' <+: ps ∨
  ∃ a tx x, s'.node = s.node.accept a tx x ∧ ps' = ps ++ [s.node.accepted.length]

section
variable {cfg : Config} {nonces : Address → Nat} {s : State} {ps : List Nat}

/-- A quiet stretch keeps the invariant and the positions. -/
theorem SharedInv.quiet {t : State} {rs : List TxRecord} (h : SharedInv nonces s ps)
    (hq : Quiet s t rs) (hr : rs.map TxRecord.key = s.records.map TxRecord.key) :
    SharedInv nonces t ps where
  ledger := hq.node ▸ h.ledger
  placed := by rw [hq.records, hr, hq.node]; exact h.placed
  sorted := h.sorted

/-- Another client's transfer keeps the invariant and the positions. -/
theorem SharedInv.foreign (h : SharedInv nonces s ps) (a : Address) (tx : TxRequest) (x : Hash) :
    SharedInv nonces { s with node := s.node.accept a tx x } ps :=
  ⟨h.ledger.accept a tx x, placed_append h.placed _, h.sorted⟩

/-- The handler keeps the positions of the finished batches. -/
theorem sharedInv_cleanup (h : SharedInv nonces s ps) :
    ∃ ps', SharedInv nonces (cleanup s) ps' ∧ Moves s (cleanup s) ps ps' := by
  have hrec : s.records.map TxRecord.key = (cleanup s).records.map TxRecord.key ++
      (s.pc.open.flatMap (·.transactions)).map TxRecord.key := by
    rw [@records_idle (cleanup s) _ rfl rfl, State.records, List.flatMap_append, List.map_append]
    rfl
  have hp := List.forall₂_take ((cleanup s).records.map TxRecord.key).length h.placed
  rw [hrec, List.take_left' rfl] at hp
  exact ⟨_, ⟨h.ledger, hp, h.sorted.sublist (List.take_sublist _ _)⟩,
    .inr (.inl ⟨rfl, rfl, List.take_prefix _ _⟩)⟩

/-- The submission: the record, placed at the end of the log. -/
theorem SharedInv.sent {bs : BatchStats} {i n : Nat} {tx : TxRequest} (x : Hash)
    (h : SharedInv nonces s ps) (hp : s.pc = .sendBatch ⟨bs, .sendTransaction i n tx⟩) :
    ∃ ps', SharedInv nonces (recordSent cfg bs i n tx x s) ps' ∧
      Moves s (recordSent cfg bs i n tx x s) ps ps' := by
  have hrec : (recordSent cfg bs i n tx x s).records.map TxRecord.key =
      s.records.map TxRecord.key ++ [(x, cfg.wallet i, tx.«to»)] := by
    rw [records_sendBatch hp]; simp [State.records, recordSent, TxRecord.key]
  have hnew : Placed nonces
      (s.node.accepted ++ [⟨x, cfg.wallet i, tx.«to», s.node.nonces (cfg.wallet i)⟩])
      (x, cfg.wallet i, tx.«to») s.node.accepted.length := by
    rw [Placed, List.getElem?_append_right le_rfl, Nat.sub_self, pendingAfter_append _ le_rfl,
      ← h.ledger.pending]
    rfl
  refine ⟨ps ++ [s.node.accepted.length], ⟨h.ledger.accept _ _ _, ?_, ?_⟩,
    .inr (.inr ⟨_, _, _, rfl, rfl⟩)⟩
  · rw [hrec]
    exact List.rel_append (placed_append h.placed _) (.cons hnew .nil)
  · exact List.pairwise_append.2 ⟨h.sorted, List.pairwise_singleton _ _,
      fun p hp _ hp' => (List.mem_singleton.1 hp') ▸ placed_lt h.placed p hp⟩

/-- Every step of the process keeps the invariant, moving the positions as `Moves` says. -/
theorem SharedInv.step {s' : State} {e : Event} (h : SharedInv nonces s ps)
    (hs : step cfg s e = some s') : ∃ ps', SharedInv nonces s' ps' ∧ Moves s s' ps ps' := by
  rcases step_cases hs with ⟨-, rfl⟩ | hr
  · exact sharedInv_cleanup h
  have stay : ∀ {t : State} {rs : List TxRecord}, Quiet s t rs →
      rs.map TxRecord.key = s.records.map TxRecord.key →
      ∃ ps', SharedInv nonces t ps' ∧ Moves s t ps ps' :=
    fun hq hr => ⟨ps, h.quiet hq hr, .inl ⟨hq.node, rfl⟩⟩
  cases hr with
  | network hp | balance hp => exact stay quiet_getBalances (by rw [records_idle hp rfl])
  | fatal hp =>
    have ho : s.pc.open = [] := by rcases hp with hp | ⟨i, hp⟩ <;> rw [hp] <;> rfl
    exact @stay _ s.records ⟨rfl, by rw [@records_idle _ (.exited 1) rfl rfl, records_idle rfl ho]⟩
      rfl
  | nonce n hp => exact @stay _ s.records ⟨rfl, by simp [State.records, hp, prepare]⟩ rfl
  | @failed bs i hp =>
    obtain ⟨a, ha⟩ : ∃ a, s.pc = .sendBatch ⟨bs, a⟩ := by
      rcases hp with hp | ⟨_, _, hp⟩ <;> exact ⟨_, hp⟩
    have hq := @quiet_submit cfg { s with stats := { s.stats with
        totalTxFailed := s.stats.totalTxFailed + 1, totalTxSent := s.stats.totalTxSent + 1 } }
      { bs with failed := bs.failed + 1 } (i + 1)
    exact stay ⟨hq.node, hq.records⟩ (by rw [records_sendBatch ha])
  | sent x hp => exact h.sent x hp
  | pause hp => exact stay quiet_submit (by rw [records_sendBatch hp])
  | settle hp | lost hp => exact stay quiet_poll (by rw [records_sendBatch hp])
  | receipt r hp => exact stay (quiet_received r) (by rw [records_sendBatch hp])
  | interval hp => exact stay quiet_mainLoop (by rw [records_idle hp rfl])

theorem SharedInv.init (nonces : Address → Nat) : SharedInv nonces (State.init nonces) [] :=
  ⟨Node.Ledger.init nonces, .nil, .nil⟩

theorem sharedInv_reachable (h : SharedReachable cfg nonces s) : ∃ ps, SharedInv nonces s ps := by
  induction h with
  | refl => exact ⟨[], SharedInv.init nonces⟩
  | tail _ hs ih =>
    obtain ⟨ps, hp⟩ := ih
    obtain ⟨e | f, he⟩ := hs
    · obtain ⟨ps', hp', -⟩ := hp.step he
      exact ⟨ps', hp'⟩
    · cases he
      exact ⟨ps, hp.foreign _ _ _⟩

/-- **In every run with other clients**, each record is the transfer at its position `p` of the
node's log, up to the nonce, and that transfer carries its sender's pending nonce at `p`. The
positions increase in the records' order. -/
theorem shared_records (h : SharedReachable cfg nonces s) :
    ∃ ps : List Nat,
      List.Forall₂ (fun r p => s.node.accepted[p]? = some ⟨r.txHash, r.«from», r.«to»,
        pendingAfter nonces s.node.accepted r.«from» p⟩) s.records ps ∧
      ps.Pairwise (· < ·) := by
  obtain ⟨ps, hp⟩ := sharedInv_reachable h
  exact ⟨ps, List.forall₂_map_left_iff.1 hp.placed, hp.sorted⟩

end

/-- Start-up and the first attempt of the deployed configuration, its `getNonce` answering 0 and
another client's transfer from the same sender landing before its `sendTransaction`. -/
def interferedEvents : List (Event ⊕ Foreign) :=
  [.inl .resolve, .inl .resolve, .inl .resolve, .inl (.nonce 0),
    .inr ⟨stressConfig.wallet 0, txRequest stressConfig 1 1, 7⟩, .inl (.sent 100)]

theorem shared_records_interfered : ∃ s, SharedReachable stressConfig (fun _ => 0) s ∧
    s.records.map (·.nonce) = [0] ∧ s.node.accepted.map (·.nonce) = [0, 1] ∧
    ∃ ps : List Nat,
      List.Forall₂ (fun r p => s.node.accepted[p]? = some ⟨r.txHash, r.«from», r.«to»,
        pendingAfter (fun _ => 0) s.node.accepted r.«from» p⟩) s.records ps ∧
      ps.Pairwise (· < ·) := by
  obtain ⟨s, hr, h₁, h₂⟩ : ∃ s, sharedRun stressConfig (State.init fun _ => 0) interferedEvents = some s ∧
      s.records.map (·.nonce) = [0] ∧ s.node.accepted.map (·.nonce) = [0, 1] := ⟨_, rfl, rfl, rfl⟩
  have hs := (SharedReachable.init _).run hr
  exact ⟨s, hs, h₁, h₂, shared_records hs⟩

end PanoStress
