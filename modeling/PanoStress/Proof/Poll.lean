import PanoStress.Proof.Inv

/-!
# The receipt loop

`poll_classifies`: from the settle delay of any reachable batch, for every way its receipt
queries can end (`Lookup`: a receipt, `null`, or a throw), the loop of lines 168-181 queries each
record's hash once, in order (`calls`), and the batch it pushes keeps every record but its status,
which is `'confirmed'` iff the receipt had status 1, `'failed'` iff status 0, and `'pending'`
otherwise; `batch.confirmed` and what is added to `stats.totalConfirmed` are the number of
confirmed records. A throw leaves its own record as it was and the loop goes on.

`Lookup.status` is that classification stated once over the query's outcome: status 1 confirms,
status 0 fails, anything else (no receipt, another status, a throw) leaves the record as it was.
`received_lookup` shows `received` and the `catch` agree with it, and `poll_run` is the induction
over the records still to query.
-/

namespace PanoStress

/-- How one receipt query ends. -/
inductive Lookup where
  /-- The query resolves with `r`; `none` is `null`. -/
  | answer (r : Option Receipt)
  | throws
deriving DecidableEq, Repr

namespace Lookup

/-- The event that ends the query. -/
def event : Lookup → Event
  | answer r => .receipt r
  | throws => .reject

/-- The status of a record of status `st` once its query ended with `o`. -/
def status (o : Lookup) (st : TxStatus) : TxStatus :=
  if o = answer (some ⟨some 1⟩) then .confirmed
  else if o = answer (some ⟨some 0⟩) then .failed else st

/-- The record once its query ended with `o`. -/
def apply (o : Lookup) (tx : TxRecord) : TxRecord := { tx with status := o.status tx.status }

/-- Whether the query counts a confirmation. -/
def hit (o : Lookup) : Nat := if o = answer (some ⟨some 1⟩) then 1 else 0

end Lookup

/-- The batch once the query of record `j` ended with `o`. -/
def BatchStats.lookup (bs : BatchStats) (j : Nat) (o : Lookup) : BatchStats :=
  { bs with transactions := bs.transactions.modify o.apply j }

theorem modify_length_append {α : Type} (f : α → α) (done rest : List α) (a : α) :
    (done ++ a :: rest).modify f done.length = done ++ f a :: rest := by
  induction done with
  | nil => exact List.modify_zero_cons _ _ _
  | cons x done ih => simp [List.modify_succ_cons, ih]

theorem lookup_confirmed (bs : BatchStats) (j : Nat) :
    bs.lookup j (.answer (some ⟨some 1⟩)) = bs.setStatus j .confirmed := by
  have h : (Lookup.answer (some ⟨some 1⟩)).apply = fun tx => { tx with status := .confirmed } :=
    funext fun tx => by simp [Lookup.apply, Lookup.status]
  simp only [BatchStats.lookup, BatchStats.setStatus, h]

theorem lookup_failed (bs : BatchStats) (j : Nat) :
    bs.lookup j (.answer (some ⟨some 0⟩)) = bs.setStatus j .failed := by
  have h : (Lookup.answer (some ⟨some 0⟩)).apply = fun tx => { tx with status := .failed } :=
    funext fun tx => by simp [Lookup.apply, Lookup.status]
  simp only [BatchStats.lookup, BatchStats.setStatus, h]

section
variable {cfg : Config}

theorem step_lookup (s : State) (o : Lookup) : step cfg s o.event = resume cfg s s.pc o.event := by
  cases o <;> rfl

/-- `received` and the `catch` of lines 178-180 are `Lookup.status`. -/
theorem received_lookup {bs : BatchStats} {j c : Nat} (t : State) (o : Lookup) :
    resume cfg t (.sendBatch ⟨bs, .getTransactionReceipt j c⟩) o.event =
      some (poll cfg (bs.lookup j o) (j + 1) (c + o.hit) t) := by
  have hid : ∀ o : Lookup, o ≠ .answer (some ⟨some 1⟩) → o ≠ .answer (some ⟨some 0⟩) →
      bs.lookup j o = bs := fun o h1 h0 => by
    have : o.apply = id := funext fun tx => by simp [Lookup.apply, Lookup.status, h1, h0]
    simp [BatchStats.lookup, this, List.modify_id]
  rcases o with (_ | ⟨_ | _ | _ | n⟩) | _
  · rw [hid _ (by simp) (by simp)]; simp [resume, received, Lookup.event, Lookup.hit]
  · rw [hid _ (by simp) (by simp)]; simp [resume, received, Lookup.event, Lookup.hit]
  · rw [lookup_failed]; simp [resume, received, Lookup.event, Lookup.hit]
  · rw [lookup_confirmed]; simp [resume, received, Lookup.event, Lookup.hit]
  · rw [hid _ (by simp) (by simp)]; simp [resume, received, Lookup.event, Lookup.hit]
  · rw [hid _ (by simp) (by simp)]; simp [resume, Lookup.event, Lookup.hit]

theorem poll_some {bs : BatchStats} {j c : Nat} {tx : TxRecord} (s : State)
    (hj : bs.transactions[j]? = some tx) :
    poll cfg bs j c s = { s.call (.getTransactionReceipt tx.txHash) with
      pc := .sendBatch ⟨bs, .getTransactionReceipt j c⟩ } := by
  simp [poll, hj]

/-- The receipt loop from record `done.length` on, `rest` still to query. -/
theorem poll_run (rest : List TxRecord) : ∀ (done : List TxRecord) (os : List Lookup)
    (bs : BatchStats) (c : Nat) (s : State), os.length = rest.length →
    bs.transactions = done ++ rest →
    ∃ t, run cfg (poll cfg bs done.length c s) (os.map Lookup.event) =
        some (finishBatch cfg { bs with transactions := done ++ List.zipWith Lookup.apply os rest }
          (c + (os.map Lookup.hit).sum) t) ∧
      t.stats = s.stats ∧ t.flushes = s.flushes ∧
      t.calls = s.calls ++ rest.map (fun tx => .getTransactionReceipt tx.txHash) := by
  induction rest with
  | nil =>
    intro done os bs c s hl hb
    obtain rfl : os = [] := List.eq_nil_of_length_eq_zero hl
    refine ⟨s, ?_, rfl, rfl, by simp⟩
    have hn : bs.transactions[done.length]? = none := by simp [hb]
    simp only [poll, hn, List.map_nil, List.zipWith_nil_left, List.append_nil, ← hb]
    rfl
  | cons tx rest ih =>
    intro done os bs c s hl hb
    obtain ⟨o, os, rfl⟩ : ∃ o os', os = o :: os' := List.exists_cons_of_length_eq_add_one hl
    have hj : bs.transactions[done.length]? = some tx := by
      rw [hb, List.getElem?_append_right (Nat.le_refl _)]; simp
    obtain ⟨t, hr, h1, h2, h3⟩ := ih (done ++ [o.apply tx]) os (bs.lookup done.length o)
      (c + o.hit) { s.call (.getTransactionReceipt tx.txHash) with
        pc := .sendBatch ⟨bs, .getTransactionReceipt done.length c⟩ }
      (by simpa using hl) (by simp [BatchStats.lookup, hb, modify_length_append])
    refine ⟨t, ?_, h1, h2, by simp [h3]⟩
    rw [List.map_cons, run, poll_some s hj, step_lookup]
    simp only [received_lookup, Option.some_bind]
    simp only [List.length_append, List.length_singleton] at hr
    rw [hr]
    simp [BatchStats.lookup, Nat.add_assoc]

theorem afterBatch_stats_calls (b : Nat) (s : State) :
    (afterBatch cfg b s).stats = s.stats ∧ (afterBatch cfg b s).calls = s.calls := by
  unfold afterBatch mainLoop
  split
  · exact ⟨rfl, rfl⟩
  · rw [if_neg (by omega)]; exact ⟨rfl, rfl⟩

theorem Lookup.status_pending (o : Lookup) :
    (o.status .pending = .confirmed ↔ o = .answer (some ⟨some 1⟩)) ∧
      (o.status .pending = .failed ↔ o = .answer (some ⟨some 0⟩)) ∧
      (o.status .pending = .pending ↔
        o ≠ .answer (some ⟨some 1⟩) ∧ o ≠ .answer (some ⟨some 0⟩)) := by
  unfold Lookup.status
  split_ifs with h1 h0 <;> simp_all

theorem countConfirmed_zipWith : ∀ (os : List Lookup) (txs : List TxRecord),
    os.length = txs.length → (∀ tx ∈ txs, tx.status = .pending) →
    countConfirmed (List.zipWith Lookup.apply os txs) = (os.map Lookup.hit).sum
  | [], _, _, _ => rfl
  | _ :: _, [], hl, _ => nomatch hl
  | o :: os, tx :: txs, hl, h => by
    have ih := countConfirmed_zipWith os txs (by simpa using hl)
      fun x hx => h x (List.mem_cons_of_mem _ hx)
    simp only [countConfirmed] at ih
    simp only [List.zipWith_cons_cons, countConfirmed, List.countP_cons, ih, List.map_cons,
      List.sum_cons, Lookup.apply, h tx (List.mem_cons_self _ _), Lookup.hit]
    have hb : ((o.status .pending == .confirmed) = true) ↔ o = .answer (some ⟨some 1⟩) := by
      simpa using (Lookup.status_pending o).1
    simp only [hb]
    split_ifs <;> omega

/-- The receipt loop of every batch, for every way its queries can end. -/
theorem poll_classifies {nonces : Address → Nat} {s : State} {bs : BatchStats}
    (h : Reachable cfg nonces s) (hp : s.pc = .sendBatch ⟨bs, .settle⟩) (os : List Lookup)
    (hl : os.length = bs.transactions.length) :
    ∃ s', run cfg s (.resolve :: os.map Lookup.event) = some s' ∧
      s'.calls = s.calls ++ bs.transactions.map (fun tx => .getTransactionReceipt tx.txHash) ∧
      ∃ bs', s'.stats.batches = s.stats.batches ++ [bs'] ∧
        bs' = { bs with transactions := bs'.transactions, confirmed := bs'.confirmed } ∧
        bs'.transactions.length = bs.transactions.length ∧
        (∀ (k : Nat) (tx : TxRecord) (o : Lookup), bs.transactions[k]? = some tx →
          os[k]? = some o → ∃ tx' : TxRecord, bs'.transactions[k]? = some tx' ∧ tx' = { tx with status := tx'.status } ∧
            (tx'.status = .confirmed ↔ o = .answer (some ⟨some 1⟩)) ∧
            (tx'.status = .failed ↔ o = .answer (some ⟨some 0⟩)) ∧
            (tx'.status = .pending ↔
              o ≠ .answer (some ⟨some 1⟩) ∧ o ≠ .answer (some ⟨some 0⟩))) ∧
        bs'.confirmed = countConfirmed bs'.transactions ∧
        s'.stats.totalConfirmed = s.stats.totalConfirmed + countConfirmed bs'.transactions := by
  obtain ⟨-, hb, -⟩ := (inv_reachable h).frame hp
  have hpend : ∀ tx ∈ bs.transactions, tx.status = .pending := by simpa [Await.polled] using hb.pending
  obtain ⟨t, hr, h1, -, h3⟩ := poll_run bs.transactions [] os bs 0 s hl (by simp)
  have hs : step cfg s .resolve = some (poll cfg bs 0 0 s) := by simp [step, resume, hp]
  have hc := countConfirmed_zipWith os bs.transactions hl hpend
  let zs := List.zipWith Lookup.apply os bs.transactions
  rw [finishBatch_eq (by exact hb.confirmed)] at hr
  refine ⟨_, by simp only [run, hs, Option.some_bind]; exact hr, ?_,
    { bs with transactions := zs, confirmed := countConfirmed zs }, ?_, rfl, by simp [zs, hl],
    fun k tx o htx ho => ?_, rfl, ?_⟩
  · rw [(afterBatch_stats_calls _ _).2]; simpa using h3
  · rw [(afterBatch_stats_calls _ _).1]; simp [Stats.push, h1, zs, hc]
  · have hz : zs[k]? = some (o.apply tx) := by simp [zs, List.getElem?_zipWith, htx, ho]
    refine ⟨_, hz, rfl, ?_⟩
    simpa [Lookup.apply, hpend tx (List.mem_iff_getElem?.2 ⟨k, htx⟩)] using Lookup.status_pending o
  · rw [(afterBatch_stats_calls _ _).1]; simp [Stats.push, h1, zs, hc]

end

/-- Start-up, then ten submissions of the deployed configuration that all go through. -/
def allSentEvents : List Event :=
  [.resolve, .resolve, .resolve] ++
    (List.range 10).flatMap fun k => [.nonce 0, .sent (100 + k), .resolve]

theorem poll_classifies_allSent : ∃ s bs, Reachable stressConfig (fun _ => 0) s ∧
    s.pc = .sendBatch ⟨bs, .settle⟩ ∧ bs.transactions.length = 10 ∧
    ∃ s', run stressConfig s (.resolve ::
      (List.replicate 8 (Lookup.answer (some ⟨some 1⟩)) ++ List.replicate 2 (Lookup.answer none)).map
        Lookup.event) = some s' := by
  obtain ⟨s, bs, hr, hp, hl⟩ : ∃ s bs, run stressConfig (State.init fun _ => 0) allSentEvents = some s ∧
      s.pc = .sendBatch ⟨bs, .settle⟩ ∧ bs.transactions.length = 10 := ⟨_, _, rfl, rfl, rfl⟩
  have hs := (Reachable.init _).run hr
  obtain ⟨s', h, -⟩ := poll_classifies hs hp
    (List.replicate 8 (Lookup.answer (some ⟨some 1⟩)) ++ List.replicate 2 (Lookup.answer none))
    (by simp [hl])
  exact ⟨s, bs, hs, hp, hl, s', h⟩

end PanoStress
