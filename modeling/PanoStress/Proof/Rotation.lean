import Mathlib.Data.List.Count
import Mathlib.Data.List.Nodup
import PanoStress.Proof.Session

/-!
# The recipient rotation

`recipient_rotation`: in every run, the transfer in flight at position `i` of batch `b` is
addressed to `RECIPIENTS[(b * TX_PER_BATCH + i) % RECIPIENTS.length]` (line 125), `b` is the
number of finished batches plus one, and that index is `(TX_PER_BATCH + t) % RECIPIENTS.length`
where `t = stats.totalTxSent` is the number of attempts the session made before this one, failed
ones included. Over the positions of the first `k` batches the indices are the cyclic sequence
`(N + t) % R`, `t < k * N`, with no reset at a batch boundary, and each index occurs `⌊kN/R⌋` or
`⌈kN/R⌉` times (`count_residue`).
-/

namespace PanoStress

/-! ## Residues of consecutive numbers -/

section
variable {R r : Nat}

/-- Any `R` consecutive numbers hold each residue below `R` once. -/
theorem count_window (hr : r < R) (a : Nat) : ((List.range' a R).map (· % R)).count r = 1 := by
  induction a with
  | zero =>
    have h : (List.range' 0 R).map (· % R) = List.range R := by
      rw [List.range_eq_range']
      conv_rhs => rw [← List.map_id (List.range' 0 R)]
      exact List.map_congr_left fun x hx => Nat.mod_eq_of_lt (by simp at hx; omega)
    rw [h]
    exact List.count_eq_one_of_mem (List.nodup_range R) (List.mem_range.2 hr)
  | succ a ih =>
    obtain ⟨R, rfl⟩ : ∃ R', R = R' + 1 := ⟨R - 1, by omega⟩
    rw [List.range'_succ] at ih
    rw [List.range'_concat, show a + 1 + 1 * R = a + (R + 1) by omega]
    simp only [List.map_append, List.map_cons, List.map_nil, List.count_append, List.count_cons,
      List.count_nil, Nat.add_mod_right] at ih ⊢
    omega

theorem count_windows (hr : r < R) : ∀ q b, ((List.range' b (q * R)).map (· % R)).count r = q
  | 0, _ => by simp
  | q + 1, b => by
    rw [Nat.succ_mul, ← List.range'_append, List.map_append, List.count_append,
      count_window hr, count_windows hr q, Nat.add_comm]

theorem count_short (hr : r < R) (a m : Nat) (hm : m ≤ R) :
    ((List.range' a m).map (· % R)).count r ≤ 1 := by
  have h : List.Sublist (List.range' a m) (List.range' a R) := by
    rw [show R = (R - m) + m by omega, ← List.range'_append]
    exact List.sublist_append_left _ _
  have := (h.map (· % R)).count_le r
  rwa [count_window hr a] at this

/-- `m` consecutive numbers hold each residue below `R` `⌊m/R⌋` or `⌈m/R⌉` times. -/
theorem count_residue (hr : r < R) (a m : Nat) :
    ((List.range' a m).map (· % R)).count r = m / R ∨
      ((List.range' a m).map (· % R)).count r = (m + R - 1) / R := by
  have hR : 0 < R := by omega
  have hsplit : ((List.range' a m).map (· % R)).count r =
      m / R + ((List.range' (a + 1 * (m / R * R)) (m % R)).map (· % R)).count r := by
    conv_lhs => rw [← Nat.mod_add_div m R, Nat.mul_comm, ← List.range'_append]
    rw [List.map_append, List.count_append, count_windows hr]
  have hle := count_short hr (a + 1 * (m / R * R)) (m % R) (Nat.mod_lt _ hR).le
  have hdm := Nat.mod_add_div m R
  rcases Nat.eq_zero_or_pos (m % R) with h0 | h0
  · left; rw [hsplit, h0]; simp
  · rcases Nat.le_one_iff_eq_zero_or_eq_one.1 hle with h1 | h1
    · left; omega
    · right
      have : m + R - 1 = (m % R - 1) + R * (m / R + 1) := by rw [Nat.mul_add, Nat.mul_one]; omega
      have hlt : m % R - 1 < R := by have := Nat.mod_lt m hR; omega
      rw [hsplit, h1, this, Nat.add_mul_div_left _ _ hR, Nat.div_eq_of_lt hlt]
      omega

end

/-! ## The rotation -/

section
variable {cfg : Config}

/-- The recipient indices of the positions of batches `1..k`, in session order, are the numbers
from `txPerBatch` on, taken `% recipients.length`. -/
theorem recipientIdx_batches : ∀ k,
    (List.range' 1 k).flatMap (fun b => (List.range cfg.txPerBatch).map (cfg.recipientIdx b)) =
      (List.range' cfg.txPerBatch (k * cfg.txPerBatch)).map (· % cfg.recipients.length)
  | 0 => by simp
  | k + 1 => by
    rw [List.range'_concat, List.flatMap_append, recipientIdx_batches k, List.flatMap_singleton,
      show (k + 1) * cfg.txPerBatch = cfg.txPerBatch + k * cfg.txPerBatch by
        rw [Nat.succ_mul, Nat.add_comm],
      ← List.range'_append, List.map_append, List.range'_eq_map_range (_ + _), List.map_map]
    congr 1
    refine List.map_congr_left fun i _ => ?_
    simp only [Config.recipientIdx, Function.comp_apply, Nat.add_mul, Nat.one_mul]

/-- The recipient rotation, in every run and over every prefix of the session. -/
theorem recipient_rotation {nonces : Address → Nat} {s : State} (h : Reachable cfg nonces s) :
    (∀ bs i n tx, s.pc = .sendBatch ⟨bs, .sendTransaction i n tx⟩ →
      i < cfg.txPerBatch ∧ bs.batchNumber = s.stats.batches.length + 1 ∧
      cfg.recipients[(bs.batchNumber * cfg.txPerBatch + i) % cfg.recipients.length]? = some tx.«to» ∧
      cfg.recipientIdx bs.batchNumber i =
        (cfg.txPerBatch + s.stats.totalTxSent) % cfg.recipients.length) ∧
    (∀ k, (List.range' 1 k).flatMap (fun b => (List.range cfg.txPerBatch).map (cfg.recipientIdx b)) =
      (List.range (k * cfg.txPerBatch)).map
        (fun t => (cfg.txPerBatch + t) % cfg.recipients.length)) ∧
    (∀ k r, r < cfg.recipients.length →
      ((List.range' 1 k).flatMap
        (fun b => (List.range cfg.txPerBatch).map (cfg.recipientIdx b))).count r =
          k * cfg.txPerBatch / cfg.recipients.length ∨
      ((List.range' 1 k).flatMap
        (fun b => (List.range cfg.txPerBatch).map (cfg.recipientIdx b))).count r =
          (k * cfg.txPerBatch + cfg.recipients.length - 1) / cfg.recipients.length) := by
  refine ⟨fun bs i n tx hp => ?_, fun k => ?_, fun k r hr => ?_⟩
  · obtain ⟨hc, hb, hi, rfl⟩ := (inv_reachable h).frame hp
    obtain ⟨hsent, hsucc, hfail, -⟩ := totals_iff.1 hc.totals
    have hsum := sumOf_attempts hc.batches
    rw [Nat.mul_comm] at hsum
    simp only [sumOf_append, sumOf_singleton] at hsucc hfail
    have hmade : bs.success + bs.failed = i := hb.made
    refine ⟨hi, hb.number, cfg.getElem?_recipients _ _, ?_⟩
    simp only [Config.recipientIdx, hb.number, hsent, hsucc, hfail, Nat.succ_mul]
    congr 1
    omega
  · rw [recipientIdx_batches, List.range'_eq_map_range, List.map_map]; rfl
  · rw [recipientIdx_batches]
    exact count_residue hr _ _

end

/-- Start-up and the first `getNonce` of batch 1 answering 0. -/
def firstNonceEvents : List Event := [.resolve, .resolve, .resolve, .nonce 0]

theorem recipient_rotation_first : ∃ s bs n tx, Reachable stressConfig (fun _ => 0) s ∧
    s.pc = .sendBatch ⟨bs, .sendTransaction 0 n tx⟩ ∧
    tx.«to» = 0x993669a7793F24b5F2e81c03dB494e0a83EAAE17 := by
  obtain ⟨s, bs, n, tx, hr, hp, hb⟩ : ∃ s bs n tx,
      run stressConfig (State.init fun _ => 0) firstNonceEvents = some s ∧
      s.pc = .sendBatch ⟨bs, .sendTransaction 0 n tx⟩ ∧ bs.batchNumber = 1 :=
    ⟨_, _, _, _, rfl, rfl, rfl⟩
  have hs := (Reachable.init _).run hr
  obtain ⟨-, -, hto, -⟩ := (recipient_rotation hs).1 bs 0 n tx hp
  rw [hb] at hto
  exact ⟨s, bs, n, tx, hs, hp, (Option.some.inj hto).symm⟩

end PanoStress
