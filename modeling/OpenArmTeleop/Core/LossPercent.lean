import OpenArmTeleop.Core.Window
import OpenArmTeleop.Lib.Ratio

/-!
# The loss of a snapshot

`loss_percent` against the ratio of the integers that it is made of.
-/

open Num Ratio OpenArmTeleop.Net

namespace OpenArmTeleop.Core

namespace FeedbackStateBuffer

variable {F : Type}

/-! ## Any run of calls -/

/-- What a call leaves, at any readings of the clock. -/
def apply (b : FeedbackStateBuffer F) : Call F → FeedbackStateBuffer F
  | .update packet rttNs nowNs => b.update packet rttNs nowNs
  | .snapshot _ => b
  | .reset => b.reset

def run [Zero F] (windowNs : UInt64) (calls : List (Call F)) : FeedbackStateBuffer F :=
  calls.foldl apply (new windowNs)

/-- A buffer without data has no samples. -/
theorem run_samples [Zero F] (windowNs : UInt64) (calls : List (Call F))
    (hdata : (run windowNs calls).hasData = false) : (run windowNs calls).samples = [] := by
  induction calls using List.reverseRecOn with
  | nil => rfl
  | append_singleton calls call ih =>
    simp only [run, List.foldl_append, List.foldl_cons, List.foldl_nil] at ih hdata ⊢
    cases call with
    | update packet rttNs nowNs =>
      rcases (calls.foldl apply (new windowNs)).update_cases packet rttNs nowNs with ⟨-, h⟩ |
        ⟨-, -, h⟩ | ⟨hold, -, h⟩ | ⟨-, -, -, h⟩
      all_goals simp only [apply, h] at hdata
      · cases hdata
      · cases hdata
      · rw [hold] at hdata
        cases hdata
      · cases hdata
    | snapshot nowNs => exact ih hdata
    | reset => rfl

/-! ## The integers behind the loss -/

/-- The gaps of some samples, over the integers. -/
def gaps (samples : List Sample) : ℕ := (samples.map (·.lostBefore.toNat)).sum

theorem gaps_eq_zero (samples : List Sample) :
    gaps samples = 0 ↔ ∀ x ∈ samples, x.lostBefore = 0 := by
  rw [gaps, List.sum_eq_zero_iff, List.forall_mem_map]
  exact forall₂_congr fun x _ => UInt32.toNat_inj (b := 0)

theorem toNat_sum_lost (samples : List Sample) :
    (samples.map Sample.lostBefore).sum.toNat = gaps samples % 2 ^ 32 := by
  induction samples with
  | nil => rfl
  | cons x samples ih =>
    rw [List.map_cons, List.sum_cons, UInt32.toNat_add, ih, Nat.add_mod_mod]
    rfl

/-- The loss that is reported for some samples is the ratio of the integers. -/
structure TrueLoss (loss : Double) (samples : List Sample) : Prop where
  ratio : loss = .fin (percent samples.length (gaps samples))
  range : 0 ≤ loss ∧ loss ≤ 100.0
  gapless : loss = 0 → ∀ x ∈ samples, x.lostBefore = 0

theorem trueLoss_iff (loss : Double) (samples : List Sample) :
    TrueLoss loss samples ↔ loss = .fin (percent samples.length (gaps samples)) := by
  refine ⟨TrueLoss.ratio, ?_⟩
  rintro rfl
  refine ⟨rfl, ⟨?_, ?_⟩, fun hzero => ?_⟩
  · exact (Double.fin_le_fin _ _).mpr (percent_nonneg _ _)
  · refine (Double.fin_le_fin _ _).mpr ((percent_le _ _).trans (le_of_eq ?_))
    norm_num
  · exact (gaps_eq_zero samples).mp (percent_eq_zero_iff.mp (Double.fin.inj hzero))

section Exact

attribute [local instance] Rounding.exact

/-- The division of the counters, which are 32 bits wide. -/
theorem statistics_loss (b : FeedbackStateBuffer F) (nowNs : UInt64) (samples : List Sample) :
    (b.statistics nowNs samples).lossPercent =
      .fin (100 * ((gaps samples % 2 ^ 32 : ℕ) : ℚ) /
        ((samples.length + gaps samples) % 2 ^ 32 : ℕ)) := by
  have hlost : (samples.map fun x : Sample => x.lostBefore).sum.toNat = gaps samples % 2 ^ 32 :=
    toNat_sum_lost samples
  have hsum : (UInt32.ofNat samples.length + (samples.map (·.lostBefore)).sum).toNat =
      (samples.length + gaps samples) % 2 ^ 32 := by
    rw [UInt32.toNat_add, hlost, UInt32.toNat_ofNat', ← Nat.add_mod]
  have hpos : UInt32.ofNat samples.length + (samples.map (·.lostBefore)).sum > 0 ↔
      (samples.length + gaps samples) % 2 ^ 32 ≠ 0 := by
    rw [gt_iff_lt, UInt32.lt_iff_toNat_lt, hsum]
    exact Nat.pos_iff_ne_zero
  simp only [statistics, hpos, hsum, hlost]
  split
  · rename_i hne
    have hcast : (((samples.length + gaps samples) % 2 ^ 32 : ℕ) : ℚ) ≠ 0 := by exact_mod_cast hne
    change (100.0 : Double) * .fin _ / .fin _ = _
    change Double.fin _ * .fin _ / .fin _ = _
    rw [Double.exact_mul, Double.exact_div _ _ hcast]
    norm_num
  · rename_i hzero
    rw [not_not.mp hzero, Nat.cast_zero, div_zero]
    change Double.fin _ = _
    norm_num

theorem snapshot_loss_iff (b : FeedbackStateBuffer F) (hdata : b.hasData = false → b.samples = [])
    (nowNs : UInt64) :
    (b.snapshot nowNs).lossPercent =
        .fin (percent (b.counted nowNs).length (gaps (b.counted nowNs))) ↔
      WrapsEvenly (2 ^ 32) (b.counted nowNs).length (gaps (b.counted nowNs)) := by
  by_cases hhas : b.hasData = true
  swap
  · have hnone : b.counted nowNs = [] := by
      rw [counted, hdata (Bool.not_eq_true _ ▸ hhas), List.filter_nil]
    rw [snapshot, if_neg hhas, hnone]
    exact iff_of_true (congrArg Double.fin (by norm_num [gaps, percent])) (by decide)
  rw [snapshot, if_pos hhas, statistics_loss, Double.fin.injEq]
  generalize (b.counted nowNs).length = received
  generalize gaps (b.counted nowNs) = lost
  by_cases hmod : (received + lost) % 2 ^ 32 = 0
  · -- the total wraps to zero, and so does the loss that is reported
    rw [hmod, Nat.cast_zero, div_zero, eq_comm, percent_eq_zero_iff]
    refine ⟨fun hlost => ⟨fun _ => hlost, ?_⟩, fun h => h.1 hmod⟩
    rw [hlost, Nat.zero_div, zero_mul, mul_zero]
  · rw [percent_mod_iff (by norm_num) hmod]
    exact ⟨fun h => ⟨fun h0 => absurd h0 hmod, h⟩, fun h => h.2⟩

/-- **When the loss is a true ratio.** It is exactly when what wraps off the counters wraps off
evenly; while fewer than 2 ^ 32 samples are counted, exactly when nothing wraps. More gaps are then
never a smaller loss. -/
theorem loss_true_iff [Zero F] (windowNs : UInt64) (calls : List (Call F)) (nowNs : UInt64) :
    let b := run windowNs calls
    let samples := b.counted nowNs
    (TrueLoss (b.snapshot nowNs).lossPercent samples ↔
        WrapsEvenly (2 ^ 32) samples.length (gaps samples)) ∧
      (samples.length < 2 ^ 32 → (WrapsEvenly (2 ^ 32) samples.length (gaps samples) ↔
        samples.length + gaps samples < 2 ^ 32)) ∧
      ∀ windowNs' (calls' : List (Call F)) nowNs',
        let b' := run windowNs' calls'
        let samples' := b'.counted nowNs'
        WrapsEvenly (2 ^ 32) samples.length (gaps samples) →
        WrapsEvenly (2 ^ 32) samples'.length (gaps samples') →
        samples'.length = samples.length → gaps samples ≤ gaps samples' →
        (b.snapshot nowNs).lossPercent ≤ (b'.snapshot nowNs').lossPercent := by
  intro b samples
  have hiff := fun windowNs (calls : List (Call F)) nowNs =>
    snapshot_loss_iff (run windowNs calls) (run_samples windowNs calls) nowNs
  refine ⟨?_, ?_, ?_⟩
  · rw [trueLoss_iff]
    exact hiff windowNs calls nowNs
  · intro hfew
    refine wrapsEvenly_iff hfew fun hnone => ?_
    rw [List.length_eq_zero_iff.mp hnone]
    rfl
  · intro windowNs' calls' nowNs' b' samples' heven heven' hlength hgaps
    rw [(hiff windowNs calls nowNs).mpr heven, (hiff windowNs' calls' nowNs').mpr heven',
      Double.fin_le_fin]
    change percent samples.length _ ≤ percent samples'.length _
    rw [hlength]
    exact percent_mono _ hgaps

def feedback (seq : UInt32) : Call UInt64 := .update (numbered seq) 3 0

/-- Packets 0 and 3: two numbers of four are lost. -/
theorem loss_true_half :
    TrueLoss ((run 10 [feedback 0, feedback 3]).snapshot 5).lossPercent
      ((run 10 [feedback 0, feedback 3]).counted 5) :=
  (loss_true_iff 10 [feedback 0, feedback 3] 5).1.mpr (by decide)

/-- Packets 0, 0x7FFFFFFF and 0xFFFFFFFE, and the next one or the one after it. -/
theorem loss_wraps :
    let b := run 10 [feedback 0, feedback 0x7FFFFFFF, feedback 0xFFFFFFFE, feedback 0xFFFFFFFF]
    let b' := run 10 [feedback 0, feedback 0x7FFFFFFF, feedback 0xFFFFFFFE, feedback 0]
    (((b.counted 5).length = 4 ∧ gaps (b.counted 5) = 2 ^ 32 - 4 ∧
        (b.snapshot 5).lossPercent = 0 ∧ ¬ TrueLoss (b.snapshot 5).lossPercent (b.counted 5)) ∧
      (b'.snapshot 5).lossPercent = .fin 429496729300 ∧
      ¬ TrueLoss (b'.snapshot 5).lossPercent (b'.counted 5)) := by
  intro b b'
  have hzero : (b.snapshot 5).lossPercent = 0 := by decide +kernel
  have hlarge : (b'.snapshot 5).lossPercent = .fin 429496729300 := by decide +kernel
  refine ⟨⟨by decide +kernel, by decide +kernel, hzero, fun h => ?_⟩, hlarge, fun h => ?_⟩
  · have hgaps : gaps (b.counted 5) = 0 := (gaps_eq_zero _).mpr (h.gapless hzero)
    exact absurd hgaps (by decide +kernel)
  · have hle := h.range.2
    rw [hlarge] at hle
    exact absurd hle (by decide +kernel)

end Exact

end FeedbackStateBuffer

end OpenArmTeleop.Core
