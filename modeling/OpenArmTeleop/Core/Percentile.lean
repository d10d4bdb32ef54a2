import OpenArmTeleop.Core.Window
import OpenArmTeleop.Lib.Rank

/-!
# The percentiles of a snapshot

What `percentile` selects in `snapshot`, against the order statistics of the samples.
-/

open Num Rank OpenArmTeleop.Net

namespace OpenArmTeleop.Core

namespace FeedbackStateBuffer

variable {F : Type}

/-! ## Checked reads -/

/-- The round trips that were measured. -/
def rtts (samples : List Sample) : List UInt64 :=
  (samples.map (·.rttNs)).filter fun rtt => decide (rtt > 0)

def holds (samples : List Sample) : List UInt64 := samples.map (·.cmdHoldNs)

section Checked

variable [Rounding]

/-- `percentile`, which leaves the vector sorted. A read outside of it fails. -/
def percentile? (v : List UInt64) (p : Double) : Option (List UInt64 × Double) := do
  let v := v.mergeSort
  let idx := (p * Double.ofUnsigned (v.length - 1) + 0.5).truncate
  let x ← v[min idx (v.length - 1)]?
  return (v, Double.ofUnsigned x.toNat / 1e6)

def rttStats? (s : FeedbackStats) (rtts : List UInt64) : Option FeedbackStats :=
  if rtts.isEmpty then some s
  else do
    let (rtts, p50) ← percentile? rtts 0.50
    let (rtts, p95) ← percentile? rtts 0.95
    let back ← rtts.getLast?
    return { s with
      rttP50Ms := p50
      rttP95Ms := p95
      rttMaxMs := Double.ofUnsigned back.toNat / 1e6 }

def holdStats? (s : FeedbackStats) (holds : List UInt64) : Option FeedbackStats :=
  if holds.isEmpty then some s
  else do
    let (_, p95) ← percentile? holds 0.95
    return { s with cmdHoldP95Ms := p95 }

/-- `snapshot` with checked reads, in which a sort stays in its vector. -/
def snapshot? (b : FeedbackStateBuffer F) (nowNs : UInt64) : Option FeedbackStats :=
  if b.hasData then do
    let samples := b.counted nowNs
    let counts := b.statistics nowNs samples
    let s : FeedbackStats :=
      { hasData := counts.hasData
        receivedTotal := counts.receivedTotal
        lostTotal := counts.lostTotal
        ageMs := counts.ageMs
        rateHz := counts.rateHz
        lossPercent := counts.lossPercent }
    let s ← rttStats? s (rtts samples)
    holdStats? s (holds samples)
  else some { hasData := false, receivedTotal := b.receivedTotal, lostTotal := b.lostTotal }

theorem percentile_congr {v v' : List UInt64} (h : v.Perm v') (p : Double) :
    percentile v p = percentile v' p := by
  rw [percentile, percentile, mergeSort_congr h]

theorem percentile?_eq {v : List UInt64} (hv : v ≠ []) (p : Double) :
    percentile? v p = some (v.mergeSort, percentile v p) := by
  have hpos : 0 < v.mergeSort.length := List.length_pos_iff.mpr (mergeSort_ne_nil hv)
  have hidx : ∀ idx, min idx (v.mergeSort.length - 1) < v.mergeSort.length := by
    intro idx
    omega
  simp only [percentile?, percentile, List.getElem?_eq_getElem (hidx _)]
  rfl

theorem rttStats?_eq (s : FeedbackStats) (v : List UInt64) :
    rttStats? s v = some { s with
      rttP50Ms := if v.isEmpty then s.rttP50Ms else percentile v 0.50
      rttP95Ms := if v.isEmpty then s.rttP95Ms else percentile v 0.95
      rttMaxMs :=
        if v.isEmpty then s.rttMaxMs
        else Double.ofUnsigned (v.mergeSort.getLast?.getD 0).toNat / 1e6 } := by
  by_cases hv : v = []
  · subst hv
    rfl
  have hempty : ¬ v.isEmpty = true := by rwa [List.isEmpty_iff]
  have hsorted := mergeSort_ne_nil hv
  have hlast := List.getLast?_eq_some_getLast hsorted
  simp only [rttStats?, if_neg hempty, percentile?_eq hv, Option.bind_eq_bind, Option.bind_some]
  have hagain := List.mergeSort_perm v fun a b => decide (a ≤ b)
  rw [percentile?_eq hsorted, mergeSort_congr hagain, percentile_congr hagain]
  simp only [Option.bind_some, hlast, Option.getD_some]
  rfl

theorem holdStats?_eq (s : FeedbackStats) (v : List UInt64) :
    holdStats? s v = some { s with
      cmdHoldP95Ms := if v.isEmpty then s.cmdHoldP95Ms else percentile v 0.95 } := by
  by_cases hv : v = []
  · subst hv
    rfl
  have hempty : ¬ v.isEmpty = true := by rwa [List.isEmpty_iff]
  simp only [holdStats?, if_neg hempty, percentile?_eq hv, Option.bind_eq_bind, Option.bind_some]
  rfl

/-- No read is outside. The second sort and the maximum find the vector sorted. -/
theorem snapshot?_eq (b : FeedbackStateBuffer F) (nowNs : UInt64) :
    b.snapshot? nowNs = some (b.snapshot nowNs) := by
  unfold snapshot? snapshot
  by_cases hdata : b.hasData = true
  · rw [if_pos hdata, if_pos hdata]
    simp only [rttStats?_eq, holdStats?_eq, Option.bind_eq_bind, Option.bind_some]
    rfl
  · rw [if_neg hdata, if_neg hdata]

/-- The order in which the samples arrived does not matter. -/
theorem snapshot_rtts_congr {b b' : FeedbackStateBuffer F} {nowNs nowNs' : UInt64}
    (hdata : b.hasData = true) (hdata' : b'.hasData = true)
    (h : (rtts (b.counted nowNs)).Perm (rtts (b'.counted nowNs'))) :
    (b.snapshot nowNs).rttP50Ms = (b'.snapshot nowNs').rttP50Ms ∧
      (b.snapshot nowNs).rttP95Ms = (b'.snapshot nowNs').rttP95Ms ∧
      (b.snapshot nowNs).rttMaxMs = (b'.snapshot nowNs').rttMaxMs := by
  rw [rtts, rtts] at h
  rw [snapshot, snapshot, if_pos hdata, if_pos hdata']
  simp only [statistics, percentile_congr h, mergeSort_congr h, h.isEmpty_eq, and_self]

theorem snapshot_holds_congr {b b' : FeedbackStateBuffer F} {nowNs nowNs' : UInt64}
    (hdata : b.hasData = true) (hdata' : b'.hasData = true)
    (h : (holds (b.counted nowNs)).Perm (holds (b'.counted nowNs'))) :
    (b.snapshot nowNs).cmdHoldP95Ms = (b'.snapshot nowNs').cmdHoldP95Ms := by
  rw [holds, holds] at h
  rw [snapshot, snapshot, if_pos hdata, if_pos hdata']
  simp only [statistics, percentile_congr h, h.isEmpty_eq]

end Checked

/-! ## Order statistics -/

/-- A time in nanoseconds, read in milliseconds. -/
def ms (ns : UInt64) : Double := .fin (ns.toNat / 10 ^ 6)

theorem ms_lt_ms (x y : UInt64) : ms x < ms y ↔ x < y := by
  rw [ms, ms, Double.fin_lt_fin, div_lt_div_iff_of_pos_right (by norm_num), Nat.cast_lt,
    UInt64.lt_iff_toNat_lt]

theorem ms_le_ms (x y : UInt64) : ms x ≤ ms y ↔ x ≤ y := by
  rw [ms, ms, Double.fin_le_fin, div_le_div_iff_of_pos_right (by norm_num), Nat.cast_le,
    UInt64.le_iff_toNat_le]

/-- The value stands at position `k` among the times. -/
def Selects (v : List UInt64) (k : ℕ) (value : Double) : Prop := ∃ x, HasRank v k x ∧ value = ms x

section Selects

variable {v : List UInt64} {j k : ℕ} {a b : Double}

theorem Selects.sample (h : Selects v k a) : ∃ x ∈ v, a = ms x := by
  obtain ⟨x, hx, ha⟩ := h
  exact ⟨x, hx.mem, ha⟩

theorem Selects.le (ha : Selects v j a) (hb : Selects v k b) (h : j ≤ k) : a ≤ b := by
  obtain ⟨x, hx, rfl⟩ := ha
  obtain ⟨y, hy, rfl⟩ := hb
  exact (ms_le_ms x y).mpr (hx.le hy h)

theorem Selects.max (h : Selects v (v.length - 1) a) : ∃ x ∈ v, a = ms x ∧ ∀ y ∈ v, y ≤ x := by
  obtain ⟨x, hx, ha⟩ := h
  exact ⟨x, hx.mem, ha, hx.max⟩

/-- The value is one of the times. Fewer exceed it than a share of the others and a half. -/
structure Reports (v : List UInt64) (share : ℚ) (value : Double) : Prop where
  sample : ∃ x ∈ v, value = ms x
  exceeded : ((v.countP fun x => decide (value < ms x) : ℕ) : ℚ) < share * (v.length - 1) + 0.5

theorem Selects.reports {p share : ℚ} (h : Selects v (nearestRank p v.length) a)
    (hshare : 1 - p = share) : Reports v share a := by
  subst hshare
  refine ⟨h.sample, ?_⟩
  obtain ⟨x, hx, rfl⟩ := h
  have hbehind : ((v.countP (x < ·) : ℕ) : ℚ) ≤ (v.length - 1 : ℕ) - nearestRank p v.length := by
    rw [le_sub_iff_add_le]
    have := hx.above
    exact_mod_cast (by omega : v.countP (x < ·) + nearestRank p v.length ≤ v.length - 1)
  have hlength : ((v.length - 1 : ℕ) : ℚ) = v.length - 1 :=
    Nat.cast_pred (List.length_pos_of_mem hx.mem)
  have hrank := sub_nearestRank_lt p v.length
  rw [hlength] at hbehind hrank
  simp only [ms_lt_ms]
  linarith

/-- Above a limit that the value passes there is no more than above the value. -/
theorem Reports.within {share : ℚ} {limit : Double} (h : Reports v share a)
    (hle : a.AtMost limit) :
    ((v.countP fun x => decide (limit < ms x) : ℕ) : ℚ) < share * (v.length - 1) + 0.5 := by
  obtain ⟨⟨x, -, rfl⟩, hexceeded⟩ := h
  have hmono : v.countP (fun y => decide (limit < ms y)) ≤
      v.countP fun y => decide (ms x < ms y) := by
    refine List.countP_mono_left fun y _ hy => ?_
    rw [decide_eq_true_eq] at hy ⊢
    by_contra hlt
    rcases Double.nan_or_lt_of_not_lt hy hlt with hnan | hlimit
    · exact nomatch hnan
    · exact (Double.atMost_iff _ _).mp hle hlimit
  exact lt_of_le_of_lt (by exact_mod_cast hmono) hexceeded

end Selects

section Exact

attribute [local instance] Rounding.exact

theorem div_million (x : UInt64) : Double.ofUnsigned x.toNat / 1e6 = ms x := by
  change Double.fin _ / .fin _ = _
  rw [Double.exact_div _ _ (by norm_num), ms]
  norm_num

/-- The index is rounded to the nearest one, and the bound on it never binds. -/
theorem selects_percentile {v : List UInt64} (hv : v ≠ []) {p : ℚ} (hp : p ≤ 1) :
    Selects v (nearestRank p v.length) (percentile v (.fin p)) := by
  have hidx : (Double.fin p * Double.ofUnsigned (v.length - 1) + 0.5).truncate =
      nearestRank p v.length := by
    change ⌊p * ((v.length - 1 : ℕ) : ℚ) + 0.5⌋₊ = _
    rw [nearestRank]
    norm_num
  have hle := nearestRank_le hp v.length
  have hlt : nearestRank p v.length < v.mergeSort.length := by
    have hpos := List.length_pos_iff.mpr hv
    rw [List.length_mergeSort]
    omega
  refine ⟨v.mergeSort[nearestRank p v.length], hasRank_mergeSort (List.getElem?_eq_getElem hlt), ?_⟩
  rw [percentile]
  simp only [List.length_mergeSort, hidx, min_eq_left hle, List.getElem?_eq_getElem hlt,
    Option.getD_some]
  exact div_million _

theorem selects_rtts {b : FeedbackStateBuffer F} {nowNs : UInt64} (hdata : b.hasData = true)
    (hne : rtts (b.counted nowNs) ≠ []) :
    let v := rtts (b.counted nowNs)
    Selects v (nearestRank (0.50 : ℚ) v.length) (b.snapshot nowNs).rttP50Ms ∧
      Selects v (nearestRank (0.95 : ℚ) v.length) (b.snapshot nowNs).rttP95Ms ∧
      Selects v (v.length - 1) (b.snapshot nowNs).rttMaxMs := by
  intro v
  have hempty : ¬ v.isEmpty = true := by rwa [List.isEmpty_iff]
  rw [snapshot, if_pos hdata]
  refine ⟨?_, ?_, ?_⟩
  · have hp50 : (b.statistics nowNs (b.counted nowNs)).rttP50Ms = percentile v 0.50 :=
      if_neg hempty
    rw [hp50]
    exact selects_percentile hne (by norm_num)
  · have hp95 : (b.statistics nowNs (b.counted nowNs)).rttP95Ms = percentile v 0.95 :=
      if_neg hempty
    rw [hp95]
    exact selects_percentile hne (by norm_num)
  · have hmax : (b.statistics nowNs (b.counted nowNs)).rttMaxMs =
        Double.ofUnsigned (v.mergeSort.getLast?.getD 0).toNat / 1e6 := if_neg hempty
    have hlast := List.getLast?_eq_some_getLast (mergeSort_ne_nil hne)
    refine ⟨_, hasRank_last hlast, ?_⟩
    rw [hmax, div_million, hlast, Option.getD_some]

theorem selects_holds {b : FeedbackStateBuffer F} {nowNs : UInt64} (hdata : b.hasData = true)
    (hne : holds (b.counted nowNs) ≠ []) :
    Selects (holds (b.counted nowNs)) (nearestRank (0.95 : ℚ) (holds (b.counted nowNs)).length)
      (b.snapshot nowNs).cmdHoldP95Ms := by
  have hempty : ¬ (holds (b.counted nowNs)).isEmpty = true := by rwa [List.isEmpty_iff]
  have hp95 : (b.statistics nowNs (b.counted nowNs)).cmdHoldP95Ms =
      percentile (holds (b.counted nowNs)) 0.95 := if_neg hempty
  rw [snapshot, if_pos hdata, hp95]
  exact selects_percentile hne (by norm_num)

/-- What a snapshot says about the round trips. -/
structure SoundRtts (v : List UInt64) (s : FeedbackStats) : Prop where
  p50 : Reports v 0.5 s.rttP50Ms
  p95 : Reports v 0.05 s.rttP95Ms
  max : ∃ x ∈ v, s.rttMaxMs = ms x ∧ ∀ y ∈ v, y ≤ x
  p50_le_p95 : s.rttP50Ms ≤ s.rttP95Ms
  p95_le_max : s.rttP95Ms ≤ s.rttMaxMs

theorem rtts_nil {b : FeedbackStateBuffer F} {nowNs : UInt64} (hdata : b.hasData = true)
    (hnil : rtts (b.counted nowNs) = []) : (b.snapshot nowNs).rttP95Ms = -1.0 := by
  have hempty : (rtts (b.counted nowNs)).isEmpty = true := by rwa [List.isEmpty_iff]
  rw [snapshot, if_pos hdata]
  exact if_pos hempty

theorem soundRtts_snapshot {b : FeedbackStateBuffer F} {nowNs : UInt64} (hdata : b.hasData = true)
    (hne : rtts (b.counted nowNs) ≠ []) : SoundRtts (rtts (b.counted nowNs)) (b.snapshot nowNs) := by
  obtain ⟨hp50, hp95, hmax⟩ := selects_rtts hdata hne
  exact ⟨hp50.reports (by norm_num), hp95.reports (by norm_num), hmax.max,
    hp50.le hp95 (nearestRank_mono (by norm_num) _), hp95.le hmax (nearestRank_le (by norm_num) _)⟩

/-- In every run a snapshot reports on the accepted packets of its window. -/
theorem soundRtts_runs [Zero F] {windowNs : UInt64} {s : Clocked F} {h : List (Call F)}
    (hr : (machine windowNs).Runs s h) {nowNs : UInt64} (hle : s.clockNs ≤ nowNs)
    (hne : rtts ((accepted h).filter (InWindow windowNs nowNs ·)) ≠ []) :
    SoundRtts (rtts ((accepted h).filter (InWindow windowNs nowNs ·)))
      (s.buffer.snapshot nowNs) := by
  have hI := (windowInv_runs hr).later hle
  have hcounted : s.buffer.counted nowNs = (accepted h).filter (InWindow windowNs nowNs ·) :=
    hI.counted
  have hdata : s.buffer.hasData = true := by
    by_contra hnone
    rw [hI.no_data (Bool.not_eq_true _ ▸ hnone)] at hne
    exact hne rfl
  rw [← hcounted] at hne ⊢
  exact soundRtts_snapshot hdata hne

/-- **The percentiles are sound.** No snapshot reads outside of its vectors. What it reports on the
measured round trips and on the command ages are samples of the window, in the order p50, p95 and
maximum, with few above the p95, whatever the order in which they arrived. -/
theorem percentiles_sound (b : FeedbackStateBuffer F) (nowNs : UInt64) (hdata : b.hasData = true) :
    let samples := b.counted nowNs
    let s := b.snapshot nowNs
    b.snapshot? nowNs = some s ∧
      (rtts samples ≠ [] → SoundRtts (rtts samples) s) ∧
      (holds samples ≠ [] → Reports (holds samples) 0.05 s.cmdHoldP95Ms) ∧
      ∀ (b' : FeedbackStateBuffer F) (nowNs' : UInt64), b'.hasData = true →
        let samples' := b'.counted nowNs'
        let s' := b'.snapshot nowNs'
        ((rtts samples).Perm (rtts samples') →
          s.rttP50Ms = s'.rttP50Ms ∧ s.rttP95Ms = s'.rttP95Ms ∧ s.rttMaxMs = s'.rttMaxMs) ∧
        ((holds samples).Perm (holds samples') → s.cmdHoldP95Ms = s'.cmdHoldP95Ms) := by
  intro samples s
  refine ⟨snapshot?_eq b nowNs, soundRtts_snapshot hdata, fun hne => ?_, ?_⟩
  · exact (selects_holds hdata hne).reports (by norm_num)
  · intro b' nowNs' hdata' samples' s'
    exact ⟨snapshot_rtts_congr hdata hdata', snapshot_holds_congr hdata hdata'⟩

def trip (b : FeedbackStateBuffer UInt64) (seq : UInt32) (rttNs : UInt64) :
    FeedbackStateBuffer UInt64 :=
  b.update { FeedbackPacket.zero with seq := seq } rttNs 0

/-- Round trips of 5 ms and 3 ms, with one between them that was not measured, and the same two the
other way round. -/
theorem percentiles_sound_two :
    let b := (((new 10).trip 1 5000000).trip 2 0).trip 3 3000000
    let b' := ((new 10).trip 7 3000000).trip 8 5000000
    SoundRtts [5000000, 3000000] (b.snapshot 4) ∧
      Reports [0, 0, 0] 0.05 (b.snapshot 4).cmdHoldP95Ms ∧
      (b.snapshot 4).rttP95Ms = (b'.snapshot 4).rttP95Ms := by
  intro b b'
  have hrtts : rtts (b.counted 4) = [5000000, 3000000] := by decide +kernel
  have hrtts' : rtts (b'.counted 4) = [3000000, 5000000] := by decide +kernel
  have hholds : holds (b.counted 4) = [0, 0, 0] := by decide +kernel
  have hsound := percentiles_sound b 4 rfl
  simp only [hrtts, hholds] at hsound
  obtain ⟨-, htrips, hages, hcongr⟩ := hsound
  refine ⟨htrips nofun, hages nofun, ?_⟩
  have hsame := (hcongr b' 4 rfl).1
  rw [hrtts'] at hsame
  exact (hsame (.swap _ _ _)).2.1

end Exact

end FeedbackStateBuffer

end OpenArmTeleop.Core
