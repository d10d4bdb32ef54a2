import OpenArmTeleop.Core.FeedbackBuffer
import OpenArmTeleop.Lib.Run
import OpenArmTeleop.Lib.Window

/-!
# The window of the feedback statistics

What `snapshot` counts, against a recomputation from all calls.
-/

open Num Run Window OpenArmTeleop.Net

namespace OpenArmTeleop.Core

namespace FeedbackStateBuffer

variable {F : Type}

/-! ## Calls under a clock -/

inductive Call (F : Type)
  | update (packet : FeedbackPacket F) (rttNs nowNs : UInt64)
  | snapshot (nowNs : UInt64)
  | reset

/-- The buffer, and the last reading of its clock. -/
structure Clocked (F : Type) where
  buffer : FeedbackStateBuffer F
  clockNs : UInt64

def Clocked.step (s : Clocked F) : Call F → Option (Clocked F × Option (Call F))
  | .update packet rttNs nowNs =>
    if s.clockNs ≤ nowNs then
      some (⟨s.buffer.update packet rttNs nowNs, nowNs⟩, some (.update packet rttNs nowNs))
    else none
  | .snapshot nowNs =>
    if s.clockNs ≤ nowNs then some (⟨s.buffer, nowNs⟩, some (.snapshot nowNs)) else none
  | .reset => some (⟨s.buffer.reset, s.clockNs⟩, some .reset)

/-- All runs of calls whose clock does not go back. -/
def machine [Zero F] (windowNs : UInt64) : Machine (Clocked F) (Call F) (Call F) where
  init := ⟨.new windowNs, 0⟩
  step := Clocked.step

/-! ## The recomputation -/

/-- The sequence number of the last packet since the last reset. -/
def lastSeqOf : List (Call F) → Option UInt32
  | [] => none
  | .update packet _ _ :: _ => some packet.seq
  | .snapshot _ :: h => lastSeqOf h
  | .reset :: _ => none

/-- The samples of the packets that were no duplicates, since the last reset or backward jump. -/
def accepted : List (Call F) → List Sample
  | [] => []
  | .update packet rttNs nowNs :: h =>
    match lastSeqOf h with
    | none => [⟨nowNs, 0, rttNs, packet.cmdHoldNs⟩]
    | some last =>
      if packet.seq = last then accepted h
      else if packet.seq - last > 0x7FFFFFFF then [⟨nowNs, 0, rttNs, packet.cmdHoldNs⟩]
      else accepted h ++ [⟨nowNs, packet.seq - last - 1, rttNs, packet.cmdHoldNs⟩]
  | .snapshot _ :: h => accepted h
  | .reset :: _ => []

/-- The sample was received within the window before `nowNs`. -/
def InWindow (windowNs nowNs : UInt64) (sample : Sample) : Prop :=
  sample.recvTimeNs ≤ nowNs ∧ nowNs.toNat ≤ sample.recvTimeNs.toNat + windowNs.toNat

instance (windowNs nowNs : UInt64) (sample : Sample) : Decidable (InWindow windowNs nowNs sample) :=
  inferInstanceAs (Decidable (_ ∧ _))

/-- No call at `nowNs` subtracts a later time from an earlier one. -/
def NoUnderflow (b : FeedbackStateBuffer F) (nowNs : UInt64) : Prop :=
  (∀ sample ∈ b.samples, sample.recvTimeNs ≤ nowNs) ∧
    (b.hasData = true → b.lastReceiveTimeNs ≤ nowNs)

/-! ## Time -/

/-- What the trim drops from the front. -/
def expired (windowNs nowNs : UInt64) (sample : Sample) : Bool :=
  decide (nowNs - sample.recvTimeNs > windowNs)

theorem expired_iff {windowNs nowNs : UInt64} {sample : Sample} (h : sample.recvTimeNs ≤ nowNs) :
    expired windowNs nowNs sample = true ↔
      sample.recvTimeNs.toNat + windowNs.toNat < nowNs.toNat := by
  have hle := UInt64.le_iff_toNat_le.mp h
  rw [expired, decide_eq_true_eq, gt_iff_lt, UInt64.lt_iff_toNat_lt, UInt64.toNat_sub_of_le _ _ h]
  omega

theorem inWindow_iff {windowNs nowNs : UInt64} {sample : Sample} (h : sample.recvTimeNs ≤ nowNs) :
    InWindow windowNs nowNs sample ↔ expired windowNs nowNs sample = false := by
  rw [← Bool.not_eq_true, expired_iff h, InWindow, and_iff_right h, not_lt]

theorem expired_mono {windowNs nowNs laterNs : UInt64} {sample : Sample}
    (h : sample.recvTimeNs ≤ nowNs) (hle : nowNs ≤ laterNs)
    (hexp : expired windowNs nowNs sample = true) : expired windowNs laterNs sample = true := by
  rw [expired_iff h] at hexp
  rw [expired_iff (UInt64.le_trans h hle)]
  exact hexp.trans_le (UInt64.le_iff_toNat_le.mp hle)

/-! ## The invariant -/

/-- The buffer holds what a recomputation can still need, and nothing else. -/
structure WindowInv (windowNs : UInt64) (s : Clocked F) (h : List (Call F)) : Prop where
  window : s.buffer.windowNs = windowNs
  lastSeq : (if s.buffer.hasData then some s.buffer.lastSeq else none) = lastSeqOf h
  received : s.buffer.hasData = true → s.buffer.lastReceiveTimeNs ≤ s.clockNs
  times : ∀ x ∈ accepted h, x.recvTimeNs ≤ s.clockNs
  covers : Covers (expired windowNs s.clockNs) (accepted h) s.buffer.samples

theorem windowInv_start [Zero F] (windowNs : UInt64) :
    WindowInv (F := F) windowNs ⟨.new windowNs, 0⟩ [] :=
  ⟨rfl, rfl, fun hd => by simp [new] at hd, by simp [accepted], .refl _ []⟩

theorem accepted_eq_nil {h : List (Call F)} (hlast : lastSeqOf h = none) : accepted h = [] := by
  induction h with
  | nil => rfl
  | cons call h ih =>
    cases call with
    | update packet rttNs nowNs => cases hlast
    | snapshot nowNs => exact ih hlast
    | reset => rfl

theorem WindowInv.no_data {windowNs : UInt64} {s : Clocked F} {h : List (Call F)}
    (hI : WindowInv windowNs s h) (hdata : s.buffer.hasData = false) : accepted h = [] := by
  have hlast := hI.lastSeq
  rw [hdata, if_neg Bool.false_ne_true] at hlast
  exact accepted_eq_nil hlast.symm

theorem WindowInv.later {windowNs : UInt64} {s : Clocked F} {h : List (Call F)}
    (hI : WindowInv windowNs s h) {nowNs : UInt64} (hle : s.clockNs ≤ nowNs) :
    WindowInv windowNs ⟨s.buffer, nowNs⟩ h where
  window := hI.window
  lastSeq := hI.lastSeq
  received hd := UInt64.le_trans (hI.received hd) hle
  times x hx := UInt64.le_trans (hI.times x hx) hle
  covers := hI.covers.later fun x hx => expired_mono (hI.times x hx) hle

/-- A packet that is taken joins the history and the queue. -/
theorem WindowInv.store {windowNs : UInt64} {s : Clocked F} {h : List (Call F)} {history : List Sample}
    {b : FeedbackStateBuffer F} {packet : FeedbackPacket F} {rttNs : UInt64} (lost : UInt32)
    (hwindow : b.windowNs = windowNs) (htimes : ∀ x ∈ history, x.recvTimeNs ≤ s.clockNs)
    (hcovers : Covers (expired windowNs s.clockNs) history b.samples)
    (haccepted : accepted (.update packet rttNs s.clockNs :: h) =
      history ++ [⟨s.clockNs, lost, rttNs, packet.cmdHoldNs⟩]) :
    WindowInv windowNs ⟨b.store packet rttNs s.clockNs lost, s.clockNs⟩
      (.update packet rttNs s.clockNs :: h) := by
  refine ⟨hwindow, rfl, fun _ => UInt64.le_refl _, fun x hx => ?_, ?_⟩
  · rw [haccepted] at hx
    rcases List.mem_append.mp hx with hx | hx
    · exact htimes x hx
    · rw [List.mem_singleton.mp hx]
      exact UInt64.le_refl _
  · rw [haccepted]
    subst hwindow
    exact (hcovers.push _).trim

theorem windowInv_update {windowNs : UInt64} {s : Clocked F} {h : List (Call F)}
    (hI : WindowInv windowNs s h) (packet : FeedbackPacket F) (rttNs : UInt64) :
    WindowInv windowNs ⟨s.buffer.update packet rttNs s.clockNs, s.clockNs⟩
      (.update packet rttNs s.clockNs :: h) := by
  have hlast := hI.lastSeq
  rcases s.buffer.update_cases packet rttNs s.clockNs with ⟨hdata, hupdate⟩ |
    ⟨hdata, hjump, hupdate⟩ | ⟨hdata, hdup, hupdate⟩ | ⟨hdata, hne, hjump, hupdate⟩
  · have hcovers := hI.covers
    rw [hI.no_data hdata] at hcovers
    rw [hdata, if_neg Bool.false_ne_true] at hlast
    rw [hupdate]
    exact .store 0 hI.window (by simp) hcovers (by simp [accepted, ← hlast])
  · -- a jump backwards forgets the samples, in the recomputation as well
    rw [hdata, if_pos rfl] at hlast
    have hne : packet.seq ≠ s.buffer.lastSeq := by
      intro heq
      rw [heq, sub_self] at hjump
      exact absurd hjump (by decide)
    rw [hupdate]
    exact .store 0 hI.window (by simp) (.refl _ []) (by simp [accepted, ← hlast, hne, hjump])
  · rw [hdata, if_pos rfl] at hlast
    have haccepted : accepted (.update packet rttNs s.clockNs :: h) = accepted h := by
      simp [accepted, ← hlast, hdup]
    rw [hupdate]
    refine ⟨hI.window, ?_, hI.received, ?_, ?_⟩
    · simp [hdata, lastSeqOf, hdup]
    · rw [haccepted]
      exact hI.times
    · rw [haccepted]
      exact hI.covers
  · rw [hdata, if_pos rfl] at hlast
    rw [hupdate]
    exact .store _ hI.window hI.times hI.covers (by simp [accepted, ← hlast, hne, hjump])

theorem windowInv_step {windowNs : UInt64} {s s' : Clocked F} {h : List (Call F)} {call : Call F}
    {e : Option (Call F)} (hI : WindowInv windowNs s h) (hs : s.step call = some (s', e)) :
    WindowInv windowNs s' (e.toList ++ h) := by
  cases call with
  | update packet rttNs nowNs =>
    simp only [Clocked.step] at hs
    split at hs
    · rename_i hle
      obtain ⟨rfl, rfl⟩ := Prod.mk.inj (Option.some.inj hs)
      exact windowInv_update (hI.later hle) packet rttNs
    · cases hs
  | snapshot nowNs =>
    simp only [Clocked.step] at hs
    split at hs
    · rename_i hle
      obtain ⟨rfl, rfl⟩ := Prod.mk.inj (Option.some.inj hs)
      obtain ⟨hwindow, hlast, hreceived, htimes, hcovers⟩ := hI.later hle
      exact ⟨hwindow, hlast, hreceived, htimes, hcovers⟩
    · cases hs
  | reset =>
    obtain ⟨rfl, rfl⟩ := Prod.mk.inj (Option.some.inj hs)
    exact ⟨hI.window, rfl, nofun, by simp [accepted], .refl _ []⟩

theorem windowInv_runs [Zero F] {windowNs : UInt64} {s : Clocked F} {h : List (Call F)}
    (hr : (machine windowNs).Runs s h) : WindowInv windowNs s h := by
  refine hr.invariant (windowInv_start windowNs) ?_
  intro s h call s' e hI _ hs
  exact windowInv_step hI hs

theorem WindowInv.counted {windowNs : UInt64} {s : Clocked F} {h : List (Call F)}
    (hI : WindowInv windowNs s h) :
    s.buffer.counted s.clockNs = (accepted h).filter (InWindow windowNs s.clockNs ·) := by
  calc s.buffer.counted s.clockNs
      = s.buffer.samples.filter fun x => !expired windowNs s.clockNs x := by
        simp only [FeedbackStateBuffer.counted, expired, hI.window, decide_not]
    _ = (accepted h).filter fun x => !expired windowNs s.clockNs x := hI.covers.filter
    _ = (accepted h).filter (InWindow windowNs s.clockNs ·) := by
        refine List.filter_congr fun x hx => ?_
        rw [Bool.eq_iff_iff, decide_eq_true_iff, inWindow_iff (hI.times x hx), Bool.not_eq_true']

/-- **The window is what a recomputation counts.** In every run of calls, a snapshot at any time
from now on counts the accepted packets of the window, and no call subtracts a later time. -/
theorem window_exact [Zero F] [Rounding] (windowNs : UInt64) (s : Clocked F) (h : List (Call F))
    (hr : (machine windowNs).Runs s h) (nowNs : UInt64) (hle : s.clockNs ≤ nowNs) :
    s.buffer.counted nowNs = (accepted h).filter (InWindow windowNs nowNs ·) ∧
      s.buffer.snapshot nowNs =
        (if s.buffer.hasData then
          s.buffer.statistics nowNs ((accepted h).filter (InWindow windowNs nowNs ·))
        else { receivedTotal := s.buffer.receivedTotal, lostTotal := s.buffer.lostTotal }) ∧
      NoUnderflow s.buffer nowNs := by
  have hI := (windowInv_runs hr).later hle
  have hcounted : s.buffer.counted nowNs = (accepted h).filter (InWindow windowNs nowNs ·) :=
    hI.counted
  refine ⟨hcounted, ?_, fun x hx => hI.times x (hI.covers.mem hx), hI.received⟩
  rw [snapshot, hcounted]

def numbered (seq : UInt32) : FeedbackPacket UInt64 := { FeedbackPacket.zero with seq := seq }

/-- Two packets and a repeat of the second one. The first has left the window of 10 ns. -/
theorem window_exact_repeat :
    ∃ s h, (machine (F := UInt64) 10).Runs s h ∧ s.buffer.samples.length = 2 ∧
      (s.buffer.counted 12).length = 1 ∧
      s.buffer.counted 12 = (accepted h).filter (InWindow 10 12 ·) ∧ NoUnderflow s.buffer 12 := by
  obtain ⟨s, h, hr, hlen, hcounted, hle⟩ := (machine (F := UInt64) 10).exists_runWhere
    (fun _ _ _ => True)
    [.update (numbered 1) 3 0, .update (numbered 2) 3 5, .update (numbered 2) 3 6, .snapshot 6]
    (fun s _ => s.buffer.samples.length = 2 ∧ (s.buffer.counted 12).length = 1 ∧ s.clockNs ≤ 12)
    (by decide +kernel)
  have := Rounding.exact
  have hexact := window_exact 10 s h hr 12 hle
  exact ⟨s, h, hr, hlen, hcounted, hexact.1, hexact.2.2⟩

end FeedbackStateBuffer

end OpenArmTeleop.Core
