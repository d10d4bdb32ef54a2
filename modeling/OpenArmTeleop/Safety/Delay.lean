import OpenArmTeleop.Core.Percentile
import OpenArmTeleop.Safety.Gate

/-!
# The delay behind an open gate

What the RTT check of `bilateral_gate.cpp` says about the round trips in the window of
`feedback_state_buffer.cpp`.
-/

open Num OpenArmTeleop.Net OpenArmTeleop.Core OpenArmTeleop.Core.FeedbackStateBuffer

namespace OpenArmTeleop.Safety

variable {F : Type}

/-- What the gate reads of a snapshot. -/
def Stats.ofSnapshot (s : FeedbackStats) : Stats where
  hasData := s.hasData
  ageMs := s.ageMs
  rateHz := s.rateHz
  lossPercent := s.lossPercent
  rttP95Ms := s.rttP95Ms

section Exact

attribute [local instance] Rounding.exact

theorem snapshot_hasData (b : FeedbackStateBuffer F) (nowNs : UInt64) :
    (b.snapshot nowNs).hasData = b.hasData := by
  unfold snapshot
  split
  · rfl
  · rename_i hdata
    exact (Bool.eq_false_iff.mpr hdata).symm

def anyRate : BilateralGateConfig := { minFeedbackRateHz := 0.0 }

def linked : FeedbackPacket UInt64 := { FeedbackPacket.zero with linkOk := 1 }

end Exact

end OpenArmTeleop.Safety
