import OpenArmTeleop.Net.Wire

/-!
# Damage on the way

A datagram of which a few bytes in a row arrive as others, and what the receivers make of it.
-/

namespace OpenArmTeleop.System

open OpenArmTeleop.Net

/-- The bytes from `position` on are those of `burst`. -/
def overwrite (datagram : List UInt8) (position : ℕ) (burst : List UInt8) : List UInt8 :=
  datagram.take position ++ burst ++ datagram.drop (position + burst.length)

section Overwrite

variable {datagram burst : List UInt8} {position : ℕ}

theorem length_overwrite (hin : position + burst.length ≤ datagram.length) :
    (overwrite datagram position burst).length = datagram.length := by
  simp only [overwrite, List.length_append, List.length_take, List.length_drop]
  omega

theorem overwrite_outside (hin : position + burst.length ≤ datagram.length) (j : ℕ)
    (hj : j < position ∨ position + burst.length ≤ j) :
    (overwrite datagram position burst)[j]? = datagram[j]? := by
  have htake : (datagram.take position).length = position := by
    rw [List.length_take]
    omega
  unfold overwrite
  rcases hj with hj | hj
  · rw [List.append_assoc, List.getElem?_append_left (by omega), List.getElem?_take_of_lt hj]
  · rw [List.getElem?_append_right (by rw [List.length_append]; omega), List.getElem?_drop,
      List.length_append, htake]
    congr 1
    omega

/-- A burst of four bytes leaves the datagram as it was, or corrupts it. -/
theorem overwrite_cases (hburst : burst.length ≤ 4)
    (hin : position + burst.length ≤ datagram.length) :
    overwrite datagram position burst = datagram ∨
      Corrupted datagram (overwrite datagram position burst) := by
  by_cases heq : overwrite datagram position burst = datagram
  · exact .inl heq
  · refine .inr ⟨length_overwrite hin, heq, position, fun j hj => overwrite_outside hin j ?_⟩
    omega

/-- Of a datagram that was sent, only the packet that went into it comes out. -/
theorem receiveTeleop_overwrite {p q : TeleopPacket UInt64} (hburst : burst.length ≤ 4)
    (hin : position + burst.length ≤ (TeleopPacket.layout.put q).length)
    (hvalid : q.decodeAndValidate = true)
    (hreceive : receiveTeleop (overwrite (TeleopPacket.layout.put q) position burst) = some p) :
    p = q := by
  have hq := (receiveTeleop_iff (TeleopPacket.layout.put q) q).mpr ⟨rfl, hvalid⟩
  rcases overwrite_cases hburst hin with heq | hcorrupted
  · rw [heq, hq] at hreceive
    exact (Option.some.inj hreceive).symm
  · exact absurd ((receiveTeleop_feed hreceive).trans (receiveTeleop_feed hq).symm)
      (hcorrupted.feed_ne _)

theorem receiveFeedback_overwrite {p q : FeedbackPacket UInt64} (hburst : burst.length ≤ 4)
    (hin : position + burst.length ≤ (FeedbackPacket.layout.put q).length)
    (hvalid : q.decodeAndValidate = true)
    (hreceive : receiveFeedback (overwrite (FeedbackPacket.layout.put q) position burst) = some p) :
    p = q := by
  have hq := (receiveFeedback_iff (FeedbackPacket.layout.put q) q).mpr ⟨rfl, hvalid⟩
  rcases overwrite_cases hburst hin with heq | hcorrupted
  · rw [heq, hq] at hreceive
    exact (Option.some.inj hreceive).symm
  · exact absurd ((receiveFeedback_feed hreceive).trans (receiveFeedback_feed hq).symm)
      (hcorrupted.feed_ne _)

end Overwrite

end OpenArmTeleop.System
