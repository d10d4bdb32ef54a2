import OpenArmTeleop.VrLeader.Steps

/-!
# Where the VR leader captures an anchor

The displacement of the controller counts from the grip press, the anchor of the robot from its
capture.
-/

open Num Run OpenArmTeleop.Net

namespace OpenArmTeleop.VrLeader

/-- At a capture the desired position is the measured one. -/
def Anchored : Event → List Event → Prop
  | .attempt _ m, _ => m.captured = true → m.desired = m.measured
  | _, _ => True

instance : ∀ e h, Decidable (Anchored e h)
  | .attempt .., _ => inferInstanceAs (Decidable (_ → _))
  | .vr .., _ | .telemetry _, _ | .cycle _, _ | .sent .., _ => isTrue trivial

namespace Vec3

def Finite (v : Vec3) : Prop := v.x.isFinite = true ∧ v.y.isFinite = true ∧ v.z.isFinite = true

instance (v : Vec3) : Decidable v.Finite := inferInstanceAs (Decidable (_ ∧ _ ∧ _))

end Vec3

/-- The controller has not moved, or no displacement is allowed. -/
def AtRest (cfg : Config) (lib : Library) (delta : Vec3) : Prop :=
  delta = 0 ∧ ¬ cfg.maxDeltaM < lib.norm 0 ∨
    cfg.maxDeltaM = 0 ∧ delta.Finite ∧ 0 < lib.norm delta

/-- Where the anchor of an arm is captured, its controller is at rest. -/
def CapturesAtRest (cfg : Config) (lib : Library) (s : State) (_ : List Event) : Action → Prop
  | .loop _ => ∀ a, s.loop.pc = .process a → s.captures cfg a = true →
      AtRest cfg lib (s.loop.vrPkt.arm a).deltaPosRobot
  | _ => True

/-- The displacement that comes with a grip press is zero. -/
def FromPress (s : State) (_ : List Event) : Action → Prop
  | .vr _ p => p.magic = vrMagic → ∀ a, ¬ 0.5 < (s.vr.arm a).grip →
      0.5 < Double.ofFloat (p.arm a).grip → (p.arm a).deltaPosHmd = .replicate 3 0
  | _ => True

section Decide

variable (cfg : Config) (lib : Library)

instance (delta : Vec3) : Decidable (AtRest cfg lib delta) := inferInstanceAs (Decidable (_ ∨ _))

instance (s : State) (h : List Event) (act : Action) : Decidable (CapturesAtRest cfg lib s h act) :=
  match act with
  | .loop _ => inferInstanceAs (Decidable (∀ _, _ → _ → _))
  | .vr .. | .telemetry .. | .sigint => isTrue trivial

instance (s : State) (h : List Event) (act : Action) : Decidable (FromPress s h act) :=
  match act with
  | .vr .. => inferInstanceAs (Decidable (_ → ∀ _, _ → _ → _))
  | .telemetry .. | .loop _ | .sigint => isTrue trivial

end Decide

section Displacement

variable [Rounding] [Double.Lawful] {cfg : Config} {lib : Library}

theorem finite_mul_zero {x : Double} (hx : x.isFinite = true) : x * 0 = 0 := by
  obtain ⟨q, rfl⟩ := (Double.isFinite_iff x).mp hx
  change Rounding.round (q * 0) = 0
  rw [mul_zero]
  exact Double.Lawful.round_zero

theorem zero_div_pos {x : Double} (hx : 0 < x) : 0 / x = 0 := by
  cases x with
  | nan => exact absurd hx (Double.not_lt_nan 0)
  | inf n => rfl
  | fin q =>
    have hq : q ≠ 0 := ((Double.fin_lt_fin 0 q).mp hx).ne'
    change (if q = 0 then _ else Rounding.round (0 / q)) = (0 : Double)
    rw [if_neg hq, zero_div]
    exact Double.Lawful.round_zero

/-- A controller at rest moves the desired position nowhere. -/
theorem clampDelta_atRest {delta : Vec3} (h : AtRest cfg lib delta) :
    clampDelta cfg lib delta = 0 := by
  unfold clampDelta
  rcases h with ⟨rfl, hmax⟩ | ⟨hmax, ⟨hx, hy, hz⟩, hnorm⟩
  · rw [if_neg hmax]
  · rw [hmax, if_pos hnorm, zero_div_pos hnorm]
    unfold Vec3.scale
    rw [finite_mul_zero hx, finite_mul_zero hy, finite_mul_zero hz]
    rfl

end Displacement

theorem anchored_process [Rounding] [Double.Lawful] {cfg : Config} {lib : Library}
    (hfk : ∀ a q, lib.fk a q + 0 = lib.fk a q) {s : State} {h : List Event} {a : ArmSide}
    {solved : Bool} {qIk : Joints} {e : Event}
    (hrest : s.captures cfg a = true → AtRest cfg lib (s.loop.vrPkt.arm a).deltaPosRobot)
    (he : (s.process cfg lib a solved qIk).2 = some e) : Anchored e h := by
  rw [State.process_event] at he
  split at he
  · obtain rfl := Option.some.inj he
    intro hcaptured
    have hdelta := clampDelta_atRest (hrest hcaptured)
    change (if s.captures cfg a = true then _ else _) + _ = _
    rw [if_pos hcaptured, hdelta]
    exact hfk a _
  · cases he

/-- **No displacement is applied twice.** When each anchor is captured while the controller is at
rest, the desired position starts at the measured one. -/
theorem anchors_at_rest [Rounding] [Double.Lawful] (cfg : Config) (lib : Library)
    (hfk : ∀ a q, lib.fk a q + 0 = lib.fk a q) (s : State) (h : List Event)
    (hr : (machine cfg lib).RunWhere (CapturesAtRest cfg lib) s h) : Always Anchored h := by
  refine (hr.always (I := fun _ _ => True) trivial (fun _ _ _ _ _ _ _ _ => trivial) ?_).2
  intro s h act s' e _ hok hs
  rcases step_event cfg lib hs with ⟨_, _, rfl⟩ | ⟨_, rfl⟩ | ⟨_, -, rfl⟩ |
    ⟨a, env, rfl, hpc, he⟩ | ⟨_, _, -, -, rfl⟩
  · trivial
  · trivial
  · trivial
  · exact anchored_process hfk (hok a hpc) he
  · trivial

section Runs

attribute [local instance] Rounding.exact

def capturedRight : Event → Bool
  | .attempt .right m => m.captured
  | _ => false

/-- The right grip is pressed after the first telemetry. -/
theorem anchors_at_rest_press :
    ∃ s h, (machine {} axis).RunWhere (CapturesAtRest {} axis) s h ∧ h.any capturedRight = true ∧
      Always Anchored h := by
  have := Double.exact_lawful
  obtain ⟨s, h, hr, hq⟩ := (machine {} axis).exists_runWhere (CapturesAtRest {} axis)
    ([.telemetry 0 (telemetryPacket 0), .vr 0 (vrPacket (hand 0x3F800000 0 0))] ++ loops 4 0 true 0)
    (fun _ h => h.any capturedRight = true) (by decide +kernel)
  have hzero : (0 : Vec3) + 0 = 0 := by decide +kernel
  exact ⟨s, h, hr, hq, anchors_at_rest {} axis (fun _ _ => hzero) s h hr⟩

/-- The right grip is held across a gap in the telemetry, while the hand moves. -/
theorem anchors_displaced :
    ∃ s h, (machine {} axis).RunWhere FromPress s h ∧ ¬ Always Anchored h := by
  obtain ⟨s, h, hr, hv⟩ := (machine {} axis).exists_runWhere FromPress
    ([.telemetry 0 (telemetryPacket 0), .vr 0 (vrPacket (hand 0x3F800000 0 0))] ++
      loops 8 0 true 0 ++ [.vr 1 (vrPacket (hand 0x3F800000 0 0x3E000000))] ++
      loops 8 400000000 true 0 ++ [.telemetry 400000000 (telemetryPacket 0)] ++
      loops 4 400000000 true 0)
    (fun _ h => Machine.violates Anchored h = true) (by decide +kernel)
  exact ⟨s, h, hr, Machine.not_always_of_violates Anchored h hv⟩

end Runs

end OpenArmTeleop.VrLeader
