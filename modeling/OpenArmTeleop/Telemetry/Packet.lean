import OpenArmTeleop.Control.Joint
import OpenArmTeleop.Net.Checksum

/-!
# Telemetry packets

`openarm_telemetry_packet.hpp`, `openarm_telemetry_publisher.cpp`, and how
`wifi_bimanual_follower.cpp` fills a packet.
-/

open Bytes Num OpenArmTeleop.Net OpenArmTeleop.Control

namespace OpenArmTeleop.Telemetry

/-! ## The struct -/

/-- The floats are 32-bit patterns. -/
structure OpenArmTelemetryPacketV1 where
  magic : UInt32
  version : UInt16
  packetSize : UInt16
  seq : UInt32
  monotonicTimeNs : UInt64
  robotType : UInt8
  controlMode : UInt8
  enabled : UInt8
  estop : UInt8
  stateDim : UInt8
  actionDim : UInt8
  velocityDim : UInt8
  reserved0 : UInt8
  watchdogState : UInt8
  safetyState : UInt8
  reserved1 : UInt8
  reserved2 : UInt8
  observationState : Vector UInt32 16
  action : Vector UInt32 16
  observationVelocity : Vector UInt32 16
  crc32 : UInt32
  deriving DecidableEq

namespace OpenArmTelemetryPacketV1

def telemetryMagic : UInt32 := 0x5054414F

def size : ℕ := 228

/-- What `memset` leaves. -/
def zero : OpenArmTelemetryPacketV1 where
  magic := 0
  version := 0
  packetSize := 0
  seq := 0
  monotonicTimeNs := 0
  robotType := 0
  controlMode := 0
  enabled := 0
  estop := 0
  stateDim := 0
  actionDim := 0
  velocityDim := 0
  reserved0 := 0
  watchdogState := 0
  safetyState := 0
  reserved1 := 0
  reserved2 := 0
  observationState := .replicate 16 0
  action := .replicate 16 0
  observationVelocity := .replicate 16 0
  crc32 := 0

/-- The fields in the order of the struct. -/
def fields :
    UInt32 × UInt16 × UInt16 × UInt32 × UInt64 ×
      UInt8 × UInt8 × UInt8 × UInt8 × UInt8 × UInt8 × UInt8 × UInt8 ×
      UInt8 × UInt8 × UInt8 × UInt8 ×
      Vector UInt32 16 × Vector UInt32 16 × Vector UInt32 16 × UInt32 ≃
    OpenArmTelemetryPacketV1 where
  toFun := fun (magic, version, packetSize, seq, monotonicTimeNs, robotType, controlMode, enabled,
      estop, stateDim, actionDim, velocityDim, reserved0, watchdogState, safetyState, reserved1,
      reserved2, observationState, action, observationVelocity, crc32) =>
    { magic, version, packetSize, seq, monotonicTimeNs, robotType, controlMode, enabled,
      estop, stateDim, actionDim, velocityDim, reserved0, watchdogState, safetyState, reserved1,
      reserved2, observationState, action, observationVelocity, crc32 }
  invFun p := (p.magic, p.version, p.packetSize, p.seq, p.monotonicTimeNs, p.robotType,
    p.controlMode, p.enabled, p.estop, p.stateDim, p.actionDim, p.velocityDim, p.reserved0,
    p.watchdogState, p.safetyState, p.reserved1, p.reserved2, p.observationState, p.action,
    p.observationVelocity, p.crc32)
  left_inv _ := rfl
  right_inv _ := rfl

def layout : Layout OpenArmTelemetryPacketV1 :=
  (uint32.pair <| uint16.pair <| uint16.pair <| uint32.pair <| uint64.pair <|
    .pair .byte <| .pair .byte <| .pair .byte <| .pair .byte <| .pair .byte <| .pair .byte <|
    .pair .byte <| .pair .byte <| .pair .byte <| .pair .byte <| .pair .byte <| .pair .byte <|
    .pair (uint32.array 16) <| .pair (uint32.array 16) <| .pair (uint32.array 16) uint32).iso fields

theorem layout_size : layout.size = size := rfl

/-- `publish`, up to `sendto`. -/
def publish (packet : OpenArmTelemetryPacketV1) (seq : UInt32) : OpenArmTelemetryPacketV1 :=
  let toSend := { packet with
    magic := telemetryMagic
    version := 1
    packetSize := UInt16.ofNat size
    seq := seq
    crc32 := 0 }
  { toSend with crc32 := calculateCrc32 ((layout.put toSend).take (size - 4)) }

@[simp] theorem publish_magic (packet : OpenArmTelemetryPacketV1) (seq : UInt32) :
    (packet.publish seq).magic = telemetryMagic := rfl

@[simp] theorem publish_observationState (packet : OpenArmTelemetryPacketV1) (seq : UInt32) :
    (packet.publish seq).observationState = packet.observationState := rfl

/-! ## Filling in -/

/-- One pass through one of the loops over the joints. -/
def putJoint (toFloat : Double → UInt32) (p : OpenArmTelemetryPacketV1 × ℕ)
    (j : JointState Double × JointState Double) : OpenArmTelemetryPacketV1 × ℕ :=
  if h : p.2 < 16 then
    ({ p.1 with
      observationState := p.1.observationState.set p.2 (toFloat j.1.position)
      observationVelocity := p.1.observationVelocity.set p.2 (toFloat j.1.velocity)
      action := p.1.action.set p.2 (toFloat j.2.position) }, p.2 + 1)
  else p

/-- The loop over the joints of one part. Both vectors have the same length. -/
def putPart (toFloat : Double → UInt32) (p : OpenArmTelemetryPacketV1 × ℕ)
    (resp ref : List (JointState Double)) : OpenArmTelemetryPacketV1 × ℕ :=
  (resp.zip ref).foldl (putJoint toFloat) p

theorem putJoint_spec (toFloat : Double → UInt32) {p : OpenArmTelemetryPacketV1 × ℕ}
    (j : JointState Double × JointState Double) (hlt : p.2 < 16) :
    (putJoint toFloat p j).2 = p.2 + 1 ∧
      (putJoint toFloat p j).1.observationState[p.2]? = some (toFloat j.1.position) ∧
      ∀ k, k ≠ p.2 →
        (putJoint toFloat p j).1.observationState[k]? = p.1.observationState[k]? := by
  unfold putJoint
  rw [dif_pos hlt]
  refine ⟨rfl, by simp [hlt], fun k hk => ?_⟩
  exact Vector.getElem?_set_ne hlt hk.symm

/-- The next joints go to the next places, and the places before them stay. -/
theorem putJoints_spec (toFloat : Double → UInt32)
    (joints : List (JointState Double × JointState Double)) (p : OpenArmTelemetryPacketV1 × ℕ)
    (hroom : p.2 + joints.length ≤ 16) :
    (joints.foldl (putJoint toFloat) p).2 = p.2 + joints.length ∧
      (∀ k < p.2, (joints.foldl (putJoint toFloat) p).1.observationState[k]? =
        p.1.observationState[k]?) ∧
      ∀ i j, joints[i]? = some j →
        (joints.foldl (putJoint toFloat) p).1.observationState[p.2 + i]? =
          some (toFloat j.1.position) := by
  induction joints generalizing p with
  | nil => exact ⟨rfl, fun _ _ => rfl, fun i j hj => by simp at hj⟩
  | cons j joints ih =>
    rw [List.length_cons] at hroom
    obtain ⟨hfirst, hput, hstay⟩ := putJoint_spec toFloat j (show p.2 < 16 by omega)
    obtain ⟨hnext, hbefore, hjoints⟩ := ih (putJoint toFloat p j) (by omega)
    rw [hfirst] at hnext hbefore hjoints
    rw [List.foldl_cons]
    refine ⟨by rw [hnext, List.length_cons]; omega, fun k hk => ?_, fun i x hx => ?_⟩
    · rw [hbefore k (by omega), hstay k (by omega)]
    · cases i with
      | zero =>
        obtain rfl : j = x := by simpa using hx
        rw [Nat.add_zero, hbefore p.2 (by omega), hput]
      | succ i =>
        have hrest := hjoints i x (by simpa using hx)
        rw [Nat.add_right_comm] at hrest
        exact hrest

theorem putPart_spec (toFloat : Double → UInt32) (p : OpenArmTelemetryPacketV1 × ℕ) {n : ℕ}
    (resp ref : Vector (JointState Double) n) (hroom : p.2 + n ≤ 16) :
    (putPart toFloat p resp.toList ref.toList).2 = p.2 + n ∧
      (∀ k < p.2, (putPart toFloat p resp.toList ref.toList).1.observationState[k]? =
        p.1.observationState[k]?) ∧
      ∀ i (hi : i < n), (putPart toFloat p resp.toList ref.toList).1.observationState[p.2 + i]? =
        some (toFloat resp[i].position) := by
  have hlen : (resp.toList.zip ref.toList).length = n := by simp
  obtain ⟨hnext, hbefore, hjoints⟩ :=
    putJoints_spec toFloat (resp.toList.zip ref.toList) p (by omega)
  rw [hlen] at hnext
  refine ⟨hnext, hbefore, fun i hi => hjoints i (resp[i], ref[i]) ?_⟩
  simp [hi]

end OpenArmTelemetryPacketV1

/-! ## The robot -/

/-- What the locks of one `RobotSystemState` guard. -/
structure Robot where
  armResponse : Vector (JointState Double) 7
  handResponse : Vector (JointState Double) 1
  armReference : Vector (JointState Double) 7
  handReference : Vector (JointState Double) 1
  deriving DecidableEq

inductive Field
  | armResponse
  | handResponse
  | armReference
  | handReference
  deriving DecidableEq

namespace Robot

def new : Robot :=
  ⟨.replicate 7 ⟨0, 0, 0⟩, .replicate 1 ⟨0, 0, 0⟩, .replicate 7 ⟨0, 0, 0⟩, .replicate 1 ⟨0, 0, 0⟩⟩

/-- One field comes from `r`. -/
def take (s r : Robot) : Field → Robot
  | .armResponse => { s with armResponse := r.armResponse }
  | .handResponse => { s with handResponse := r.handResponse }
  | .armReference => { s with armReference := r.armReference }
  | .handReference => { s with handReference := r.handReference }

theorem take_armResponse (s r : Robot) (f : Field) :
    (s.take r f).armResponse = if f = .armResponse then r.armResponse else s.armResponse := by
  cases f <;> rfl

end Robot

section Fill

variable (toFloat : Double → UInt32) (seen : ArmSide → Robot)

open OpenArmTelemetryPacketV1

/-- The joints of an arm, and its gripper. -/
def putArm (p : OpenArmTelemetryPacketV1 × ℕ) (a : ArmSide) : OpenArmTelemetryPacketV1 × ℕ :=
  putPart toFloat
    (putPart toFloat p (seen a).armResponse.toList (seen a).armReference.toList)
    (seen a).handResponse.toList (seen a).handReference.toList

def fillJoints (pkt : OpenArmTelemetryPacketV1) : OpenArmTelemetryPacketV1 :=
  (putArm toFloat seen (putArm toFloat seen (pkt, 0) .right) .left).1

theorem putArm_spec (p : OpenArmTelemetryPacketV1 × ℕ) (a : ArmSide) (hroom : p.2 + 8 ≤ 16) :
    (putArm toFloat seen p a).2 = p.2 + 8 ∧
      (∀ k < p.2, (putArm toFloat seen p a).1.observationState[k]? = p.1.observationState[k]?) ∧
      ∀ i (hi : i < 7), (putArm toFloat seen p a).1.observationState[p.2 + i]? =
        some (toFloat (seen a).armResponse[i].position) := by
  obtain ⟨harm, hbefore, hjoints⟩ := putPart_spec toFloat p (seen a).armResponse
    (seen a).armReference (by omega)
  obtain ⟨hhand, hbefore', -⟩ := putPart_spec toFloat
    (putPart toFloat p (seen a).armResponse.toList (seen a).armReference.toList)
    (seen a).handResponse (seen a).handReference (by omega)
  rw [harm] at hhand hbefore'
  refine ⟨hhand, fun k hk => ?_, fun i hi => ?_⟩
  · exact (hbefore' k (by omega)).trans (hbefore k hk)
  · exact (hbefore' _ (by omega)).trans (hjoints i hi)

/-- Where the joints of an arm are in a packet. -/
def armOffset : ArmSide → ℕ
  | .right => 0
  | .left => 8

theorem fillJoints_arm (pkt : OpenArmTelemetryPacketV1) (a : ArmSide) (i : ℕ) (hi : i < 7) :
    (fillJoints toFloat seen pkt).observationState[armOffset a + i]? =
      some (toFloat (seen a).armResponse[i].position) := by
  obtain ⟨hnext, -, hright⟩ := putArm_spec toFloat seen (pkt, 0) .right (by simp)
  obtain ⟨-, hbefore, hleft⟩ := putArm_spec toFloat seen (putArm toFloat seen (pkt, 0) .right) .left
    (by omega)
  rw [hnext] at hbefore hleft
  cases a with
  | right => exact (hbefore _ (by simp [armOffset]; omega)).trans (hright i hi)
  | left => exact hleft i hi

end Fill

end OpenArmTeleop.Telemetry
