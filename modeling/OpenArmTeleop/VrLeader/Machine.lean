import OpenArmTeleop.Lib.Run
import OpenArmTeleop.Net.Codec

/-!
# The VR leader

`wifi_vr_bimanual_leader.cpp`: the control loop and the two receivers. One action is one access to
what they share, at a time of the steady clock.
-/

open Num Run OpenArmTeleop.Net

namespace OpenArmTeleop.VrLeader

/-! ## Vectors -/

structure Vec3 where
  x : Double
  y : Double
  z : Double
  deriving DecidableEq

structure Matrix3 where
  x : Vec3
  y : Vec3
  z : Vec3

abbrev Joints := Vector Double 7

namespace Vec3

instance : Zero Vec3 := ⟨⟨0, 0, 0⟩⟩

section Arithmetic

variable [Rounding]

instance : Add Vec3 := ⟨fun a b => ⟨a.x + b.x, a.y + b.y, a.z + b.z⟩⟩

/-- The product of the components. -/
def times (a b : Vec3) : Vec3 := ⟨a.x * b.x, a.y * b.y, a.z * b.z⟩

def scale (a : Vec3) (k : Double) : Vec3 := ⟨a.x * k, a.y * k, a.z * k⟩

def dot (a b : Vec3) : Double := a.x * b.x + a.y * b.y + a.z * b.z

end Arithmetic

end Vec3

def Matrix3.apply [Rounding] (m : Matrix3) (v : Vec3) : Vec3 := ⟨m.x.dot v, m.y.dot v, m.z.dot v⟩

/-! ## Datagrams -/

/-- The floats of one arm, as 32-bit patterns. -/
structure VrArmPacket where
  deltaPosHmd : Vector UInt32 3
  grip : UInt32
  trigger : UInt32

structure VrRelativeTeleopPacketV2 where
  magic : UInt32
  arm : ArmSide → VrArmPacket

def vrMagic : UInt32 := 0x3252564F

structure OpenArmTelemetryPacketV1 where
  magic : UInt32
  observationState : Vector UInt32 16

def telemetryMagic : UInt32 := 0x5054414F

/-! ## The state -/

structure Config where
  positionScaleXyz : Vec3 := ⟨1, 1, 1⟩
  maxDeltaM : Double := 0.30
  translationMatrix : ArmSide → Matrix3 := fun _ => ⟨⟨1, 0, 0⟩, ⟨0, 1, 0⟩, ⟨0, 0, 1⟩⟩
  gripperMinLimit : Double := 0.0
  gripperMaxLimit : Double := 0.044
  staleTimeoutMs : ℤ := 100
  anchorResetTimeoutMs : ℤ := 300
  rateLimited : Bool := true
  maxStepRad : ArmSide → Vector Double 8 :=
    fun _ => #v[0.035, 0.035, 0.035, 0.035, 0.035, 0.025, 0.035, 0.02]
  dryRun : Bool := false
  maxTestSec : Double := 0.0

/-- The forward kinematics of the arms, and the norm of a vector. -/
structure Library where
  fk : ArmSide → Joints → Vec3
  norm : Vec3 → Double

structure VrArm where
  deltaPosRobot : Vec3
  grip : Double
  trigger : Double

structure VrState where
  estop : Bool
  recenter : Bool
  arm : ArmSide → VrArm

structure ArmAnchor where
  active : Bool
  robotEePos : Vec3

/-- The next thing the control loop does. -/
inductive Pc
  | head
  | snapshotVr
  | snapshotTel
  | process (a : ArmSide)
  | send (a : ArmSide)
  | tail
  | exited
  deriving DecidableEq

def Pc.afterProcess : ArmSide → Pc
  | .right => .process .left
  | .left => .send .right

def Pc.afterSend : ArmSide → Pc
  | .right => .send .left
  | .left => .tail

structure Loop where
  pc : Pc
  vrPkt : VrState
  fb : ArmSide → Joints
  stale : Bool
  ikSuccess : ArmSide → Bool

structure State where
  nowNs : ℕ
  vr : VrState
  lastVrNs : ℕ
  robotQ : ArmSide → Joints
  lastTelNs : ℕ
  telConnected : Bool
  targetQ : ArmSide → Joints
  targetGrip : ArmSide → Double
  anchor : ArmSide → ArmAnchor
  seq : UInt32
  keepRunning : Bool
  loop : Loop

/-- What a cycle works with. -/
structure Cycle where
  nowNs : ℕ
  connected : Bool
  stale : Bool
  estop : Bool
  grip : ArmSide → Double
  fb : ArmSide → Joints

/-- One call of the solver, for an arm whose grip is held. -/
structure Attempt where
  captured : Bool
  measured : Vec3
  desired : Vec3
  solved : Bool
  qIk : Joints

inductive Event
  | vr (timeNs : ℕ) (grip : ArmSide → Double)
  | telemetry (timeNs : ℕ)
  | cycle (c : Cycle)
  | attempt (a : ArmSide) (m : Attempt)
  /-- The packet as it goes to the encoder. -/
  | sent (a : ArmSide) (timeNs : ℕ) (pkt : TeleopPacket Double)

/-- What the control loop reads from outside: the clock, and the result of the solver. -/
structure Env where
  timeNs : ℕ
  solved : Bool
  q : Joints

inductive Action
  | vr (timeNs : ℕ) (p : VrRelativeTeleopPacketV2)
  | telemetry (timeNs : ℕ) (p : OpenArmTelemetryPacketV1)
  | sigint
  | loop (env : Env)

def zeroJoints : Joints := .replicate 7 0

def State.start : State :=
  let vr : VrState := ⟨false, false, fun _ => ⟨0, 0, 0⟩⟩
  { nowNs := 0
    vr := vr
    lastVrNs := 0
    robotQ := fun _ => zeroJoints
    lastTelNs := 0
    telConnected := false
    targetQ := fun _ => zeroJoints
    targetGrip := fun _ => 0
    anchor := fun _ => ⟨false, 0⟩
    seq := 0
    keepRunning := true
    loop := ⟨.head, vr, fun _ => zeroJoints, false, fun _ => false⟩ }

def State.goto (s : State) (pc : Pc) : State := { s with loop := { s.loop with pc := pc } }

section Machine

variable [Rounding]

/-! ## The receivers -/

def fillArm (cfg : Config) (a : ArmSide) (p : VrArmPacket) : VrArm where
  deltaPosRobot :=
    (cfg.translationMatrix a).apply (cfg.positionScaleXyz.times
      ⟨.ofFloat p.deltaPosHmd[0], .ofFloat p.deltaPosHmd[1], .ofFloat p.deltaPosHmd[2]⟩)
  grip := .ofFloat p.grip
  trigger := .ofFloat p.trigger

def receiveVr (cfg : Config) (s : State) (timeNs : ℕ) (p : VrRelativeTeleopPacketV2) :
    State × Option Event :=
  if p.magic = vrMagic then
    let arm := fun a => fillArm cfg a (p.arm a)
    ({ s with vr := ⟨false, false, arm⟩, lastVrNs := timeNs }, some (.vr timeNs fun a => (arm a).grip))
  else (s, none)

/-- The joints of the right arm, its gripper, and the left arm. -/
def observed (p : OpenArmTelemetryPacketV1) : ArmSide → Joints
  | .right => .ofFn fun i => .ofFloat p.observationState[i]
  | .left => .ofFn fun i => .ofFloat p.observationState[i.val + 8]

def receiveTelemetry (s : State) (timeNs : ℕ) (p : OpenArmTelemetryPacketV1) :
    State × Option Event :=
  if p.magic = telemetryMagic then
    ({ s with robotQ := observed p, lastTelNs := timeNs, telConnected := true },
      some (.telemetry timeNs))
  else (s, none)

/-! ## One arm -/

def gripTarget (cfg : Config) (trigger : Double) : Double :=
  cfg.gripperMinLimit + trigger * (cfg.gripperMaxLimit - cfg.gripperMinLimit)

def clampDelta (cfg : Config) (lib : Library) (delta : Vec3) : Vec3 :=
  if cfg.maxDeltaM < lib.norm delta then delta.scale (cfg.maxDeltaM / lib.norm delta) else delta

def limitStep (rateLimited : Bool) (maxStep target qIk : Double) : Double :=
  let diff := qIk - target
  target + if rateLimited ∧ maxStep < diff.abs then (if 0 < diff then 1 else -1) * maxStep else diff

def limitTarget (cfg : Config) (a : ArmSide) (target qIk : Joints) : Joints :=
  .ofFn fun i => limitStep cfg.rateLimited (cfg.maxStepRad a)[i] target[i] qIk[i]

namespace State

def held (s : State) (a : ArmSide) : Bool := decide ((0.5 : Double) < (s.loop.vrPkt.arm a).grip)

/-- The grip branch of `process_arm_logic`. -/
def follow (cfg : Config) (lib : Library) (s : State) (a : ArmSide) (solved : Bool) (qIk : Joints) :
    State × Option Event :=
  let measured := lib.fk a (s.loop.fb a)
  let captured := !(s.anchor a).active || s.loop.vrPkt.recenter
  let anchor := if captured then ⟨true, measured⟩ else s.anchor a
  let delta := clampDelta cfg lib (s.loop.vrPkt.arm a).deltaPosRobot
  let s := { s with anchor := Function.update s.anchor a anchor }
  (if solved then
    { s with
      targetQ := Function.update s.targetQ a (limitTarget cfg a (s.targetQ a) qIk)
      loop := { s.loop with ikSuccess := Function.update s.loop.ikSuccess a true } }
  else s, some (.attempt a ⟨captured, measured, anchor.robotEePos + delta, solved, qIk⟩))

def release (s : State) (a : ArmSide) (available : Bool) : State :=
  { s with
    anchor := Function.update s.anchor a { s.anchor a with active := false }
    targetQ := if available then Function.update s.targetQ a (s.loop.fb a) else s.targetQ }

/-- `process_arm_logic`. -/
def process (cfg : Config) (lib : Library) (s : State) (a : ArmSide) (solved : Bool)
    (qIk : Joints) : State × Option Event :=
  if s.loop.stale then
    ({ s with loop := { s.loop with ikSuccess := Function.update s.loop.ikSuccess a false } }, none)
  else
    let grip := gripTarget cfg (s.loop.vrPkt.arm a).trigger
    let s := { s with targetGrip := Function.update s.targetGrip a grip }
    let available := s.telConnected || cfg.dryRun
    if s.held a && available then s.follow cfg lib a solved qIk
    else (s.release a available, none)

/-- `send_pkt`, up to the encoder. -/
def sendPkt (cfg : Config) (s : State) (a : ArmSide) : TeleopPacket Double :=
  let enabled := s.held a && s.telConnected && !s.loop.vrPkt.estop && !s.loop.stale
  let enabled := if cfg.dryRun then false else enabled
  let hasNan := (s.targetQ a).any Double.isNan
  { TeleopPacket.zero with
    magic := TeleopPacket.teleopMagic
    version := TeleopPacket.teleopVersion
    packetSize := UInt16.ofNat TeleopPacket.size
    seq := s.seq
    armSide := a.toUInt8
    mode := ControlMode.unilateral.toUInt8
    enable := if hasNan then 0 else if enabled then 1 else 0
    armDof := 7
    handDof := 1
    armPos := .ofFn fun i => if h : i.val < 7 then (s.targetQ a)[i.val] else 0
    handPos := (Vector.replicate 4 0).set 0 (s.targetGrip a) }

end State

/-! ## The control loop -/

def ageMs (nowNs sinceNs : ℕ) : ℤ := ((nowNs - sinceNs) / 1000000 : ℕ)

def snapshotTel (cfg : Config) (s : State) (nowNs : ℕ) : State :=
  let age := ageMs nowNs s.lastTelNs
  let reset := s.telConnected && decide (cfg.anchorResetTimeoutMs < age)
  { s with
    anchor := fun a => if reset then { s.anchor a with active := false } else s.anchor a
    loop := { s.loop with
      fb := s.robotQ
      stale := s.telConnected && decide (cfg.staleTimeoutMs < age)
      ikSuccess := fun _ => false } }

def State.cycle (s : State) (nowNs : ℕ) : Cycle :=
  ⟨nowNs, s.telConnected, s.loop.stale, s.loop.vrPkt.estop, fun a => (s.loop.vrPkt.arm a).grip,
    s.loop.fb⟩

def loopStep (cfg : Config) (lib : Library) (s : State) (env : Env) : State × Option Event :=
  match s.loop.pc with
  | .head => (s.goto (if s.keepRunning then .snapshotVr else .exited), none)
  | .snapshotVr => ({ s with loop := { s.loop with vrPkt := s.vr } }.goto .snapshotTel, none)
  | .snapshotTel =>
    let s := snapshotTel cfg s env.timeNs
    (s.goto (.process .right), some (.cycle (s.cycle env.timeNs)))
  | .process a =>
    let (s, e) := s.process cfg lib a env.solved env.q
    (s.goto (.afterProcess a), e)
  | .send a =>
    (s.goto (.afterSend a), some (.sent a env.timeNs (s.sendPkt cfg a)))
  | .tail =>
    let expired := decide (0 < cfg.maxTestSec ∧ cfg.maxTestSec ≤ Double.ofUnsigned env.timeNs / 1e9)
    ({ s with seq := s.seq + 1, keepRunning := s.keepRunning && !expired }.goto .head, none)
  | .exited => (s, none)

/-! ## The whole program -/

/-- The clock never goes back. -/
def State.advance (s : State) (timeNs : ℕ) : Option State :=
  if timeNs < s.nowNs then none else some { s with nowNs := timeNs }

def step (cfg : Config) (lib : Library) (s : State) : Action → Option (State × Option Event)
  | .vr timeNs p => (s.advance timeNs).map fun s => receiveVr cfg s timeNs p
  | .telemetry timeNs p => (s.advance timeNs).map fun s => receiveTelemetry s timeNs p
  | .sigint => some ({ s with keepRunning := false }, none)
  | .loop env => (s.advance env.timeNs).map fun s => loopStep cfg lib s env

def machine (cfg : Config) (lib : Library) : Machine State Action Event where
  init := .start
  step s a := step cfg lib s a

end Machine

end OpenArmTeleop.VrLeader
