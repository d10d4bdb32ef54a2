import OpenArmTeleop.Control.Joint

/-!
# Control cycles

`Control::leader_step` and `Control::unilateral_step` of `control.cpp`, with the setters of what
they use. The model of the robot's dynamics, `std::tanh` and the memory behind a vector are
parameters.
-/

open Num OpenArmTeleop.Control

namespace OpenArmTeleop.Controller

/-! ## Motors and joints -/

structure MotorState (K : Type) where
  position : K
  velocity : K
  effort : K
  deriving DecidableEq

structure Motors (K : Type) where
  arm : List (MotorState K)
  gripper : List (MotorState K)

structure MITParam (K : Type) where
  kp : K
  kd : K
  q : K
  dq : K
  tau : K
  deriving DecidableEq

inductive Sent
  | arm (cmds : List (MITParam Double))
  | gripper (cmds : List (MITParam Double))
  deriving DecidableEq

/-- `std::out_of_range`, thrown by a checked read. -/
inductive OutOfRange
  | outOfRange
  deriving DecidableEq

/-- A checked read. -/
def at' (xs : List Double) (i : ℕ) : Except OutOfRange Double :=
  match xs[i]? with
  | some x => .ok x
  | none => .error .outOfRange

namespace OpenArmJointConverter

def motorToJoint (m : List (MotorState Double)) : List (JointState Double) :=
  m.map fun m => ⟨m.position, m.velocity, m.effort⟩

def jointToMotor (j : List (JointState Double)) : List (MotorState Double) :=
  j.map fun j => ⟨j.position, j.velocity, j.effort⟩

end OpenArmJointConverter

namespace OpenArmGripperJointConverter

variable [Rounding]

def motorToJoint (m : List (MotorState Double)) : List (JointState Double) :=
  m.map fun m => ⟨0.044 * (m.position / -1.0472), m.velocity, m.effort⟩

def motorPosition (jointPos : Double) : Double := jointPos / 0.044 * -1.0472

def jointToMotor (j : List (JointState Double)) : List (MotorState Double) :=
  j.map fun j => ⟨motorPosition j.position, j.velocity, j.effort⟩

end OpenArmGripperJointConverter

/-! ## The controller -/

inductive Role
  | leader
  | follower
  deriving DecidableEq

/-- Gravity and Coriolis torques of the arm joints at a pose. -/
structure Dynamics where
  getGravity : List Double → ℕ → Double
  getCoriolis : List Double → List Double → ℕ → Double

structure Control where
  role : Role
  dynamicsL : Dynamics
  dynamicsF : Option Dynamics
  kp : List Double
  kd : List Double
  fc : List Double
  k : List Double
  fv : List Double
  fo : List Double
  gscale : List Double
  goffset : List Double
  effortLimit : List Double
  bkp : List Double
  bkd : List Double
  bkf : List Double
  followerGravityFf : Bool
  followerGravityFfScale : Double

def nmotors : ℕ := 8

def effortLimitL : List Double := .replicate nmotors (.fin 20)

def effortLimitF : List Double := .replicate nmotors (.fin 20)

/-- The limits that `SetEffortLimits` stores. -/
def effortLimits (limits : List Double) : List Double :=
  (effortLimitL.set (nmotors - 1) (.fin 2)).mapIdx fun i default =>
    match limits[i]? with
    | some limit => if limit.isFinite && decide (0 < limit) then limit else default
    | none => default

inductive Setter
  | setParameter (kp kd fc k fv fo : List Double)
  | setGravityTrim (scale offset : List Double)
  | setEffortLimits (limits : List Double)
  | setBilateralGains (kp kd kf : List Double)
  | setFollowerGravityFeedforward (enabled : Bool) (scale : Double)
  deriving DecidableEq

namespace Control

def new (role : Role) (dynamicsL : Dynamics) (dynamicsF : Option Dynamics) : Control where
  role := role
  dynamicsL := dynamicsL
  dynamicsF := dynamicsF
  kp := []
  kd := []
  fc := []
  k := []
  fv := []
  fo := []
  gscale := []
  goffset := []
  effortLimit := effortLimits []
  bkp := []
  bkd := []
  bkf := []
  followerGravityFf := false
  followerGravityFfScale := 1

def set (c : Control) : Setter → Control
  | .setParameter kp kd fc k fv fo => { c with kp := kp, kd := kd, fc := fc, k := k, fv := fv, fo := fo }
  | .setGravityTrim scale offset => { c with gscale := scale, goffset := offset }
  | .setEffortLimits limits => { c with effortLimit := effortLimits limits }
  | .setBilateralGains kp kd kf => { c with bkp := kp, bkd := kd, bkf := kf }
  | .setFollowerGravityFeedforward enabled scale =>
    { c with followerGravityFf := enabled, followerGravityFfScale := scale }

def setAll (c : Control) (calls : List Setter) : Control := calls.foldl set c

def clampLeaderEffort (c : Control) (index : ℕ) (tau : Double) : Double :=
  if tau.isFinite then
    let lim := if index < c.effortLimit.length then c.effortLimit[index]?.getD 0 else 0
    stdMax (-lim) (stdMin lim tau)
  else 0

end Control

structure LeaderBilateralCommand where
  armPosRef : List Double
  handPosRef : List Double
  armTauF : List Double
  handTauF : List Double
  scale : Double
  deriving DecidableEq

/-- What a cycle does: the robot state it leaves, what it has sent, and how it ends. -/
structure Cycle where
  robot : RobotSystemState Double
  sent : List Sent
  result : Except OutOfRange Unit

def respond (robot : RobotSystemState Double) (arm hand : List (JointState Double)) :
    RobotSystemState Double :=
  { robot with
    armState := { robot.armState with response := arm }
    handState := { robot.handState with response := hand } }

section Cycles

variable [Rounding] (tanh : Double → Double) (wild : ℕ → Double)

/-- An unchecked read. -/
def readList (xs : List Double) (i : ℕ) : Double := xs[i]?.getD (wild i)

namespace Control

variable (c : Control)

def computeFriction (velocity : List Double) (index : ℕ) : Except OutOfRange Double := do
  let v := readList wild velocity index
  let fc ← at' c.fc index
  let k ← at' c.k index
  let fv ← at' c.fv index
  let fo ← at' c.fo index
  return 1 * fc * tanh (0.1 * k * v) + fv * v + fo

def computeAllFriction (armVelocity gripperVelocity : List Double) :
    Except OutOfRange (List Double) :=
  let velocity := armVelocity ++ gripperVelocity
  (List.range velocity.length).mapM (c.computeFriction tanh wild velocity)

def bilateral (cmd : Option LeaderBilateralCommand) (armDof gripperDof : ℕ) :
    Option LeaderBilateralCommand :=
  cmd.filter fun cmd =>
    decide (0 < cmd.scale) && decide (armDof + gripperDof ≤ c.bkp.length) &&
      decide (armDof + gripperDof ≤ c.bkd.length) && decide (armDof ≤ cmd.armPosRef.length) &&
      decide (gripperDof ≤ cmd.handPosRef.length)

def useKf (cmd : LeaderBilateralCommand) (armDof gripperDof : ℕ) : Bool :=
  decide (armDof + gripperDof ≤ c.bkf.length) && decide (armDof ≤ cmd.armTauF.length)

def armTorque (cmd : LeaderBilateralCommand) (armDof gripperDof : ℕ)
    (positions velocities : List Double) (i : ℕ) : Double :=
  let scale := stdMax 0 (stdMin 1 cmd.scale)
  let tau := readList wild c.bkp i * (readList wild cmd.armPosRef i - readList wild positions i) -
    readList wild c.bkd i * readList wild velocities i
  let tau :=
    if c.useKf cmd armDof gripperDof then
      tau - readList wild c.bkf i *
        (readList wild cmd.armTauF i - c.dynamicsL.getGravity cmd.armPosRef i)
    else tau
  tau * scale

/-- The bilateral torque of gripper joint `i`, in the space of its motor. -/
def gripperTorque (cmd : LeaderBilateralCommand) (armDof gripperDof : ℕ)
    (motor : MotorState Double) (i : ℕ) : Double :=
  let scale := stdMax 0 (stdMin 1 cmd.scale)
  let motorRef := OpenArmGripperJointConverter.motorPosition (readList wild cmd.handPosRef i)
  let tau := readList wild c.bkp (armDof + i) * (motorRef - motor.position) -
    readList wild c.bkd (armDof + i) * motor.velocity
  let tau :=
    if c.useKf cmd armDof gripperDof && decide (i < cmd.handTauF.length) then
      tau - readList wild c.bkf (armDof + i) * readList wild cmd.handTauF i
    else tau
  tau * scale

/-- `leader_step`, with no command for `nullptr`. -/
def leaderStep (robot : RobotSystemState Double) (motors : Motors Double)
    (cmd : Option LeaderBilateralCommand) : Cycle :=
  let arm := OpenArmJointConverter.motorToJoint motors.arm
  let gripper := OpenArmGripperJointConverter.motorToJoint motors.gripper
  let robot := respond robot arm gripper
  let armDof := robot.armState.response.length
  let gripperDof := robot.handState.response.length
  let armPositions := arm.map (·.position)
  let armVelocities := arm.map (·.velocity)
  let gripperVelocities := gripper.map (·.velocity)
  let cmd := c.bilateral cmd armDof gripperDof
  match c.computeAllFriction tanh wild armVelocities gripperVelocities with
  | .error e => ⟨robot, [], .error e⟩
  | .ok friction =>
    let armTorques := arm.mapIdx fun i joint =>
      let gs := c.gscale[i]?.getD 1
      let go := c.goffset[i]?.getD 0
      let gravCmd := c.dynamicsL.getGravity armPositions i * gs + go
      let tauB := (cmd.map fun cmd =>
        c.armTorque wild cmd armDof gripperDof armPositions armVelocities i).getD 0
      { joint with
        effort := c.clampLeaderEffort i (gravCmd + readList wild friction i * 0.3 +
          c.dynamicsL.getCoriolis armPositions armVelocities i * 0.1 + tauB) }
    let gripperTorques := (gripper.zip motors.gripper).mapIdx fun i (joint, motor) =>
      let tauB := (cmd.map fun cmd => c.gripperTorque wild cmd armDof gripperDof motor i).getD 0
      { joint with
        effort := c.clampLeaderEffort (armDof + i)
          (readList wild friction (armDof + i) * 0.3 + tauB) }
    let armCmds := (OpenArmJointConverter.jointToMotor armTorques).map fun m =>
      ⟨0, 0, 0, 0, m.effort⟩
    let gripperCmds := (OpenArmGripperJointConverter.jointToMotor gripperTorques).map fun m =>
      ⟨0, 0, 0, 0, m.effort⟩
    ⟨robot, [.arm armCmds, .gripper gripperCmds], .ok ()⟩

def feedforward (positions : List Double) (i : ℕ) : Double :=
  match c.dynamicsF with
  | some dynamics =>
    if c.followerGravityFf then
      let g := dynamics.getGravity positions i * c.followerGravityFfScale
      let g := if g.isFinite then g else 0
      let lim := if i < nmotors then effortLimitF[i]?.getD 0 else 0
      stdMax (-lim) (stdMin lim g)
    else 0
  | none => 0

def unilateralStep (robot : RobotSystemState Double) (motors : Motors Double) : Cycle :=
  let arm := OpenArmJointConverter.motorToJoint motors.arm
  let gripper := OpenArmGripperJointConverter.motorToJoint motors.gripper
  let robot := respond robot arm gripper
  let armDof := robot.armState.response.length
  match c.role with
  | .leader => c.leaderStep tanh wild robot motors none
  | .follower =>
    let armRefs := OpenArmJointConverter.jointToMotor robot.armState.reference
    let handRefs := OpenArmGripperJointConverter.jointToMotor robot.handState.reference
    let armCmds := armRefs.mapIdx fun i ref =>
      ⟨readList wild c.kp i, readList wild c.kd i, ref.position, ref.velocity,
        if i < armDof then c.feedforward (arm.map (·.position)) i else 0⟩
    let handCmds := handRefs.mapIdx fun i ref =>
      ⟨readList wild c.kp (i + armDof), readList wild c.kd (i + armDof), ref.position,
        ref.velocity, 0⟩
    ⟨robot, [.arm armCmds, .gripper handCmds], .ok ()⟩

end Control

end Cycles

end OpenArmTeleop.Controller
