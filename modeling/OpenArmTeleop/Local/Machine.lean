import OpenArmTeleop.Controller.Bilateral
import OpenArmTeleop.Lib.Run

/-!
# Two arms at one computer

`openarm_bilateral_control.cpp` and `openarm_unilateral_control.cpp`: a thread for each arm, and one
that hands the joints of each arm to the other one as references. The programs differ in the cycle
of an arm. One action is one access to what the threads share.
-/

open Num Run OpenArmTeleop.Control OpenArmTeleop.Controller

namespace OpenArmTeleop.Local

inductive Side
  | leader
  | follower
  deriving DecidableEq

def Side.other : Side → Side
  | .leader => .follower
  | .follower => .leader

inductive Part
  | arm
  | hand
  deriving DecidableEq

inductive Program
  | bilateral
  | unilateral
  deriving DecidableEq

/-- What the motors of an arm show. Both arms have the same numbers of motors. -/
structure Readings (armNum handNum : ℕ) where
  arm : Vector (MotorState Double) armNum
  hand : Vector (MotorState Double) handNum
  deriving DecidableEq

structure Config where
  program : Program
  armNum : ℕ
  handNum : ℕ
  control : Side → Controller.Control
  /-- What the motors showed at the end of `AdjustPosition`, which reads no torque. -/
  adjusted : Side → Readings armNum handNum
  tanh : Double → Double
  wild : ℕ → Double

namespace Readings

variable {armNum handNum : ℕ} (r : Readings armNum handNum)

def part : Part → List (MotorState Double)
  | .arm => r.arm.toList
  | .hand => r.hand.toList

def noEffort : Part → List (MotorState Double) := fun p =>
  (r.part p).map fun m => { m with effort := 0 }

end Readings

section Convert

variable [Rounding]

def motorToJoint : Part → List (MotorState Double) → List (JointState Double)
  | .arm => OpenArmJointConverter.motorToJoint
  | .hand => OpenArmGripperJointConverter.motorToJoint

def jointToMotor : Part → List (JointState Double) → List (MotorState Double)
  | .arm => OpenArmJointConverter.jointToMotor
  | .hand => OpenArmGripperJointConverter.jointToMotor

end Convert

/-! ## The threads -/

/-- One access of a cycle to the state of its arm, or the sending at its end. -/
inductive Access
  | setResponse (p : Part)
  | getReference (p : Part)
  | send
  deriving DecidableEq

/-- One access of `AdminThread`. -/
inductive Handover
  | getResponse (s : Side) (p : Part)
  | setReference (s : Side) (p : Part)
  deriving DecidableEq

/-- Where a `PeriodicTimerThread` is: not started, at the test of `is_running_`, in `on_timer` with
what is left to do, or at its end. -/
inductive Place (π : Type)
  | idle
  | head
  | inside (rest : List π)
  | ended
  deriving DecidableEq

inductive Thread
  | control (s : Side)
  | admin
  deriving DecidableEq

/-- What `main` does once both arms are adjusted. -/
inductive Op
  | startThread (t : Thread)
  | wait
  | stopRunning (t : Thread)
  | join (t : Thread)
  | disableAll (s : Side)
  deriving DecidableEq

def mainOps : List Op :=
  [.startThread (.control .leader), .startThread (.control .follower), .startThread .admin, .wait,
    .stopRunning (.control .leader), .join (.control .leader), .stopRunning (.control .follower),
    .join (.control .follower), .stopRunning .admin, .join .admin, .disableAll .leader,
    .disableAll .follower]

def handovers : List Handover :=
  [.getResponse .leader .arm, .getResponse .follower .arm, .getResponse .leader .hand,
    .getResponse .follower .hand, .setReference .leader .arm, .setReference .leader .hand,
    .setReference .follower .arm, .setReference .follower .hand]

structure ArmThread (cfg : Config) where
  place : Place Access
  motors : Readings cfg.armNum cfg.handNum
  ref : Part → List (JointState Double)

structure AdminThread where
  place : Place Handover
  resp : Side → Part → List (JointState Double)

structure State (cfg : Config) where
  robot : Side → Part → RobotState Double
  isRunning : Thread → Bool
  keepRunning : Bool
  arm : Side → ArmThread cfg
  admin : AdminThread
  main : List Op

/-- The accesses to shared state, and what goes to the motors. -/
inductive Event
  | setResponse (s : Side) (p : Part) (motors : List (MotorState Double))
  | getReference (s : Side) (p : Part) (joints : List (JointState Double))
  | sent (s : Side) (cmds : List Sent)
  | getResponse (s : Side) (p : Part) (joints : List (JointState Double))
  | setReference (s : Side) (p : Part) (joints : List (JointState Double))
  | disabled (s : Side)
  deriving DecidableEq

inductive Action (cfg : Config)
  | main
  | sigint
  | control (s : Side) (motors : Readings cfg.armNum cfg.handNum)
  | admin

variable [Rounding] (cfg : Config)

namespace Config

/-- The pose of an arm as `AdjustPosition` leaves it, in both roles. -/
def settled (s : Side) (p : Part) : List (JointState Double) :=
  motorToJoint p ((cfg.adjusted s).noEffort p)

/-- The cycle looks at the references. -/
def Follows (s : Side) : Prop := cfg.program = .bilateral ∨ (cfg.control s).role = .follower

instance (s : Side) : Decidable (cfg.Follows s) := inferInstanceAs (Decidable (_ ∨ _))

/-- The cycle of an arm. `unilateral_step` of a leader measures, and then `leader_step` does. -/
def accesses (s : Side) : List Access :=
  if cfg.Follows s then
    [.setResponse .arm, .setResponse .hand, .getReference .arm, .getReference .hand, .send]
  else
    [.setResponse .arm, .setResponse .hand, .setResponse .arm, .setResponse .hand, .send]

/-- What a cycle sends, by the references that it has read. -/
def commands (s : Side) (n : ArmThread cfg) : List Sent :=
  let robot : RobotSystemState Double := ⟨⟨[], n.ref .arm⟩, ⟨[], n.ref .hand⟩⟩
  let motors : Motors Double := ⟨n.motors.part .arm, n.motors.part .hand⟩
  match cfg.program with
  | .bilateral => ((cfg.control s).bilateralStep cfg.tanh cfg.wild robot motors).sent
  | .unilateral => ((cfg.control s).unilateralStep cfg.tanh cfg.wild robot motors).sent

end Config

def State.start : State cfg where
  robot s p := ⟨cfg.settled s p, cfg.settled s p⟩
  isRunning _ := false
  keepRunning := true
  arm s := ⟨.idle, cfg.adjusted s, fun _ => []⟩
  admin := ⟨.idle, fun _ _ => []⟩
  main := mainOps

variable {cfg}

namespace State

variable (st : State cfg)

def ended : Thread → Bool
  | .control s => decide ((st.arm s).place = .ended)
  | .admin => decide (st.admin.place = .ended)

def setArm (s : Side) (n : ArmThread cfg) : State cfg :=
  { st with arm := Function.update st.arm s n }

def setRobot (s : Side) (p : Part) (r : RobotState Double) : State cfg :=
  { st with robot := Function.update st.robot s (Function.update (st.robot s) p r) }

def startThread (t : Thread) : State cfg :=
  let st := { st with isRunning := Function.update st.isRunning t true }
  match t with
  | .control s => st.setArm s { st.arm s with place := .head }
  | .admin => { st with admin := { st.admin with place := .head } }

def stepMain : Option (State cfg × Option Event) :=
  match st.main with
  | [] => none
  | op :: rest =>
    let next := { st with main := rest }
    match op with
    | .startThread t => some (next.startThread t, none)
    | .wait => if st.keepRunning then some (st, none) else some (next, none)
    | .stopRunning t =>
      some ({ next with isRunning := Function.update st.isRunning t false }, none)
    | .join t => if st.ended t then some (next, none) else none
    | .disableAll s => some (next, some (.disabled s))

def stepControl (s : Side) (motors : Readings cfg.armNum cfg.handNum) :
    Option (State cfg × Option Event) :=
  let n := st.arm s
  match n.place with
  | .idle | .ended => none
  | .head =>
    if st.isRunning (.control s) then
      some (st.setArm s { n with place := .inside (cfg.accesses s), motors := motors }, none)
    else some (st.setArm s { n with place := .ended }, none)
  | .inside [] => some (st.setArm s { n with place := .head }, none)
  | .inside (access :: rest) =>
    let next := { n with place := .inside rest }
    match access with
    | .setResponse p =>
      let measured := n.motors.part p
      some ((st.setRobot s p { st.robot s p with response := motorToJoint p measured }).setArm s
        next, some (.setResponse s p measured))
    | .getReference p =>
      let reference := (st.robot s p).reference
      some (st.setArm s { next with ref := Function.update n.ref p reference },
        some (.getReference s p reference))
    | .send => some (st.setArm s next, some (.sent s (cfg.commands s n)))

def stepAdmin : Option (State cfg × Option Event) :=
  match st.admin.place with
  | .idle | .ended => none
  | .head =>
    let place := if st.isRunning .admin then .inside handovers else .ended
    some ({ st with admin := { st.admin with place := place } }, none)
  | .inside [] => some ({ st with admin := { st.admin with place := .head } }, none)
  | .inside (access :: rest) =>
    match access with
    | .getResponse s p =>
      let response := (st.robot s p).response
      let resp := Function.update st.admin.resp s (Function.update (st.admin.resp s) p response)
      some ({ st with admin := ⟨.inside rest, resp⟩ }, some (.getResponse s p response))
    | .setReference s p =>
      let response := st.admin.resp s.other p
      let next := { st with admin := { st.admin with place := .inside rest } }
      some (next.setRobot s p { st.robot s p with reference := response },
        some (.setReference s p response))

end State

def step (st : State cfg) : Action cfg → Option (State cfg × Option Event)
  | .main => st.stepMain
  | .sigint => some ({ st with keepRunning := false }, none)
  | .control s motors => st.stepControl s motors
  | .admin => st.stepAdmin

variable (cfg) in
def machine : Machine (State cfg) (Action cfg) Event where
  init := .start cfg
  step := step

end OpenArmTeleop.Local
