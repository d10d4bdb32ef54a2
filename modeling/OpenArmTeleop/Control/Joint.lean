import OpenArmTeleop.Net.Packet

/-!
# Joint states

`robot_state.hpp`, and the poses that `Control::MoveToPose` commands on its way.
-/

open Num OpenArmTeleop.Net

namespace OpenArmTeleop.Control

structure JointState (K : Type) where
  position : K
  velocity : K
  effort : K
  deriving DecidableEq

structure RobotState (K : Type) where
  response : List (JointState K)
  reference : List (JointState K)
  deriving DecidableEq

structure RobotSystemState (K : Type) where
  armState : RobotState K
  handState : RobotState K
  deriving DecidableEq

/-- What is read from the seven motors of an arm and the one of its gripper, as joints. -/
structure Measured (K : Type) where
  arm : Vector (JointState K) 7
  hand : Vector (JointState K) 1
  deriving DecidableEq

/-- `MoveToPose` reads no torque. -/
def Measured.noEffort {K : Type} [Zero K] (m : Measured K) : Measured K where
  arm := m.arm.map fun j => { j with effort := 0 }
  hand := m.hand.map fun j => { j with effort := 0 }

/-- All joints at one position, and at rest. -/
def atRest {K : Type} [Zero K] (x : K) : Measured K :=
  ⟨.replicate 7 ⟨x, 0, 0⟩, .replicate 1 ⟨x, 0, 0⟩⟩

namespace RobotSystemState

variable {K : Type}

def new [Zero K] : RobotSystemState K :=
  let zero : JointState K := ⟨0, 0, 0⟩
  ⟨⟨.replicate 7 zero, .replicate 7 zero⟩, ⟨[zero], [zero]⟩⟩

def setAllReferences (r : RobotSystemState K) (arm hand : List (JointState K)) :
    RobotSystemState K :=
  { r with
    armState := { r.armState with reference := arm }
    handState := { r.handState with reference := hand } }

def setAllResponses (r : RobotSystemState K) (m : Measured K) : RobotSystemState K :=
  { r with
    armState := { r.armState with response := m.arm.toList }
    handState := { r.handState with response := m.hand.toList } }

/-- What `MoveToPose` leaves behind: the joints as they are, in both roles. -/
def settle [Zero K] (r : RobotSystemState K) (m : Measured K) : RobotSystemState K :=
  (r.setAllReferences m.noEffort.arm.toList m.noEffort.hand.toList).setAllResponses m.noEffort

def positions (joints : List (JointState K)) : List K := joints.map JointState.position

@[simp] theorem length_positions (joints : List (JointState K)) :
    (positions joints).length = joints.length :=
  List.length_map _

def referencePositions (r : RobotSystemState K) : List K :=
  positions r.armState.reference ++ positions r.handState.reference

@[simp] theorem referencePositions_setAllResponses (r : RobotSystemState K) (m : Measured K) :
    (r.setAllResponses m).referencePositions = r.referencePositions := rfl

@[simp] theorem referencePositions_settle [Zero K] (r : RobotSystemState K) (m : Measured K) :
    (r.settle m).referencePositions = positions m.arm.toList ++ positions m.hand.toList := by
  simp [settle, referencePositions, setAllReferences, setAllResponses, Measured.noEffort,
    positions, Vector.toList_map, Function.comp_def]

end RobotSystemState

/-! ## MoveToPose -/

structure Pose (K : Type) where
  arm : List K
  gripper : List K
  deriving DecidableEq

def nstep : ℕ := 220

section MoveToPose

variable {K : Type} [Zero K] [One K] [Add K] [Sub K] [Mul K] [Div K] [OfScientific K]

def pi : K := 3.14159265358979323846

/-- `INITIAL_POSITION`, seven joints of the arm and the gripper. -/
def initialPosition : List K := [0, 0, 0, pi / 5.0, 0, 0, 0, 0]

/-- The goal of a motion. Missing arm joints go home, a missing gripper opens. -/
def goalPose (target : Pose K) : Pose K where
  arm := (List.range 7).map fun i =>
    (target.arm[i]? <|> initialPosition[i]?).getD 0
  gripper := (List.range 1).map fun i => target.gripper[i]?.getD 0

def homePose : Pose K := ⟨initialPosition.take 7, [0]⟩

def posePart (values : List K) : ArmSide → Pose K
  | .right => ⟨values.take 7, (values.drop 7).take 1⟩
  | .left => ⟨(values.drop 8).take 7, (values.drop 15).take 1⟩

def interpolate (goal : Pose K) (now : Measured K) (alpha : K) : Pose K where
  arm := List.zipWith (fun g n => g * alpha + n * (1 - alpha)) goal.arm
    (RobotSystemState.positions now.arm.toList)
  gripper := List.zipWith (fun g n => g * alpha + n * (1 - alpha)) goal.gripper
    (RobotSystemState.positions now.hand.toList)

end MoveToPose

structure ArmMotion where
  goal : Pose Double
  start : Option (Measured Double)
  issued : ℕ
  returned : Bool

section Motion

variable [Rounding]

def ArmMotion.new (target : Pose Double) : ArmMotion where
  goal := goalPose target
  start := none
  issued := 0
  returned := false

def fraction (step : ℕ) : Double := Double.ofUnsigned (step + 1) / Double.ofUnsigned nstep

end Motion

/-- The last step of a motion commands its goal. -/
theorem interpolate_one {K : Type} [Field K] (target : Pose K) (now : Measured K) :
    interpolate (goalPose target) now 1 = goalPose target := by
  have hline : ∀ goal start : List K, goal.length = start.length →
      List.zipWith (fun g n => g * 1 + n * (1 - 1)) goal start = goal := by
    intro goal start hlen
    apply List.ext_getElem
    · simp [hlen]
    · intro i _ _
      simp
  have ha := hline (goalPose target).arm (RobotSystemState.positions now.arm.toList)
    (by simp [goalPose, RobotSystemState.positions])
  have hg := hline (goalPose target).gripper (RobotSystemState.positions now.hand.toList)
    (by simp [goalPose, RobotSystemState.positions])
  rw [interpolate, ha, hg]

end OpenArmTeleop.Control
