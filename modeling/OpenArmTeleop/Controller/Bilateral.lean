import OpenArmTeleop.Controller.Cycle

/-!
# The cycle of two arms at one computer

`Control::bilateral_step` of `control.cpp`: an arm follows its references and feels neither its own
weight nor its friction.
-/

open Num OpenArmTeleop.Control

namespace OpenArmTeleop.Controller

variable [Rounding] (tanh : Double → Double) (wild : ℕ → Double)

namespace Control

variable (c : Control)

/-- The weight of the arm by the model of its role. A null pointer reads anything. -/
def ownGravity (positions : List Double) : ℕ → Double :=
  match c.role with
  | .leader => c.dynamicsL.getGravity positions
  | .follower => (c.dynamicsF.map fun dynamics => dynamics.getGravity positions).getD wild

/-- An unchecked read of a motor. -/
def readMotor (motors : List (MotorState Double)) (i : ℕ) : MotorState Double :=
  motors[i]?.getD ⟨wild i, wild i, wild i⟩

/-- The references of the first joints with other torques. -/
def setEfforts (refs : List (JointState Double)) (dof : ℕ) (effort : ℕ → Double) :
    List (JointState Double) :=
  refs.mapIdx fun i ref => if i < dof then { ref with effort := effort i } else ref

def bilateralStep (robot : RobotSystemState Double) (motors : Motors Double) : Cycle :=
  let arm := OpenArmJointConverter.motorToJoint motors.arm
  let gripper := OpenArmGripperJointConverter.motorToJoint motors.gripper
  let robot := respond robot arm gripper
  let armDof := robot.armState.response.length
  let gripperDof := robot.handState.response.length
  let gravity := c.ownGravity wild (arm.map (·.position))
  match c.computeAllFriction tanh wild (arm.map (·.velocity)) (gripper.map (·.velocity)) with
  | .error e => ⟨robot, [], .error e⟩
  | .ok friction =>
    let armRefs := setEfforts robot.armState.reference armDof fun i =>
      gravity i + readList wild friction i
    let gripperRefs := setEfforts robot.handState.reference gripperDof fun i =>
      readList wild friction (i + armDof)
    let motorArm := OpenArmJointConverter.jointToMotor armRefs
    let motorGripper := OpenArmGripperJointConverter.jointToMotor gripperRefs
    let armCmds := (List.range armDof).map fun i =>
      let m := readMotor wild motorArm i
      ⟨readList wild c.kp i, readList wild c.kd i, m.position, m.velocity, m.effort⟩
    let gripperCmds := (List.range gripperDof).map fun i =>
      let m := readMotor wild motorGripper i
      ⟨readList wild c.kp (i + armDof), readList wild c.kd (i + armDof), m.position, m.velocity,
        m.effort⟩
    ⟨robot, [.arm armCmds, .gripper gripperCmds], .ok ()⟩

end Control

/-! ## What goes to the motors -/

/-- Where a motor is to go, and how fast. -/
def MITParam.motion (cmd : MITParam Double) : Double × Double := (cmd.q, cmd.dq)

def MotorState.motion (m : MotorState Double) : Double × Double := (m.position, m.velocity)

section Motion

variable {tanh wild} {c : Control} {robot : RobotSystemState Double} {motors : Motors Double}

/-- The motors are sent to the references, or nothing is sent. -/
def SendsReferences (robot : RobotSystemState Double) (sent : List Sent) : Prop :=
  sent = [] ∨ ∃ arm gripper, sent = [.arm arm, .gripper gripper] ∧
    arm.map MITParam.motion =
      (OpenArmJointConverter.jointToMotor robot.armState.reference).map MotorState.motion ∧
    gripper.map MITParam.motion =
      (OpenArmGripperJointConverter.jointToMotor robot.handState.reference).map MotorState.motion

omit [Rounding] in
/-- The commands that are read off some motors one by one. -/
theorem map_range_readMotor (motors : List (MotorState Double)) {n : ℕ} (hn : motors.length = n)
    (cmd : ℕ → MotorState Double → MITParam Double) (hcmd : ∀ i m, (cmd i m).motion = m.motion) :
    ((List.range n).map fun i => cmd i (Control.readMotor wild motors i)).map MITParam.motion =
      motors.map MotorState.motion := by
  subst hn
  refine List.ext_getElem (by simp) fun i hi hi' => ?_
  simp only [List.length_map] at hi'
  simp [hcmd, Control.readMotor, hi']

omit [Rounding] in
theorem length_setEfforts (refs : List (JointState Double)) (dof : ℕ) (effort : ℕ → Double) :
    (Control.setEfforts refs dof effort).length = refs.length :=
  List.length_mapIdx

omit [Rounding] in
/-- Other torques are no other motion. -/
theorem map_setEfforts {α : Type} (f : JointState Double → α)
    (hf : ∀ j effort, f { j with effort := effort } = f j) (refs : List (JointState Double)) (dof : ℕ)
    (effort : ℕ → Double) : (Control.setEfforts refs dof effort).map f = refs.map f := by
  refine List.ext_getElem (by simp [length_setEfforts]) fun i hi hi' => ?_
  simp only [Control.setEfforts, List.getElem_map, List.getElem_mapIdx]
  split
  · exact hf _ _
  · rfl

theorem bilateralStep_sends (harm : robot.armState.reference.length = motors.arm.length)
    (hhand : robot.handState.reference.length = motors.gripper.length) :
    SendsReferences robot (c.bilateralStep tanh wild robot motors).sent := by
  unfold Control.bilateralStep
  dsimp only
  split
  · exact .inl rfl
  · refine .inr ⟨_, _, rfl, ?_, ?_⟩
    · rw [map_range_readMotor _ (by simp [respond, OpenArmJointConverter.jointToMotor,
        OpenArmJointConverter.motorToJoint, length_setEfforts, harm]) (fun i m => ⟨_, _, _, _, _⟩)
        fun _ _ => rfl]
      simp only [OpenArmJointConverter.jointToMotor, List.map_map]
      exact map_setEfforts _ (fun _ _ => rfl) _ _ _
    · rw [map_range_readMotor _ (by simp [respond, OpenArmGripperJointConverter.jointToMotor,
        OpenArmGripperJointConverter.motorToJoint, length_setEfforts, hhand])
        (fun i m => ⟨_, _, _, _, _⟩) fun _ _ => rfl]
      simp only [OpenArmGripperJointConverter.jointToMotor, List.map_map]
      exact map_setEfforts _ (fun _ _ => rfl) _ _ _

theorem unilateralStep_sends (hrole : c.role = .follower) :
    SendsReferences robot (c.unilateralStep tanh wild robot motors).sent := by
  unfold Control.unilateralStep
  dsimp only
  rw [hrole]
  refine .inr ⟨_, _, rfl, ?_, ?_⟩
  · refine List.ext_getElem (by simp [respond]) fun i hi hi' => ?_
    simp only [respond, List.getElem_map, List.getElem_mapIdx]
    rfl
  · refine List.ext_getElem (by simp [respond]) fun i hi hi' => ?_
    simp only [respond, List.getElem_map, List.getElem_mapIdx]
    rfl

/-- A leader that no follower pulls on has torques only. -/
theorem unilateralStep_free (hrole : c.role = .leader) :
    (c.unilateralStep tanh wild robot motors).sent = [] ∨
      ∃ arm gripper, (c.unilateralStep tanh wild robot motors).sent = [.arm arm, .gripper gripper] ∧
        ∀ cmd ∈ arm ++ gripper, cmd.kp = 0 ∧ cmd.kd = 0 := by
  unfold Control.unilateralStep
  dsimp only
  rw [hrole]
  dsimp only
  unfold Control.leaderStep
  dsimp only
  split
  · exact .inl rfl
  · refine .inr ⟨_, _, rfl, fun cmd hcmd => ?_⟩
    rcases List.mem_append.mp hcmd with hcmd | hcmd
    all_goals
      obtain ⟨m, -, rfl⟩ := List.mem_map.mp hcmd
      exact ⟨rfl, rfl⟩

end Motion

end OpenArmTeleop.Controller
