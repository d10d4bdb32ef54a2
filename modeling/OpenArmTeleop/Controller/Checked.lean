import OpenArmTeleop.Controller.Cycle

/-!
# The leader cycle with checked reads of its command

The same cycle, in which a read outside a vector of the command fails.
-/

open Num OpenArmTeleop.Net OpenArmTeleop.Control

namespace OpenArmTeleop.Controller

theorem mapM_zipIdx_eq {α β : Type} {f : α × ℕ → Option β} {g : ℕ → α → β} (xs : List α)
    (hf : ∀ i x, xs[i]? = some x → f (x, i) = some (g i x)) :
    xs.zipIdx.mapM f = some (xs.mapIdx g) := by
  rw [mapM_eq_pure (g := fun x => g x.2 x.1), List.mapIdx_eq_zipIdx_map]
  · rfl
  · rintro ⟨x, i⟩ hmem
    exact hf i x (List.mem_zipIdx_iff_getElem?.mp hmem)

theorem getElem?_eq_readList {xs : List Double} (wild : ℕ → Double) {i : ℕ} (hi : i < xs.length) :
    xs[i]? = some (readList wild xs i) := by
  rw [readList, List.getElem?_eq_getElem hi]
  rfl

namespace Control

section Command

variable (c : Control)

/-- `GetGravity` reads a position for each joint of its chain. -/
def getGravity? (joints : ℕ) (positions : List Double) : Option (ℕ → Double) := do
  let _ ← (List.range joints).mapM fun i => positions[i]?
  return c.dynamicsL.getGravity positions

/-- The gravity at the reference of the follower, where the cycle needs it. -/
def gravityRef? (joints : ℕ) (cmd : Option LeaderBilateralCommand) (armDof gripperDof : ℕ) :
    Option (ℕ → Double) :=
  match cmd.filter fun cmd => c.useKf cmd armDof gripperDof with
  | some cmd => c.getGravity? joints cmd.armPosRef
  | none => some fun _ => 0

/-- A bilateral torque, zero without a command. -/
def tauB? (cmd : Option LeaderBilateralCommand)
    (torque : LeaderBilateralCommand → Option Double) : Option Double :=
  match cmd with
  | some cmd => torque cmd
  | none => some 0

variable {c}

theorem tauB?_eq {cmd : Option LeaderBilateralCommand}
    {torque? : LeaderBilateralCommand → Option Double} {torque : LeaderBilateralCommand → Double}
    (h : ∀ used, cmd = some used → torque? used = some (torque used)) :
    tauB? cmd torque? = some ((cmd.map torque).getD 0) := by
  cases cmd with
  | none => rfl
  | some used => exact h used rfl

theorem gravityRef?_eq {joints armDof : ℕ} (gripperDof : ℕ) {cmd : Option LeaderBilateralCommand}
    (hpos : ∀ used, cmd = some used → armDof ≤ used.armPosRef.length) (hjoints : joints ≤ armDof) :
    ∃ gravityRef, c.gravityRef? joints cmd armDof gripperDof = some gravityRef ∧
      ∀ used, cmd = some used → c.useKf used armDof gripperDof = true →
        gravityRef = c.dynamicsL.getGravity used.armPosRef := by
  unfold gravityRef?
  cases hused : cmd.filter fun cmd => c.useKf cmd armDof gripperDof with
  | none =>
    refine ⟨_, rfl, fun used hcmd hkf => ?_⟩
    rw [hcmd, Option.filter_some, if_pos hkf] at hused
    cases hused
  | some used =>
    obtain ⟨hcmd, -⟩ := Option.filter_eq_some_iff.mp hused
    refine ⟨c.dynamicsL.getGravity used.armPosRef, ?_, fun other hother _ => ?_⟩
    · dsimp only
      rw [getGravity?, mapM_eq_pure (g := readList (fun _ => 0) used.armPosRef)]
      · rfl
      · intro i hi
        exact getElem?_eq_readList _ ((List.mem_range.mp hi).trans_le (hjoints.trans (hpos used hcmd)))
    · rw [Option.some.inj (hcmd.symm.trans hother)]

/-- A command is used only if its vectors have an entry for each joint. -/
theorem bilateral_length {cmd : Option LeaderBilateralCommand} {armDof gripperDof : ℕ}
    {used : LeaderBilateralCommand} (h : c.bilateral cmd armDof gripperDof = some used) :
    armDof ≤ used.armPosRef.length ∧ gripperDof ≤ used.handPosRef.length := by
  obtain ⟨-, hused⟩ := Option.filter_eq_some_iff.mp h
  simp only [Bool.and_eq_true, decide_eq_true_eq] at hused
  exact ⟨hused.1.2, hused.2⟩

end Command

section Cycles

variable [Rounding] (tanh : Double → Double) (wild : ℕ → Double) (c : Control)

def armTorque? (cmd : LeaderBilateralCommand) (armDof gripperDof : ℕ) (gravityRef : ℕ → Double)
    (positions velocities : List Double) (i : ℕ) : Option Double := do
  let scale := stdMax 0 (stdMin 1 cmd.scale)
  let ref ← cmd.armPosRef[i]?
  let tau := readList wild c.bkp i * (ref - readList wild positions i) -
    readList wild c.bkd i * readList wild velocities i
  let tau ←
    if c.useKf cmd armDof gripperDof then
      cmd.armTauF[i]?.map fun tauF => tau - readList wild c.bkf i * (tauF - gravityRef i)
    else some tau
  return tau * scale

def gripperTorque? (cmd : LeaderBilateralCommand) (armDof gripperDof : ℕ)
    (motor : MotorState Double) (i : ℕ) : Option Double := do
  let scale := stdMax 0 (stdMin 1 cmd.scale)
  let ref ← cmd.handPosRef[i]?
  let motorRef := OpenArmGripperJointConverter.motorPosition ref
  let tau := readList wild c.bkp (armDof + i) * (motorRef - motor.position) -
    readList wild c.bkd (armDof + i) * motor.velocity
  let tau ←
    if c.useKf cmd armDof gripperDof && decide (i < cmd.handTauF.length) then
      cmd.handTauF[i]?.map fun tauF => tau - readList wild c.bkf (armDof + i) * tauF
    else some tau
  return tau * scale

def leaderStep? (joints : ℕ) (robot : RobotSystemState Double) (motors : Motors Double)
    (cmd : Option LeaderBilateralCommand) : Option Cycle := do
  let arm := OpenArmJointConverter.motorToJoint motors.arm
  let gripper := OpenArmGripperJointConverter.motorToJoint motors.gripper
  let robot := respond robot arm gripper
  let armDof := robot.armState.response.length
  let gripperDof := robot.handState.response.length
  let armPositions := arm.map (·.position)
  let armVelocities := arm.map (·.velocity)
  let gripperVelocities := gripper.map (·.velocity)
  let cmd := c.bilateral cmd armDof gripperDof
  let gravityRef ← c.gravityRef? joints cmd armDof gripperDof
  match c.computeAllFriction tanh wild armVelocities gripperVelocities with
  | .error e => return ⟨robot, [], .error e⟩
  | .ok friction =>
    let armTorques ← arm.zipIdx.mapM fun (joint, i) => do
      let gs := c.gscale[i]?.getD 1
      let go := c.goffset[i]?.getD 0
      let gravCmd := c.dynamicsL.getGravity armPositions i * gs + go
      let tauB ← tauB? cmd fun cmd =>
        c.armTorque? wild cmd armDof gripperDof gravityRef armPositions armVelocities i
      return { joint with
        effort := c.clampLeaderEffort i (gravCmd + readList wild friction i * 0.3 +
          c.dynamicsL.getCoriolis armPositions armVelocities i * 0.1 + tauB) }
    let gripperTorques ← (gripper.zip motors.gripper).zipIdx.mapM fun ((joint, motor), i) => do
      let tauB ← tauB? cmd fun cmd => c.gripperTorque? wild cmd armDof gripperDof motor i
      return { joint with
        effort := c.clampLeaderEffort (armDof + i)
          (readList wild friction (armDof + i) * 0.3 + tauB) }
    let armCmds := (OpenArmJointConverter.jointToMotor armTorques).map fun m =>
      ⟨0, 0, 0, 0, m.effort⟩
    let gripperCmds := (OpenArmGripperJointConverter.jointToMotor gripperTorques).map fun m =>
      ⟨0, 0, 0, 0, m.effort⟩
    return ⟨robot, [.arm armCmds, .gripper gripperCmds], .ok ()⟩

variable {c}

theorem armTorque?_eq {cmd : LeaderBilateralCommand} {armDof gripperDof : ℕ} {i : ℕ}
    (hi : i < armDof) (hpos : armDof ≤ cmd.armPosRef.length) {gravityRef : ℕ → Double}
    (hgravity : c.useKf cmd armDof gripperDof = true →
      gravityRef = c.dynamicsL.getGravity cmd.armPosRef) (positions velocities : List Double) :
    c.armTorque? wild cmd armDof gripperDof gravityRef positions velocities i =
      some (c.armTorque wild cmd armDof gripperDof positions velocities i) := by
  by_cases hkf : c.useKf cmd armDof gripperDof = true
  · have htau : armDof ≤ cmd.armTauF.length := by
      simp only [useKf, Bool.and_eq_true, decide_eq_true_eq] at hkf
      exact hkf.2
    simp only [armTorque?, armTorque, getElem?_eq_readList wild (hi.trans_le hpos),
      getElem?_eq_readList wild (hi.trans_le htau), hgravity hkf, hkf, if_true]
    rfl
  · simp only [armTorque?, armTorque, getElem?_eq_readList wild (hi.trans_le hpos), hkf]
    rfl

theorem gripperTorque?_eq {cmd : LeaderBilateralCommand} {armDof gripperDof : ℕ} {i : ℕ}
    (hi : i < gripperDof) (hpos : gripperDof ≤ cmd.handPosRef.length) (motor : MotorState Double) :
    c.gripperTorque? wild cmd armDof gripperDof motor i =
      some (c.gripperTorque wild cmd armDof gripperDof motor i) := by
  by_cases hkf : (c.useKf cmd armDof gripperDof && decide (i < cmd.handTauF.length)) = true
  · have htau : i < cmd.handTauF.length := by
      simp only [Bool.and_eq_true, decide_eq_true_eq] at hkf
      exact hkf.2
    simp only [gripperTorque?, gripperTorque, getElem?_eq_readList wild (hi.trans_le hpos),
      getElem?_eq_readList wild htau, hkf, if_true]
    rfl
  · simp only [gripperTorque?, gripperTorque, getElem?_eq_readList wild (hi.trans_le hpos), hkf]
    rfl

/-- Whatever the command, a cycle reads inside its vectors. -/
theorem leaderStep?_eq (joints : ℕ) (robot : RobotSystemState Double) (motors : Motors Double)
    (cmd : Option LeaderBilateralCommand) (hjoints : joints ≤ motors.arm.length) :
    c.leaderStep? tanh wild joints robot motors cmd =
      some (c.leaderStep tanh wild robot motors cmd) := by
  have harm : (respond robot (OpenArmJointConverter.motorToJoint motors.arm)
      (OpenArmGripperJointConverter.motorToJoint motors.gripper)).armState.response.length =
      motors.arm.length := List.length_map _
  have hhand : (respond robot (OpenArmJointConverter.motorToJoint motors.arm)
      (OpenArmGripperJointConverter.motorToJoint motors.gripper)).handState.response.length =
      motors.gripper.length := List.length_map _
  have hlength : ∀ used, c.bilateral cmd motors.arm.length motors.gripper.length = some used →
      motors.arm.length ≤ used.armPosRef.length ∧ motors.gripper.length ≤ used.handPosRef.length :=
    fun used => bilateral_length
  simp only [leaderStep?, leaderStep, harm, hhand]
  generalize c.bilateral cmd motors.arm.length motors.gripper.length = used at hlength ⊢
  obtain ⟨gravityRef, hgravity, hatRef⟩ := gravityRef?_eq (c := c) motors.gripper.length
    (fun _ h => (hlength _ h).1) hjoints
  rw [hgravity]
  cases c.computeAllFriction tanh wild _ _ with
  | error e => rfl
  | ok friction =>
    have htauArm : ∀ i < motors.arm.length, ∀ positions velocities,
        (tauB? used fun cmd => c.armTorque? wild cmd motors.arm.length motors.gripper.length
          gravityRef positions velocities i) =
        some ((used.map fun cmd => c.armTorque wild cmd motors.arm.length motors.gripper.length
          positions velocities i).getD 0) :=
      fun i hi _ _ => tauB?_eq fun cmd h =>
        armTorque?_eq wild hi (hlength cmd h).1 (hatRef cmd h) _ _
    have htauGripper : ∀ i < motors.gripper.length, ∀ motor,
        (tauB? used fun cmd =>
          c.gripperTorque? wild cmd motors.arm.length motors.gripper.length motor i) =
        some ((used.map fun cmd => c.gripperTorque wild cmd motors.arm.length
          motors.gripper.length motor i).getD 0) :=
      fun i hi _ => tauB?_eq fun cmd h => gripperTorque?_eq wild hi (hlength cmd h).2 _
    have hlt : ∀ {α : Type} {xs : List α} {i x}, xs[i]? = some x → i < xs.length :=
      fun h => (List.getElem?_eq_some_iff.mp h).1
    refine Option.bind_eq_some_iff.mpr ⟨gravityRef, rfl,
      Option.bind_eq_some_iff.mpr ⟨_, mapM_zipIdx_eq _ ?arm,
      Option.bind_eq_some_iff.mpr ⟨_, mapM_zipIdx_eq _ ?gripper, rfl⟩⟩⟩
    case arm =>
      intro i joint hjoint
      simp only [htauArm i (by simpa [OpenArmJointConverter.motorToJoint] using hlt hjoint)]
      rfl
    case gripper =>
      intro i joint hjoint
      simp only [htauGripper i
        (by simpa [OpenArmGripperJointConverter.motorToJoint] using hlt hjoint)]
      rfl

end Cycles

end Control

end OpenArmTeleop.Controller
