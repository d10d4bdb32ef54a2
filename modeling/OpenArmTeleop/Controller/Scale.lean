import OpenArmTeleop.Controller.Torque

/-!
# How the torque follows the scale of a command

Two leader cycles that differ in the scale of their command, in exact arithmetic.
-/

open Num Double OpenArmTeleop.Control

namespace OpenArmTeleop.Controller

/-! ## The bilateral term -/

namespace Control

section Terms

variable (c : Control) (cmd : LeaderBilateralCommand)

/-- The gains and the references reach all joints. -/
def fits (armDof gripperDof : ℕ) : Bool :=
  decide (armDof + gripperDof ≤ c.bkp.length) && decide (armDof + gripperDof ≤ c.bkd.length) &&
    decide (armDof ≤ cmd.armPosRef.length) && decide (gripperDof ≤ cmd.handPosRef.length)

theorem bilateral_eq_none (armDof gripperDof : ℕ)
    (h : cmd.scale = 0 ∨ c.fits cmd armDof gripperDof = false) :
    c.bilateral (some cmd) armDof gripperDof = none := by
  rw [bilateral, Option.filter_eq_none_iff]
  rintro a ha hactive
  obtain rfl := Option.some.inj ha
  rcases h with h | h
  · simp [h, Double.lt_irrefl] at hactive
  · simp only [fits, Bool.and_eq_true, decide_eq_true_eq] at hactive h
    simp [hactive] at h

theorem bilateral_eq_some (armDof gripperDof : ℕ) (hscale : 0 < cmd.scale)
    (h : c.fits cmd armDof gripperDof = true) :
    c.bilateral (some cmd) armDof gripperDof = some cmd := by
  rw [bilateral, Option.filter_eq_some_iff]
  refine ⟨rfl, ?_⟩
  simp only [fits, Bool.and_eq_true, decide_eq_true_eq] at h ⊢
  exact ⟨⟨⟨⟨hscale, h.1.1.1⟩, h.1.1.2⟩, h.1.2⟩, h.2⟩

section Code

variable [Rounding] (wild : ℕ → Double)

/-- The torque that the scale multiplies, for arm joint `i`. -/
def armTerm (motors : Motors Double) (i : ℕ) : Double :=
  let armDof := motors.arm.length
  let gripperDof := motors.gripper.length
  let arm := OpenArmJointConverter.motorToJoint motors.arm
  if c.fits cmd armDof gripperDof then
    let tau := readList wild c.bkp i *
        (readList wild cmd.armPosRef i - readList wild (arm.map (·.position)) i) -
      readList wild c.bkd i * readList wild (arm.map (·.velocity)) i
    if c.useKf cmd armDof gripperDof then
      tau - readList wild c.bkf i *
        (readList wild cmd.armTauF i - c.dynamicsL.getGravity cmd.armPosRef i)
    else tau
  else 0

/-- The torque that the scale multiplies, for gripper joint `i`. -/
def gripperTerm (motors : Motors Double) (i : ℕ) : Double :=
  let armDof := motors.arm.length
  let gripperDof := motors.gripper.length
  match motors.gripper[i]? with
  | some motor =>
    if c.fits cmd armDof gripperDof then
      let motorRef := OpenArmGripperJointConverter.motorPosition (readList wild cmd.handPosRef i)
      let tau := readList wild c.bkp (armDof + i) * (motorRef - motor.position) -
        readList wild c.bkd (armDof + i) * motor.velocity
      if c.useKf cmd armDof gripperDof && decide (i < cmd.handTauF.length) then
        tau - readList wild c.bkf (armDof + i) * readList wild cmd.handTauF i
      else tau
    else 0
  | none => 0

/-- A cycle looks at its command through `bilateral` only. -/
theorem leaderStep_congr (tanh : Double → Double) (robot : RobotSystemState Double)
    (motors : Motors Double) {cmd cmd' : Option LeaderBilateralCommand}
    (h : c.bilateral cmd motors.arm.length motors.gripper.length =
      c.bilateral cmd' motors.arm.length motors.gripper.length) :
    c.leaderStep tanh wild robot motors cmd = c.leaderStep tanh wild robot motors cmd' := by
  have harm : (OpenArmJointConverter.motorToJoint motors.arm).length = motors.arm.length :=
    List.length_map _
  have hgripper : (OpenArmGripperJointConverter.motorToJoint motors.gripper).length =
      motors.gripper.length := List.length_map _
  simp only [leaderStep, respond, harm, hgripper, h]

theorem leaderStep_inactive (tanh : Double → Double) (robot : RobotSystemState Double)
    (motors : Motors Double)
    (h : cmd.scale = 0 ∨ c.fits cmd motors.arm.length motors.gripper.length = false) :
    c.leaderStep tanh wild robot motors (some cmd) = c.leaderStep tanh wild robot motors none := by
  apply leaderStep_congr
  rw [bilateral_eq_none c cmd _ _ h]
  rfl

end Code

end Terms

/-! ## Finite inputs -/

/-- What the bilateral terms are made of is finite. -/
structure FiniteInputs (c : Control) (motors : Motors Double) (cmd : LeaderBilateralCommand) :
    Prop where
  arm : ∀ m ∈ motors.arm, m.position.isFinite = true ∧ m.velocity.isFinite = true
  gripper : ∀ m ∈ motors.gripper, m.position.isFinite = true ∧ m.velocity.isFinite = true
  gains : ∀ x ∈ c.bkp ++ c.bkd ++ c.bkf, x.isFinite = true
  armPosRef : ∀ x ∈ cmd.armPosRef, x.isFinite = true
  handPosRef : ∀ x ∈ cmd.handPosRef, x.isFinite = true
  armTauF : ∀ x ∈ cmd.armTauF, x.isFinite = true
  handTauF : ∀ x ∈ cmd.handTauF, x.isFinite = true
  gravity : ∀ i, (c.dynamicsL.getGravity cmd.armPosRef i).isFinite = true

theorem readList_isFinite (wild : ℕ → Double) {xs : List Double} (hxs : ∀ x ∈ xs, x.isFinite = true)
    {i : ℕ} (hi : i < xs.length) : (readList wild xs i).isFinite = true := by
  rw [readList, List.getElem?_eq_getElem hi]
  exact hxs _ (List.getElem_mem hi)

section Exact

attribute [local instance] Rounding.exact

variable {c : Control} {motors : Motors Double} {cmd : LeaderBilateralCommand} (wild : ℕ → Double)

theorem motorPosition_isFinite {x : Double} (hx : x.isFinite = true) :
    (OpenArmGripperJointConverter.motorPosition x).isFinite = true := by
  obtain ⟨q, rfl⟩ := (isFinite_iff x).mp hx
  have hdiv : (.fin q : Double) / 0.044 = .fin (q / 0.044) := exact_div q 0.044 (by norm_num)
  rw [OpenArmGripperJointConverter.motorPosition, hdiv]
  rfl

theorem FiniteInputs.gain (hfin : FiniteInputs c motors cmd) {n i : ℕ} (hi : i < n)
    (hkp : n ≤ c.bkp.length) (hkd : n ≤ c.bkd.length) :
    (readList wild c.bkp i).isFinite = true ∧ (readList wild c.bkd i).isFinite = true := by
  constructor
  · exact readList_isFinite wild (fun x hx => hfin.gains x (by simp [hx])) (by omega)
  · exact readList_isFinite wild (fun x hx => hfin.gains x (by simp [hx])) (by omega)

theorem FiniteInputs.forceGain (hfin : FiniteInputs c motors cmd) {n i : ℕ} (hi : i < n)
    (hkf : n ≤ c.bkf.length) : (readList wild c.bkf i).isFinite = true :=
  readList_isFinite wild (fun x hx => hfin.gains x (by simp [hx])) (by omega)

theorem armTerm_isFinite (hfin : FiniteInputs c motors cmd) {i : ℕ} (hi : i < motors.arm.length) :
    (c.armTerm cmd wild motors i).isFinite = true := by
  unfold armTerm
  simp only
  split
  · rename_i hfits
    simp only [fits, Bool.and_eq_true, decide_eq_true_eq, and_assoc] at hfits
    obtain ⟨hkp, hkd, href, -⟩ := hfits
    have hij : i < motors.arm.length + motors.gripper.length := by omega
    obtain ⟨hp, hd⟩ := hfin.gain wild hij hkp hkd
    have hpos : (readList wild ((OpenArmJointConverter.motorToJoint motors.arm).map
        (·.position)) i).isFinite = true := by
      refine readList_isFinite wild (fun x hx => ?_) (by simpa [OpenArmJointConverter.motorToJoint])
      simp only [OpenArmJointConverter.motorToJoint, List.map_map, List.mem_map] at hx
      obtain ⟨m, hm, rfl⟩ := hx
      exact (hfin.arm m hm).1
    have hvel : (readList wild ((OpenArmJointConverter.motorToJoint motors.arm).map
        (·.velocity)) i).isFinite = true := by
      refine readList_isFinite wild (fun x hx => ?_) (by simpa [OpenArmJointConverter.motorToJoint])
      simp only [OpenArmJointConverter.motorToJoint, List.map_map, List.mem_map] at hx
      obtain ⟨m, hm, rfl⟩ := hx
      exact (hfin.arm m hm).2
    have hq := readList_isFinite wild hfin.armPosRef (hi.trans_le href)
    have hpd := exact_isFinite_sub (exact_isFinite_mul hp (exact_isFinite_sub hq hpos))
      (exact_isFinite_mul hd hvel)
    split
    · rename_i hkf
      simp only [useKf, Bool.and_eq_true, decide_eq_true_eq] at hkf
      have hf := hfin.forceGain wild hij hkf.1
      have htau := readList_isFinite wild hfin.armTauF (hi.trans_le hkf.2)
      exact exact_isFinite_sub hpd (exact_isFinite_mul hf (exact_isFinite_sub htau (hfin.gravity i)))
    · exact hpd
  · rfl

theorem gripperTerm_isFinite (hfin : FiniteInputs c motors cmd) (i : ℕ) :
    (c.gripperTerm cmd wild motors i).isFinite = true := by
  unfold gripperTerm
  simp only
  split
  · rename_i motor hmotor
    obtain ⟨hi, -⟩ := List.getElem?_eq_some_iff.mp hmotor
    have hm := hfin.gripper motor (List.mem_of_getElem? hmotor)
    split
    · rename_i hfits
      simp only [fits, Bool.and_eq_true, decide_eq_true_eq, and_assoc] at hfits
      obtain ⟨hkp, hkd, -, href⟩ := hfits
      have hij : motors.arm.length + i < motors.arm.length + motors.gripper.length := by omega
      obtain ⟨hp, hd⟩ := hfin.gain wild hij hkp hkd
      have hq := motorPosition_isFinite (readList_isFinite wild hfin.handPosRef (hi.trans_le href))
      have hpd := exact_isFinite_sub (exact_isFinite_mul hp (exact_isFinite_sub hq hm.1))
        (exact_isFinite_mul hd hm.2)
      split
      · rename_i hkf
        simp only [useKf, Bool.and_eq_true, decide_eq_true_eq] at hkf
        have hf := hfin.forceGain wild hij hkf.1.1
        have htau := readList_isFinite wild hfin.handTauF hkf.2
        exact exact_isFinite_sub hpd (exact_isFinite_mul hf htau)
      · exact hpd
    · rfl
  · rfl

/-! ## The torque of a joint -/

/-- On a fraction the clamp of the scale does nothing. -/
theorem clamp_scale {s : ℚ} (h0 : 0 ≤ s) (h1 : s ≤ 1) :
    stdMax (0 : Double) (stdMin 1 (.fin s)) = .fin s := by
  rw [zero_eq, one_eq, Double.stdMin_fin, Double.stdMax_fin, min_eq_right h1, max_eq_right h0]

/-- Whether the command acts or not, what is made of it is the scaled term. -/
theorem bilateral_scaled {s : ℚ} (h0 : 0 ≤ s) (armDof gripperDof : ℕ)
    {torque : LeaderBilateralCommand → Double} {b : ℚ}
    (hoff : c.fits cmd armDof gripperDof = false → b = 0)
    (hon : c.fits cmd armDof gripperDof = true →
      torque { cmd with scale := .fin s } = .fin (b * s)) :
    ((c.bilateral (some { cmd with scale := .fin s }) armDof gripperDof).map torque).getD 0 =
      .fin (b * s) := by
  cases hfits : c.fits cmd armDof gripperDof with
  | false =>
    have hnone := c.bilateral_eq_none { cmd with scale := .fin s } _ _ (.inr hfits)
    rw [hnone, hoff hfits, zero_mul]
    rfl
  | true =>
    rcases h0.eq_or_lt with rfl | hpos
    · have hnone := c.bilateral_eq_none { cmd with scale := .fin 0 } armDof gripperDof (.inl rfl)
      rw [hnone, mul_zero]
      rfl
    · have hsome := c.bilateral_eq_some { cmd with scale := .fin s } armDof gripperDof
        (by simpa using hpos) hfits
      rw [hsome]
      exact hon hfits

theorem armTorque_scaled {s : ℚ} (h0 : 0 ≤ s) (h1 : s ≤ 1) {i : ℕ} {b : ℚ}
    (hb : c.armTerm cmd wild motors i = .fin b) :
    let arm := OpenArmJointConverter.motorToJoint motors.arm
    (((c.bilateral (some { cmd with scale := .fin s }) motors.arm.length motors.gripper.length).map
      fun cmd => c.armTorque wild cmd motors.arm.length motors.gripper.length
        (arm.map (·.position)) (arm.map (·.velocity)) i).getD 0) = .fin (b * s) := by
  intro arm
  unfold armTerm at hb
  refine bilateral_scaled h0 _ _ (fun hfits => ?_) fun hfits => ?_
  · simp only [hfits, Bool.false_eq_true, if_false] at hb
    exact (fin.inj hb).symm
  · rw [armTorque]
    simp only [clamp_scale h0 h1]
    simp only [hfits, if_true] at hb
    exact congrArg (· * (.fin s : Double)) hb

theorem gripperTorque_scaled {s : ℚ} (h0 : 0 ≤ s) (h1 : s ≤ 1) {i : ℕ} {motor : MotorState Double}
    (hmotor : motors.gripper[i]? = some motor) {b : ℚ}
    (hb : c.gripperTerm cmd wild motors i = .fin b) :
    (((c.bilateral (some { cmd with scale := .fin s }) motors.arm.length motors.gripper.length).map
      fun cmd => c.gripperTorque wild cmd motors.arm.length motors.gripper.length motor i).getD 0) =
      .fin (b * s) := by
  unfold gripperTerm at hb
  simp only [hmotor] at hb
  refine bilateral_scaled h0 _ _ (fun hfits => ?_) fun hfits => ?_
  · simp only [hfits, Bool.false_eq_true, if_false] at hb
    exact (fin.inj hb).symm
  · rw [gripperTorque]
    simp only [clamp_scale h0 h1]
    simp only [hfits, if_true] at hb
    exact congrArg (· * (.fin s : Double)) hb

/-! ## The clamp does not expand -/

theorem abs_clamp_sub_clamp (l x y : ℚ) :
    |max (-l) (min l x) - max (-l) (min l y)| ≤ |x - y| := by
  calc |max (-l) (min l x) - max (-l) (min l y)| ≤ max |-l - -l| |min l x - min l y| :=
        abs_max_sub_max_le_max _ _ _ _
    _ = |min l x - min l y| := by rw [sub_self, abs_zero, max_eq_right (abs_nonneg _)]
    _ ≤ max |l - l| |x - y| := abs_min_sub_min_le_max _ _ _ _
    _ = |x - y| := by rw [sub_self, abs_zero, max_eq_right (abs_nonneg _)]

/-- The limits are numbers. -/
def Limited (c : Control) : Prop :=
  ∀ i, ∃ l : ℚ, (if i < c.effortLimit.length then c.effortLimit[i]?.getD 0 else 0) = .fin l

theorem limited_setAll (role : Role) (dynamicsL : Dynamics) (dynamicsF : Option Dynamics)
    (calls : List Setter) : Limited ((Control.new role dynamicsL dynamicsF).setAll calls) := by
  intro i
  rw [setAll_effortLimit (.new role dynamicsL dynamicsF) calls [] rfl, length_effortLimits]
  by_cases hi : i < 8
  · obtain ⟨l, -, hget, -⟩ := effortLimits_spec (lastLimits calls) i hi
    refine ⟨l, ?_⟩
    rw [if_pos hi]
    exact congrArg (·.getD 0) hget
  · exact ⟨0, if_neg hi⟩

/-- Two torques of a joint that differ in the scale of one term. -/
theorem clampLeaderEffort_close (hc : Limited c) (i : ℕ) (base : Double) (b s₁ s₂ : ℚ) :
    ∃ p q : ℚ, c.clampLeaderEffort i (base + .fin (b * s₁)) = .fin p ∧
      c.clampLeaderEffort i (base + .fin (b * s₂)) = .fin q ∧ |p - q| ≤ |s₁ - s₂| * |b| := by
  obtain ⟨l, hl⟩ := hc i
  unfold clampLeaderEffort
  simp only [hl]
  cases base with
  | nan | inf n =>
    -- no finite torque, so none is commanded
    exact ⟨0, 0, rfl, rfl, by simpa using mul_nonneg (abs_nonneg _) (abs_nonneg _)⟩
  | fin g =>
    refine ⟨max (-l) (min l (g + b * s₁)), max (-l) (min l (g + b * s₂)), ?_, ?_, ?_⟩
    · rw [exact_add, isFinite_fin, if_pos rfl, Double.stdMin_fin, neg_fin, Double.stdMax_fin]
    · rw [exact_add, isFinite_fin, if_pos rfl, Double.stdMin_fin, neg_fin, Double.stdMax_fin]
    · calc |max (-l) (min l (g + b * s₁)) - max (-l) (min l (g + b * s₂))|
          ≤ |g + b * s₁ - (g + b * s₂)| := abs_clamp_sub_clamp l _ _
        _ = |(s₁ - s₂) * b| := congrArg _ (by ring)
        _ = |s₁ - s₂| * |b| := abs_mul _ _

end Exact

end Control

/-! ## Two cycles -/

/-- Two commands of one motor that differ in their torques by at most `δ` times a term. -/
def MITParam.Close (δ : ℚ) (term : Double) (x y : MITParam Double) : Prop :=
  (x.kp, x.kd, x.q, x.dq) = (y.kp, y.kd, y.q, y.dq) ∧
    ∃ p q b : ℚ, x.tau = .fin p ∧ y.tau = .fin q ∧ term = .fin b ∧ |p - q| ≤ δ * |b|

/-- Two transmissions to the same motors whose torques are close. -/
def Sent.Close (δ : ℚ) (armTerm gripperTerm : ℕ → Double) : Sent → Sent → Prop
  | .arm xs, .arm ys =>
    xs.length = ys.length ∧
      ∀ i x y, xs[i]? = some x → ys[i]? = some y → MITParam.Close δ (armTerm i) x y
  | .gripper xs, .gripper ys =>
    xs.length = ys.length ∧
      ∀ i x y, xs[i]? = some x → ys[i]? = some y → MITParam.Close δ (gripperTerm i) x y
  | _, _ => False

section Exact

attribute [local instance] Rounding.exact

open Control

variable (tanh : Double → Double) (wild : ℕ → Double)

theorem leaderStep_close {c : Control} (hc : Limited c) (robot : RobotSystemState Double)
    (motors : Motors Double) (cmd : LeaderBilateralCommand) (hfin : FiniteInputs c motors cmd)
    {s₁ s₂ : ℚ} (h₁ : 0 ≤ s₁ ∧ s₁ ≤ 1) (h₂ : 0 ≤ s₂ ∧ s₂ ≤ 1) :
    List.Forall₂
      (Sent.Close |s₁ - s₂| (c.armTerm cmd wild motors) (c.gripperTerm cmd wild motors))
      (c.leaderStep tanh wild robot motors (some { cmd with scale := .fin s₁ })).sent
      (c.leaderStep tanh wild robot motors (some { cmd with scale := .fin s₂ })).sent := by
  have harm : (OpenArmJointConverter.motorToJoint motors.arm).length = motors.arm.length :=
    List.length_map _
  have hgripper : (OpenArmGripperJointConverter.motorToJoint motors.gripper).length =
      motors.gripper.length := List.length_map _
  simp only [leaderStep, respond, harm, hgripper]
  split
  · exact .nil
  · refine .cons ⟨?_, ?_⟩ (.cons ⟨?_, ?_⟩ .nil)
    · simp [OpenArmJointConverter.jointToMotor]
    · intro i x y hx hy
      simp only [OpenArmJointConverter.jointToMotor, List.getElem?_map, List.getElem?_mapIdx,
        Option.map_map, Option.map_eq_some_iff] at hx hy
      obtain ⟨joint, hjoint, rfl⟩ := hx
      obtain ⟨joint', -, rfl⟩ := hy
      obtain ⟨hi, -⟩ := List.getElem?_eq_some_iff.mp hjoint
      obtain ⟨b, hb⟩ := (isFinite_iff _).mp (armTerm_isFinite wild hfin (harm ▸ hi))
      have hscaled₁ := armTorque_scaled wild h₁.1 h₁.2 hb
      have hscaled₂ := armTorque_scaled wild h₂.1 h₂.2 hb
      obtain ⟨p, q, hp, hq, hle⟩ := clampLeaderEffort_close hc i _ b s₁ s₂
      refine ⟨rfl, p, q, b, ?_, ?_, hb, hle⟩
      · exact (congrArg (fun tau => c.clampLeaderEffort i (_ + tau)) hscaled₁).trans hp
      · exact (congrArg (fun tau => c.clampLeaderEffort i (_ + tau)) hscaled₂).trans hq
    · simp [OpenArmGripperJointConverter.jointToMotor]
    · intro i x y hx hy
      simp only [OpenArmGripperJointConverter.jointToMotor, List.getElem?_map,
        List.getElem?_mapIdx, Option.map_map, Option.map_eq_some_iff] at hx hy
      obtain ⟨⟨joint, motor⟩, hzip, rfl⟩ := hx
      obtain ⟨⟨joint', motor'⟩, hzip', rfl⟩ := hy
      obtain ⟨rfl, rfl⟩ := Prod.mk.inj (Option.some.inj (hzip.symm.trans hzip'))
      have hmotor : motors.gripper[i]? = some motor := (List.getElem?_zip_eq_some.mp hzip).2
      obtain ⟨b, hb⟩ := (isFinite_iff _).mp (gripperTerm_isFinite wild hfin i)
      have hscaled₁ := gripperTorque_scaled wild h₁.1 h₁.2 hmotor hb
      have hscaled₂ := gripperTorque_scaled wild h₂.1 h₂.2 hmotor hb
      obtain ⟨p, q, hp, hq, hle⟩ := clampLeaderEffort_close hc (motors.arm.length + i) _ b s₁ s₂
      refine ⟨rfl, p, q, b, ?_, ?_, hb, hle⟩
      · exact (congrArg (fun tau => c.clampLeaderEffort _ (_ + tau)) hscaled₁).trans hp
      · exact (congrArg (fun tau => c.clampLeaderEffort _ (_ + tau)) hscaled₂).trans hq

/-- A cycle throws with any command, or with none. -/
theorem leaderStep_result (c : Control) (robot : RobotSystemState Double) (motors : Motors Double)
    (cmd cmd' : Option LeaderBilateralCommand) :
    (c.leaderStep tanh wild robot motors cmd).result =
      (c.leaderStep tanh wild robot motors cmd').result := by
  unfold leaderStep
  dsimp only
  split <;> rfl

/-- **The torque follows the scale.** Two cycles with finite inputs whose commands differ in their
scale send torques that differ by at most the change of the scale times the term of the joint. A
command of scale 0, or with gains or references that are too short, is the same as none. -/
theorem torque_follows_scale (role : Role) (dynamicsL : Dynamics) (dynamicsF : Option Dynamics)
    (calls : List Setter) (robot : RobotSystemState Double) (motors : Motors Double)
    (cmd : LeaderBilateralCommand) :
    let c := (Control.new role dynamicsL dynamicsF).setAll calls
    let cycle := fun scale => c.leaderStep tanh wild robot motors (some { cmd with scale := scale })
    (FiniteInputs c motors cmd → ∀ s₁ s₂ : ℚ, 0 ≤ s₁ ∧ s₁ ≤ 1 → 0 ≤ s₂ ∧ s₂ ≤ 1 →
      (cycle (.fin s₁)).result = (cycle (.fin s₂)).result ∧
      List.Forall₂
        (Sent.Close |s₁ - s₂| (c.armTerm cmd wild motors) (c.gripperTerm cmd wild motors))
        (cycle (.fin s₁)).sent (cycle (.fin s₂)).sent) ∧
    ∀ scale, scale = 0 ∨ c.fits cmd motors.arm.length motors.gripper.length = false →
      cycle scale = c.leaderStep tanh wild robot motors none := by
  intro c cycle
  refine ⟨fun hfin s₁ s₂ h₁ h₂ => ⟨?_, ?_⟩, fun scale h => ?_⟩
  · exact leaderStep_result tanh wild c robot motors _ _
  · exact leaderStep_close tanh wild (limited_setAll role dynamicsL dynamicsF calls) robot motors cmd
      hfin h₁ h₂
  · exact c.leaderStep_inactive { cmd with scale := scale } wild tanh robot motors h

def weightless : Dynamics := ⟨fun _ _ => 0, fun _ _ _ => 0⟩

/-- Friction parameters and gains for eight joints. -/
def gained : List Setter :=
  [.setParameter [] [] (.replicate 8 1) (.replicate 8 1) (.replicate 8 1) (.replicate 8 0),
    .setBilateralGains (.replicate 8 (.fin 3)) (.replicate 8 1) []]

/-- The follower is one radian away. -/
def apart : LeaderBilateralCommand := ⟨.replicate 7 1, [0], [], [], 0⟩

/-- A quarter and a half of 3 Nm. -/
theorem torque_follows_scale_half :
    let c := (Control.new .leader weightless none).setAll gained
    let cycle := fun scale : ℚ =>
      c.leaderStep id (fun _ => .nan) .new idle (some { apart with scale := .fin scale })
    (cycle (1 / 4)).sent ≠ (cycle (1 / 2)).sent ∧
      List.Forall₂ (Sent.Close |(1 / 4 : ℚ) - 1 / 2| (c.armTerm apart (fun _ => .nan) idle)
        (c.gripperTerm apart (fun _ => .nan) idle)) (cycle (1 / 4)).sent (cycle (1 / 2)).sent ∧
      cycle 0 = c.leaderStep id (fun _ => .nan) .new idle none := by
  have hlaw := torque_follows_scale id (fun _ => .nan) .leader weightless none gained .new idle apart
  refine ⟨by decide +kernel, (hlaw.1 ?_ (1 / 4) (1 / 2) (by norm_num) (by norm_num)).2,
    hlaw.2 0 (.inl rfl)⟩
  constructor
  · decide +kernel
  · decide +kernel
  · decide +kernel
  · decide +kernel
  · decide +kernel
  · decide +kernel
  · decide +kernel
  · exact fun _ => rfl

end Exact

end OpenArmTeleop.Controller
