import OpenArmTeleop.Controller.Cycle

/-!
# No torque escapes the clamp

Every torque that a control cycle sends is finite and within the limit of its joint, whatever the
setters were given, the motors measure and the dynamics return.
-/

open Num Double OpenArmTeleop.Control

namespace OpenArmTeleop.Controller

/-! ## The limits -/

/-- The limit of a leader joint that is not configured. There is none beyond the eighth. -/
def defaultLimit (i : ℕ) : Double :=
  if i < 7 then .fin 20 else if i = 7 then .fin 2 else 0

def Setter.limits (last : List Double) : Setter → List Double
  | .setEffortLimits limits => limits
  | _ => last

def lastLimits (calls : List Setter) : List Double := calls.foldl Setter.limits []

/-- The last configured limit if it was finite and positive, and the default otherwise. -/
def leaderLimit (calls : List Setter) (i : ℕ) : Double :=
  match (lastLimits calls)[i]? with
  | some limit => if i < 8 ∧ limit.isFinite = true ∧ 0 < limit then limit else defaultLimit i
  | none => defaultLimit i

def followerLimit (i : ℕ) : Double := if i < 8 then .fin 20 else 0

/-- Each torque of a transmission is within the limit of its joint. -/
def Sent.Within (arm gripper : ℕ → Double) : Sent → Prop
  | .arm cmds => ∀ i cmd, cmds[i]? = some cmd → Double.Within (arm i) cmd.tau
  | .gripper cmds => ∀ i cmd, cmds[i]? = some cmd → Double.Within (gripper i) cmd.tau

/-! ## What the setters store -/

theorem length_effortLimits (limits : List Double) : (effortLimits limits).length = 8 := by
  simp [effortLimits, effortLimitL, nmotors]

theorem effortLimits_spec (limits : List Double) (i : ℕ) (hi : i < 8) :
    ∃ l : ℚ, 0 < l ∧ (effortLimits limits)[i]? = some (.fin l) ∧
      (.fin l : Double) = match limits[i]? with
        | some limit => if i < 8 ∧ limit.isFinite = true ∧ 0 < limit then limit else defaultLimit i
        | none => defaultLimit i := by
  have hbase : (effortLimitL.set (nmotors - 1) (.fin 2))[i]? = some (defaultLimit i) := by
    interval_cases i <;> rfl
  have hdefault : ∃ l : ℚ, 0 < l ∧ defaultLimit i = .fin l := by
    interval_cases i <;> simp [defaultLimit]
  obtain ⟨d, hd, hdefault⟩ := hdefault
  simp only [effortLimits, List.getElem?_mapIdx, hbase, Option.map_some, hdefault]
  cases hlimit : limits[i]? with
  | none => exact ⟨d, hd, rfl, rfl⟩
  | some limit =>
    simp only [hi, true_and, Bool.and_eq_true, decide_eq_true_eq]
    by_cases hok : limit.isFinite = true ∧ 0 < limit
    · obtain ⟨x, rfl⟩ := (isFinite_iff limit).mp hok.1
      have hx : 0 < x := by simpa using hok.2
      exact ⟨x, hx, by rw [if_pos hok], by rw [if_pos hok]⟩
    · exact ⟨d, hd, by rw [if_neg hok], by rw [if_neg hok]⟩

theorem setAll_effortLimit (c : Control) (calls : List Setter) (limits : List Double)
    (hc : c.effortLimit = effortLimits limits) :
    (c.setAll calls).effortLimit = effortLimits (calls.foldl Setter.limits limits) := by
  induction calls generalizing c limits with
  | nil => exact hc
  | cons call calls ih =>
    cases call with
    | setEffortLimits new => exact ih _ new rfl
    | _ => exact ih _ limits hc

section Clamp

variable (role : Role) (dynamicsL : Dynamics) (dynamicsF : Option Dynamics) (calls : List Setter)

theorem clampLeaderEffort_within (i : ℕ) (tau : Double) :
    Double.Within (leaderLimit calls i)
      (((Control.new role dynamicsL dynamicsF).setAll calls).clampLeaderEffort i tau) := by
  have hstored := setAll_effortLimit (.new role dynamicsL dynamicsF) calls [] rfl
  unfold Control.clampLeaderEffort
  rw [hstored, length_effortLimits]
  by_cases hi : i < 8
  · obtain ⟨l, hl, hget, hlimit⟩ := effortLimits_spec (lastLimits calls) i hi
    have hlimit : leaderLimit calls i = .fin l := hlimit.symm
    have hget : (effortLimits (lastLimits calls))[i]?.getD 0 = .fin l := by rw [hget]; rfl
    rw [hlimit, if_pos hi]
    split
    · exact hget ▸ within_clamp l hl.le tau (by assumption)
    · exact within_zero l hl.le
  · have hlimit : leaderLimit calls i = .fin 0 := by
      have hdefault : defaultLimit i = 0 := by
        rw [defaultLimit, if_neg (by omega), if_neg (by omega)]
      unfold leaderLimit
      split
      · rw [if_neg fun h => hi h.1, hdefault, zero_eq]
      · rw [hdefault, zero_eq]
    rw [hlimit, if_neg hi]
    split
    · exact within_clamp 0 le_rfl tau (by assumption)
    · exact within_zero 0 le_rfl

end Clamp

/-! ## Friction parameters that are too short -/

theorem at'_short {xs : List Double} {i : ℕ} (h : xs.length ≤ i) :
    at' xs i = .error .outOfRange := by
  rw [at', List.getElem?_eq_none h]

theorem at'_get {xs : List Double} {i : ℕ} (h : i < xs.length) : at' xs i = .ok xs[i] := by
  rw [at', List.getElem?_eq_getElem h]

theorem mapM_error_iff {α β : Type} (f : α → Except OutOfRange β) (xs : List α) :
    xs.mapM f = .error .outOfRange ↔ ∃ x ∈ xs, f x = .error .outOfRange := by
  induction xs with
  | nil => simp [pure, Except.pure]
  | cons x xs ih =>
    rw [List.mapM_cons, List.exists_mem_cons_iff, ← ih]
    cases hx : f x with
    | error e =>
      cases e
      simp [bind, Except.bind]
    | ok y => cases xs.mapM f <;> simp [bind, Except.bind, pure, Except.pure]

section Friction

variable [Rounding] (tanh : Double → Double) (wild : ℕ → Double) (c : Control)

/-- One of the friction vectors has no entry for some of `n` joints. -/
def Control.Short (n : ℕ) : Prop :=
  c.fc.length < n ∨ c.k.length < n ∨ c.fv.length < n ∨ c.fo.length < n

/-- The checked reads of a joint fail exactly when one of its parameters is missing. -/
theorem computeFriction_error_iff (velocity : List Double) (i : ℕ) :
    c.computeFriction tanh wild velocity i = .error .outOfRange ↔ c.Short (i + 1) := by
  simp only [Control.computeFriction, Control.Short, Nat.lt_succ_iff]
  by_cases hfc : c.fc.length ≤ i
  · simp [at'_short hfc, hfc, bind, Except.bind]
  by_cases hk : c.k.length ≤ i
  · simp [at'_get (not_le.mp hfc), at'_short hk, hk, bind, Except.bind]
  by_cases hfv : c.fv.length ≤ i
  · simp [at'_get (not_le.mp hfc), at'_get (not_le.mp hk), at'_short hfv, hfv, bind, Except.bind]
  by_cases hfo : c.fo.length ≤ i
  · simp [at'_get (not_le.mp hfc), at'_get (not_le.mp hk), at'_get (not_le.mp hfv), at'_short hfo,
      hfo, bind, Except.bind]
  · simp [at'_get (not_le.mp hfc), at'_get (not_le.mp hk), at'_get (not_le.mp hfv),
      at'_get (not_le.mp hfo), hfc, hk, hfv, hfo, bind, Except.bind, pure, Except.pure]

theorem computeAllFriction_error_iff (armVelocity gripperVelocity : List Double) :
    c.computeAllFriction tanh wild armVelocity gripperVelocity = .error .outOfRange ↔
      c.Short (armVelocity.length + gripperVelocity.length) := by
  rw [Control.computeAllFriction, mapM_error_iff, List.length_append]
  constructor
  · rintro ⟨i, hi, he⟩
    rw [List.mem_range] at hi
    rcases (computeFriction_error_iff tanh wild c _ i).mp he with h | h | h | h
    · exact .inl (by omega)
    · exact .inr (.inl (by omega))
    · exact .inr (.inr (.inl (by omega)))
    · exact .inr (.inr (.inr (by omega)))
  · intro hshort
    have hpos : 0 < armVelocity.length + gripperVelocity.length := by
      rcases hshort with h | h | h | h <;> omega
    refine ⟨armVelocity.length + gripperVelocity.length - 1, by simp; omega, ?_⟩
    rwa [computeFriction_error_iff, Nat.sub_add_cancel hpos]

/-- A leader cycle throws exactly when a friction vector is too short, and sends nothing then. -/
theorem leaderStep_throws (robot : RobotSystemState Double) (motors : Motors Double)
    (cmd : Option LeaderBilateralCommand)
    (hshort : c.Short (motors.arm.length + motors.gripper.length)) :
    (c.leaderStep tanh wild robot motors cmd).result = .error .outOfRange ∧
      (c.leaderStep tanh wild robot motors cmd).sent = [] := by
  have herror := (computeAllFriction_error_iff tanh wild c
    ((OpenArmJointConverter.motorToJoint motors.arm).map (·.velocity))
    ((OpenArmGripperJointConverter.motorToJoint motors.gripper).map (·.velocity))).mpr (by
      simpa [OpenArmJointConverter.motorToJoint, OpenArmGripperJointConverter.motorToJoint]
        using hshort)
  simp only [Control.leaderStep, herror, and_self]

end Friction

/-! ## The cycles -/

theorem followerLimit_spec (i : ℕ) : ∃ l : ℚ, 0 ≤ l ∧ followerLimit i = .fin l ∧
    (if i < nmotors then effortLimitF[i]?.getD 0 else 0) = .fin l := by
  by_cases hi : i < 8
  · refine ⟨20, by norm_num, if_pos hi, ?_⟩
    interval_cases i <;> rfl
  · exact ⟨0, le_rfl, if_neg hi, if_neg hi⟩

section Cycles

variable [Rounding] (tanh : Double → Double) (wild : ℕ → Double) (c : Control)
  (robot : RobotSystemState Double) (motors : Motors Double)

theorem leaderStep_within (cmd : Option LeaderBilateralCommand) (limit : ℕ → Double)
    (hclamp : ∀ i tau, Double.Within (limit i) (c.clampLeaderEffort i tau)) :
    ∀ x ∈ (c.leaderStep tanh wild robot motors cmd).sent,
      x.Within limit fun i => limit (motors.arm.length + i) := by
  intro x hx
  simp only [Control.leaderStep] at hx
  split at hx
  · cases hx
  · simp only [List.mem_cons, List.not_mem_nil, or_false] at hx
    rcases hx with rfl | rfl
    · intro i cmd hget
      simp only [OpenArmJointConverter.jointToMotor, List.getElem?_map, List.getElem?_mapIdx,
        Option.map_map, Option.map_eq_some_iff] at hget
      obtain ⟨joint, -, rfl⟩ := hget
      exact hclamp i _
    · intro i cmd hget
      have hlen : (respond robot (OpenArmJointConverter.motorToJoint motors.arm)
          (OpenArmGripperJointConverter.motorToJoint motors.gripper)).armState.response.length =
          motors.arm.length := List.length_map _
      simp only [OpenArmGripperJointConverter.jointToMotor, List.getElem?_map,
        List.getElem?_mapIdx, Option.map_map, Option.map_eq_some_iff] at hget
      obtain ⟨joint, -, rfl⟩ := hget
      rw [← hlen]
      exact hclamp _ _

theorem feedforward_within (positions : List Double) (i : ℕ) :
    Double.Within (followerLimit i) (c.feedforward positions i) := by
  obtain ⟨l, hl, hfollower, hlim⟩ := followerLimit_spec i
  rw [hfollower]
  unfold Control.feedforward
  split
  · split
    · simp only [hlim]
      refine within_clamp l hl _ ?_
      split
      · assumption
      · rfl
    · exact within_zero l hl
  · exact within_zero l hl

theorem unilateralStep_within (hrole : c.role = .follower) :
    ∀ x ∈ (c.unilateralStep tanh wild robot motors).sent, x.Within followerLimit fun _ => 0 := by
  intro x hx
  simp only [Control.unilateralStep, hrole, List.mem_cons, List.not_mem_nil, or_false] at hx
  rcases hx with rfl | rfl
  · intro i cmd hget
    simp only [List.getElem?_mapIdx, Option.map_eq_some_iff] at hget
    obtain ⟨ref, -, rfl⟩ := hget
    dsimp only
    split
    · exact feedforward_within c _ i
    · obtain ⟨l, hl, hlimit, -⟩ := followerLimit_spec i
      rw [hlimit]
      exact within_zero l hl
  · intro i cmd hget
    simp only [List.getElem?_mapIdx, Option.map_eq_some_iff] at hget
    obtain ⟨ref, -, rfl⟩ := hget
    exact within_zero 0 le_rfl

/-- As a leader it is a leader cycle without a command. -/
theorem unilateralStep_leader (hrole : c.role = .leader) :
    c.unilateralStep tanh wild robot motors =
      c.leaderStep tanh wild (respond robot (OpenArmJointConverter.motorToJoint motors.arm)
        (OpenArmGripperJointConverter.motorToJoint motors.gripper)) motors none := by
  simp only [Control.unilateralStep, hrole]

end Cycles

theorem setAll_role (c : Control) (calls : List Setter) : (c.setAll calls).role = c.role := by
  induction calls generalizing c with
  | nil => rfl
  | cons call calls ih =>
    have hrole : (c.set call).role = c.role := by
      cases call <;> rfl
    exact (ih (c.set call)).trans hrole

/-- A cycle of the leader, with or without a command. -/
inductive LeaderCycle [Rounding] (tanh : Double → Double) (wild : ℕ → Double) (c : Control)
    (robot : RobotSystemState Double) (motors : Motors Double) : Cycle → Prop
  | leaderStep (cmd : Option LeaderBilateralCommand) :
      LeaderCycle tanh wild c robot motors (c.leaderStep tanh wild robot motors cmd)
  | unilateralStep : c.role = .leader →
      LeaderCycle tanh wild c robot motors (c.unilateralStep tanh wild robot motors)

/-- **No torque escapes the clamp.** After any setter calls, each torque that a cycle sends is
finite and within the limit of its joint, and a leader cycle with a friction vector that is too
short throws before it sends anything. -/
theorem torque_clamped [Rounding] (tanh : Double → Double) (wild : ℕ → Double) (role : Role)
    (dynamicsL : Dynamics) (dynamicsF : Option Dynamics) (calls : List Setter)
    (robot : RobotSystemState Double) (motors : Motors Double) :
    let c := (Control.new role dynamicsL dynamicsF).setAll calls
    (∀ cycle, LeaderCycle tanh wild c robot motors cycle →
      (∀ x ∈ cycle.sent, x.Within (leaderLimit calls)
        fun i => leaderLimit calls (motors.arm.length + i)) ∧
      (c.Short (motors.arm.length + motors.gripper.length) →
        cycle.result = .error .outOfRange ∧ cycle.sent = [])) ∧
    (role = .follower → ∀ x ∈ (c.unilateralStep tanh wild robot motors).sent,
      x.Within followerLimit fun _ => 0) := by
  intro c
  have hrole : c.role = role := setAll_role _ calls
  have hclamp : ∀ i tau, Double.Within (leaderLimit calls i) (c.clampLeaderEffort i tau) :=
    clampLeaderEffort_within role dynamicsL dynamicsF calls
  refine ⟨fun cycle hcycle => ?_, fun hfollower => ?_⟩
  · cases hcycle with
    | leaderStep cmd =>
      exact ⟨leaderStep_within tanh wild c robot motors cmd _ hclamp,
        leaderStep_throws tanh wild c robot motors cmd⟩
    | unilateralStep hleader =>
      rw [unilateralStep_leader tanh wild c robot motors hleader]
      exact ⟨leaderStep_within tanh wild c _ motors none _ hclamp,
        leaderStep_throws tanh wild c _ motors none⟩
  · exact unilateralStep_within tanh wild c robot motors (hrole.trans hfollower)

section Runs

attribute [local instance] Rounding.exact

def wildDynamics : Dynamics := ⟨fun _ _ => .nan, fun _ _ _ => .inf false⟩

def idle : Motors Double := ⟨.replicate 7 ⟨0, 0, 0⟩, [⟨0, 0, 0⟩]⟩

/-- Friction parameters for eight joints, and two limits of which one is no number. -/
def configured : List Setter :=
  [.setParameter [] [] (.replicate 8 1) (.replicate 8 1) (.replicate 8 1) (.replicate 8 1),
    .setEffortLimits [.fin 5, .nan]]

/-- At rest `std::tanh` is the identity. A leader with these parameters sends, one without them
throws. -/
theorem torque_clamped_leader :
    (∀ x ∈ (((Control.new .leader wildDynamics none).setAll configured).leaderStep id
        (fun _ => .nan) .new idle none).sent,
      x.Within (leaderLimit configured) fun i => leaderLimit configured (7 + i)) ∧
    (((Control.new .leader wildDynamics none).setAll configured).leaderStep id
        (fun _ => .nan) .new idle none).sent.length = 2 ∧
    (((Control.new .leader wildDynamics none).setAll []).leaderStep id
        (fun _ => .nan) .new idle none).sent = [] ∧
    ∀ x ∈ (((Control.new .follower wildDynamics none).setAll []).unilateralStep id
        (fun _ => .nan) .new idle).sent, x.Within followerLimit fun _ => 0 :=
  ⟨((torque_clamped id (fun _ => .nan) .leader wildDynamics none configured .new idle).1 _
      (.leaderStep none)).1, by decide +kernel,
    (((torque_clamped id (fun _ => .nan) .leader wildDynamics none [] .new idle).1 _
      (.leaderStep none)).2 (.inl (by decide))).2,
    (torque_clamped id (fun _ => .nan) .follower wildDynamics none [] .new idle).2 rfl⟩

end Runs

end OpenArmTeleop.Controller
