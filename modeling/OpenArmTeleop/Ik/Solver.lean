import OpenArmTeleop.Lib.Num

/-!
# The inverse kinematics

`openarm_pinocchio_ik.cpp`: damped least squares from a seed. What Pinocchio and Eigen compute is a
parameter.
-/

open Num

namespace OpenArmTeleop.Ik

abbrev Vec (n : ℕ) := Fin n → Double

abbrev Joints := Vec 7

structure IKParams where
  maxIterations : ℤ
  convergenceTolM : Double
  convergenceTolRad : Double
  damping : Double
  maxDqNorm : Double
  maxTaskStepM : Double
  maxTaskStepRad : Double
  nullspaceEnabled : Bool
  nullspacePostureGain : Double
  positionWeight : Double
  orientationWeight : Double

def IKParams.default : IKParams where
  maxIterations := 20
  convergenceTolM := 0.005
  convergenceTolRad := 0.05
  damping := 0.05
  maxDqNorm := 0.05
  maxTaskStepM := 0.02
  maxTaskStepRad := 0.1
  nullspaceEnabled := true
  nullspacePostureGain := 0.05
  positionWeight := 1.0
  orientationWeight := 0.1

structure Target where
  pos : Vec 3
  quatXyzw : Vec 4

/-- An error of a pose: `head<3>` is its position, `tail<3>` its orientation. -/
structure Twist where
  head : Vec 3
  tail : Vec 3

/-- A model, and what the libraries compute with it. -/
structure Kinematics where
  nq : ℕ
  nv : ℕ
  /-- Where the seven joints are in a configuration. -/
  idxQ : Fin 7 → Fin nq
  neutral : Vec nq
  lowerPositionLimit : Vec nq
  upperPositionLimit : Vec nq
  norm : {n : ℕ} → Vec n → Double
  normalized : {n : ℕ} → Vec n → Vec n
  /-- `log6` of the target in the frame of the end effector. -/
  poseError : Vec nq → Target → Twist
  /-- The damped pseudo-inverse of the Jacobian on an error. -/
  dampedSolve : Vec nq → Double → Twist → Vec nv
  difference : Vec nq → Vec nq → Vec nv
  /-- The projection into the null space of the Jacobian. -/
  project : Vec nq → Double → Vec nv → Vec nv
  integrate : Vec nq → Vec nv → Vec nq
  limits_le : ∀ i, lowerPositionLimit i ≤ upperPositionLimit i
  norm_not_neg : ∀ {n : ℕ} (v : Vec n), ¬ norm v < 0
  /-- The seven joints carry the end effector. -/
  poseError_joints : ∀ q q' target, (∀ i, q (idxQ i) = q' (idxQ i)) →
    poseError q target = poseError q' target

section Solver

variable (K : Kinematics)

/-- The neutral configuration with the seven joints set. -/
def place (joints : Joints) : Vec K.nq :=
  (List.finRange 7).foldl (fun q i => Function.update q (K.idxQ i) (joints i)) K.neutral

def joints (q : Vec K.nq) : Joints := fun i => q (K.idxQ i)

def clampLimits (q : Vec K.nq) : Vec K.nq := fun i =>
  stdMax (K.lowerPositionLimit i) (stdMin (K.upperPositionLimit i) (q i))

theorem foldl_update_joints (q : Vec K.nq) (i : Fin 7) (is : List (Fin 7)) (q₀ : Vec K.nq)
    (h : i ∈ is ∨ q₀ (K.idxQ i) = q (K.idxQ i)) :
    is.foldl (fun p j => Function.update p (K.idxQ j) (joints K q j)) q₀ (K.idxQ i) =
      q (K.idxQ i) := by
  induction is generalizing q₀ with
  | nil =>
    rcases h with hmem | hq₀
    · simp at hmem
    · exact hq₀
  | cons j is ih =>
    refine ih _ ?_
    rw [List.mem_cons] at h
    by_cases hij : K.idxQ i = K.idxQ j
    · exact .inr (by simp [hij, joints])
    · dsimp only
      rw [Function.update_of_ne hij]
      rcases h with (rfl | hmem) | hq₀
      · exact absurd rfl hij
      · exact .inl hmem
      · exact .inr hq₀

/-- What is written to `out_q` stands for the configuration it comes from. -/
theorem place_joints (q : Vec K.nq) (i : Fin 7) : place K (joints K q) (K.idxQ i) = q (K.idxQ i) :=
  foldl_update_joints K q i _ _ (.inl (List.mem_finRange i))

variable (params : IKParams) (target : Target) (anchor : Option Joints)

def errPos (q : Vec K.nq) : Double := K.norm (K.poseError q target).head

def converged (q : Vec K.nq) : Bool :=
  decide (errPos K target q < params.convergenceTolM) &&
    decide (K.norm (K.poseError q target).tail < params.convergenceTolRad)

/-- The error is one of the seven joints that are written. -/
theorem errPos_place_joints (q : Vec K.nq) :
    errPos K target (place K (joints K q)) = errPos K target q := by
  unfold errPos
  rw [K.poseError_joints _ _ _ (place_joints K q)]

variable [Rounding]

def clampNorm {n : ℕ} (v : Vec n) (maxNorm : Double) : Vec n :=
  if maxNorm < K.norm v then fun i => K.normalized v i * maxNorm else v

def taskStep (err : Twist) : Twist where
  head := fun i => clampNorm K err.head params.maxTaskStepM i * params.positionWeight
  tail := fun i => clampNorm K err.tail params.maxTaskStepRad i * params.orientationWeight

def deltaQ (q : Vec K.nq) : Vec K.nv :=
  let dq := K.dampedSolve q params.damping (taskStep K params (K.poseError q target))
  let posture :=
    match anchor.filter fun _ => params.nullspaceEnabled with
    | some anchor =>
      let postErr := K.difference q (place K anchor)
      let dqNs := K.project q params.damping fun i => params.nullspacePostureGain * postErr i
      fun i => dq i + dqNs i
    | none => dq
  clampNorm K posture params.maxDqNorm

/-- What an iteration that has not converged does to the joints. -/
def step (q : Vec K.nq) : Vec K.nq :=
  clampLimits K (K.integrate q (deltaQ K params target anchor q))

/-- `success`, the joints and `final_err_pos` after at most `n` iterations. -/
def iterate : ℕ → Vec K.nq → Double → Bool × Vec K.nq × Double
  | 0, q, finalErrPos => (false, q, finalErrPos)
  | n + 1, q, _ =>
    if converged K params target q then (true, q, errPos K target q)
    else iterate n (step K params target anchor q) (errPos K target q)

/-- What the solver returns and writes to `out_q`. -/
def solvePose (seed : Joints) : Bool × Joints :=
  let (success, q, finalErrPos) :=
    iterate K params target anchor params.maxIterations.toNat (place K seed) 0
  (success || decide (finalErrPos < params.convergenceTolM * 5.0), joints K q)

/-- Ignores the orientation. The weight is put back afterwards. -/
def solve (targetPos : Vec 3) (seed : Joints) : Bool × Joints :=
  solvePose K { params with orientationWeight := 0 } ⟨targetPos, ![0, 0, 0, 1]⟩ anchor seed

/-! ## What a success promises -/

def InLimits (out : Joints) : Prop :=
  ∀ i, K.lowerPositionLimit (K.idxQ i) ≤ out i ∧ out i ≤ K.upperPositionLimit (K.idxQ i)

/-- The joints reach the target, to five tolerances, within their limits. -/
def Reaches (out : Joints) : Prop :=
  errPos K target (place K out) < params.convergenceTolM * 5.0 ∧ InLimits K out

def Certified (r : Bool × Joints) : Prop := r.1 = true → Reaches K params target r.2

instance (out : Joints) : Decidable (InLimits K out) := inferInstanceAs (Decidable (∀ _, _ ∧ _))

instance (out : Joints) : Decidable (Reaches K params target out) :=
  inferInstanceAs (Decidable (_ ∧ _))

instance (r : Bool × Joints) : Decidable (Certified K params target r) :=
  inferInstanceAs (Decidable (_ → _))

/-- The joints after `k` iterations that do not converge. -/
def path (seed : Joints) (k : ℕ) : Vec K.nq := (step K params target anchor)^[k] (place K seed)

/-- Where a success would not be one: without an iteration the seed has to reach the target, a seed
that has converged has to be within the limits, and without convergence the last step may not lose
what the last error measured. -/
structure Honest (seed : Joints) : Prop where
  unstepped : params.maxIterations ≤ 0 → 0 < params.convergenceTolM * 5.0 →
    Reaches K params target (joints K (place K seed))
  atSeed : 0 < params.maxIterations → converged K params target (place K seed) = true →
    InLimits K (joints K (place K seed))
  lastStep : ∀ m : ℕ, params.maxIterations = m + 1 →
    (∀ k ≤ m, converged K params target (path K params target anchor seed k) = false) →
    errPos K target (path K params target anchor seed m) < params.convergenceTolM * 5.0 →
    errPos K target (path K params target anchor seed (m + 1)) < params.convergenceTolM * 5.0

/-! ## The loop -/

section Loop

variable {K params target anchor}

theorem reaches_joints (q : Vec K.nq) : Reaches K params target (joints K q) ↔
    errPos K target q < params.convergenceTolM * 5.0 ∧ InLimits K (joints K q) := by
  unfold Reaches
  rw [errPos_place_joints]

/-- A step ends within the limits. -/
theorem inLimits_step (q : Vec K.nq) : InLimits K (joints K (step K params target anchor q)) := by
  intro i
  exact Double.stdMax_stdMin_mem (K.limits_le (K.idxQ i)) _

theorem path_succ (seed : Joints) (k : ℕ) :
    path K params target anchor seed (k + 1) =
      step K params target anchor (path K params target anchor seed k) :=
  Function.iterate_succ_apply' ..

theorem iterate_of_converged {k n : ℕ} (hk : k < n) (q : Vec K.nq) (finalErrPos : Double)
    (hbefore : ∀ j < k, converged K params target ((step K params target anchor)^[j] q) = false)
    (hconv : converged K params target ((step K params target anchor)^[k] q) = true) :
    iterate K params target anchor n q finalErrPos =
      (true, (step K params target anchor)^[k] q,
        errPos K target ((step K params target anchor)^[k] q)) := by
  induction k generalizing n q finalErrPos with
  | zero =>
    obtain ⟨n, rfl⟩ : ∃ m, n = m + 1 := ⟨n - 1, by omega⟩
    have hstart : converged K params target q = true := hconv
    rw [iterate, if_pos hstart]
    rfl
  | succ k ih =>
    obtain ⟨n, rfl⟩ : ∃ m, n = m + 1 := ⟨n - 1, by omega⟩
    have hstart : converged K params target q = false := hbefore 0 k.succ_pos
    rw [iterate, if_neg (by simp [hstart])]
    exact ih (by omega) _ _ (fun j hj => hbefore (j + 1) (by omega)) hconv

theorem iterate_of_not_converged (n : ℕ) (q : Vec K.nq) (finalErrPos : Double)
    (hnone : ∀ j ≤ n, converged K params target ((step K params target anchor)^[j] q) = false) :
    iterate K params target anchor (n + 1) q finalErrPos =
      (false, (step K params target anchor)^[n + 1] q,
        errPos K target ((step K params target anchor)^[n] q)) := by
  induction n generalizing q finalErrPos with
  | zero =>
    have hstart : converged K params target q = false := hnone 0 (le_refl 0)
    rw [iterate, if_neg (by simp [hstart]), iterate]
    rfl
  | succ n ih =>
    have hstart : converged K params target q = false := hnone 0 (Nat.zero_le _)
    rw [iterate, if_neg (by simp [hstart]), ih _ _ fun j hj => hnone (j + 1) (by omega)]
    rfl

/-! ## The certificate -/

/-- Five tolerances are not less than one. -/
theorem lt_five_of_lt [Double.Lawful] {tol e : Double}
    (htol : ∀ x, tol = .fin x → Rounding.round x = .fin x) (he : ¬ e < 0) (h : e < tol) :
    e < tol * 5.0 := by
  have hfive : (5.0 : Double) = .fin 5 := congrArg Double.fin (by norm_num)
  rw [hfive]
  cases tol with
  | nan => exact absurd h (Double.not_lt_nan e)
  | inf n =>
    have hsign : decide ((5 : ℚ) < 0) = false := by norm_num
    change e < .inf (n != decide ((5 : ℚ) < 0))
    rwa [hsign, Bool.bne_false]
  | fin x =>
    have hx : 0 ≤ x := by
      cases e with
      | nan => exact absurd h (Double.not_nan_lt _)
      | inf n =>
        rw [Double.inf_lt_fin] at h
        subst h
        exact absurd ((Double.inf_lt_fin 0 true).mpr rfl) he
      | fin y =>
        have hy : 0 ≤ y := not_lt.mp fun hneg => he ((Double.fin_lt_fin y 0).mpr hneg)
        exact hy.trans ((Double.fin_lt_fin y x).mp h).le
    have hle : Rounding.round x ≤ Rounding.round (x * 5) :=
      Double.Lawful.round_mono (by linarith)
    rw [htol x rfl] at hle
    exact (Double.nan_or_lt_of_not_lt h fun hlt => Double.lt_asymm hlt hle).resolve_left
      (Rounding.round_ne_nan _)

theorem reaches_of_converged [Double.Lawful]
    (htol : ∀ x, params.convergenceTolM = .fin x → Rounding.round x = .fin x) {q : Vec K.nq}
    (hconv : converged K params target q = true) :
    Reaches K params target (joints K q) ↔ InLimits K (joints K q) := by
  rw [reaches_joints]
  simp only [converged, Bool.and_eq_true, decide_eq_true_eq] at hconv
  exact and_iff_right (lt_five_of_lt htol (K.norm_not_neg _) hconv.1)

variable (seed : Joints)

/-- Without an iteration the seed comes back. -/
theorem certified_unstepped (hnone : params.maxIterations ≤ 0) :
    Certified K params target (solvePose K params target anchor seed) ↔
      (0 < params.convergenceTolM * 5.0 → Reaches K params target (joints K (place K seed))) := by
  simp [Certified, solvePose, Int.toNat_of_nonpos hnone, iterate]

/-- The loop converges at the joints `k`. -/
theorem certified_converged [Double.Lawful]
    (htol : ∀ x, params.convergenceTolM = .fin x → Rounding.round x = .fin x) {k : ℕ}
    (hk : k < params.maxIterations.toNat)
    (hbefore : ∀ j < k, converged K params target (path K params target anchor seed j) = false)
    (hconv : converged K params target (path K params target anchor seed k) = true) :
    Certified K params target (solvePose K params target anchor seed) ↔
      InLimits K (joints K (path K params target anchor seed k)) := by
  have hloop := iterate_of_converged hk (place K seed) 0 hbefore hconv
  simp only [Certified, solvePose, hloop, Bool.true_or, forall_const]
  exact reaches_of_converged htol hconv

/-- The loop ends without convergence. -/
theorem certified_exhausted {m : ℕ} (hm : params.maxIterations = m + 1)
    (hnone : ∀ k ≤ m, converged K params target (path K params target anchor seed k) = false) :
    Certified K params target (solvePose K params target anchor seed) ↔
      (errPos K target (path K params target anchor seed m) < params.convergenceTolM * 5.0 →
        errPos K target (path K params target anchor seed (m + 1)) <
          params.convergenceTolM * 5.0) := by
  have hcount : params.maxIterations.toNat = m + 1 := by omega
  have hloop := iterate_of_not_converged m (place K seed) 0 hnone
  have hlimits : InLimits K (joints K (path K params target anchor seed (m + 1))) := by
    rw [path_succ]
    exact inLimits_step _
  simp only [Certified, solvePose, hcount, hloop, Bool.false_or, decide_eq_true_eq]
  rw [reaches_joints]
  exact imp_congr_right fun _ => and_iff_left hlimits

/-! ## The condition at the three exits -/

theorem honest_unstepped (hnone : params.maxIterations ≤ 0) :
    Honest K params target anchor seed ↔
      (0 < params.convergenceTolM * 5.0 → Reaches K params target (joints K (place K seed))) := by
  constructor
  · exact fun h => h.unstepped hnone
  · exact fun h => ⟨fun _ => h, fun hpos => absurd hpos (not_lt.mpr hnone), fun m hm => by omega⟩

theorem honest_converged {k : ℕ} (hk : k < params.maxIterations.toNat)
    (hbefore : ∀ j < k, converged K params target (path K params target anchor seed j) = false)
    (hconv : converged K params target (path K params target anchor seed k) = true) :
    Honest K params target anchor seed ↔
      InLimits K (joints K (path K params target anchor seed k)) := by
  have hpos : 0 < params.maxIterations := by omega
  have hlast : ∀ m : ℕ, params.maxIterations = m + 1 →
      ¬ ∀ j ≤ m, converged K params target (path K params target anchor seed j) = false := by
    intro m hm hnone
    rw [hnone k (by omega)] at hconv
    cases hconv
  cases k with
  | zero =>
    constructor
    · exact fun h => h.atSeed hpos hconv
    · exact fun h => ⟨fun hle => absurd hpos (not_lt.mpr hle), fun _ _ => h,
        fun m hm hnone => absurd hnone (hlast m hm)⟩
  -- the joints have been stepped into the limits
  | succ k =>
    rw [path_succ]
    refine iff_of_true ⟨fun hle => absurd hpos (not_lt.mpr hle), fun _ hseed => ?_,
      fun m hm hnone => absurd hnone (hlast m hm)⟩ (inLimits_step _)
    have hstart : converged K params target (place K seed) = false := hbefore 0 k.succ_pos
    rw [hstart] at hseed
    cases hseed

theorem honest_exhausted {m : ℕ} (hm : params.maxIterations = m + 1)
    (hnone : ∀ k ≤ m, converged K params target (path K params target anchor seed k) = false) :
    Honest K params target anchor seed ↔
      (errPos K target (path K params target anchor seed m) < params.convergenceTolM * 5.0 →
        errPos K target (path K params target anchor seed (m + 1)) <
          params.convergenceTolM * 5.0) := by
  constructor
  · exact fun h => h.lastStep m hm hnone
  · intro h
    refine ⟨fun hle => by omega, fun _ hseed => ?_, fun m' hm' _ => ?_⟩
    · have hstart : converged K params target (place K seed) = false := hnone 0 (Nat.zero_le m)
      rw [hstart] at hseed
      cases hseed
    · obtain rfl : m' = m := by omega
      exact h

theorem certified_iff [Double.Lawful]
    (htol : ∀ x, params.convergenceTolM = .fin x → Rounding.round x = .fin x) :
    Certified K params target (solvePose K params target anchor seed) ↔
      Honest K params target anchor seed := by
  rcases le_or_gt params.maxIterations 0 with hle | hpos
  · exact (certified_unstepped seed hle).trans (honest_unstepped seed hle).symm
  by_cases hex : ∃ k < params.maxIterations.toNat,
      converged K params target (path K params target anchor seed k) = true
  · obtain ⟨k, ⟨hk, hconv⟩, hfirst⟩ := Nat.findX hex
    have hbefore : ∀ j < k,
        converged K params target (path K params target anchor seed j) = false :=
      fun j hj => by simpa [hj.trans hk] using hfirst j hj
    exact (certified_converged seed htol hk hbefore hconv).trans
      (honest_converged seed hk hbefore hconv).symm
  · obtain ⟨m, hm⟩ : ∃ m : ℕ, params.maxIterations = m + 1 :=
      ⟨(params.maxIterations - 1).toNat, by omega⟩
    have hnone : ∀ j ≤ m,
        converged K params target (path K params target anchor seed j) = false := by
      intro j hj
      by_contra hconv
      exact hex ⟨j, by omega, by simpa using hconv⟩
    exact (certified_exhausted seed hm hnone).trans (honest_exhausted seed hm hnone).symm

end Loop

end Solver

section Line

attribute [local instance] Rounding.exact

/-- The largest entry, which is the norm of a vector along an axis. -/
def maxNorm {n : ℕ} (v : Vec n) : Double := (List.ofFn v).foldl (fun m x => stdMax m x.abs) 0

theorem maxNorm_not_neg {n : ℕ} (v : Vec n) : ¬ maxNorm v < 0 := by
  have hfold : ∀ (xs : List Double) (m : Double), ¬ m < 0 →
      ¬ xs.foldl (fun m x => stdMax m x.abs) m < 0 := by
    intro xs
    induction xs with
    | nil => exact fun m hm => hm
    | cons x xs ih => exact fun m hm => ih _ (Double.not_stdMax_lt hm _)
  exact hfold _ 0 (Double.lt_irrefl 0)

/-- The first of seven sliding joints carries the end effector along a line. -/
def line : Kinematics where
  nq := 7
  nv := 7
  idxQ := id
  neutral := fun _ => 0
  lowerPositionLimit := fun _ => .fin (-1)
  upperPositionLimit := fun _ => .fin 1
  norm := maxNorm
  normalized v := fun i => v i / maxNorm v
  poseError q target := ⟨![target.pos 0 - q 0, 0, 0], fun _ => 0⟩
  dampedSolve _ _ err := fun i => if i = 0 then err.head 0 else 0
  difference q q' := fun i => q' i - q i
  project _ _ v := fun i => if i = 0 then 0 else v i
  integrate q v := fun i => q i + v i
  limits_le _ := (Double.fin_le_fin _ _).mpr (by norm_num)
  norm_not_neg := maxNorm_not_neg
  poseError_joints q q' target h := by rw [show q 0 = q' 0 from h 0]

def onLine (x : ℚ) : Target := ⟨![.fin x, 0, 0], ![0, 0, 0, 1]⟩

end Line

end OpenArmTeleop.Ik
