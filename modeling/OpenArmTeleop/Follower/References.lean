import OpenArmTeleop.Control.Joint
import OpenArmTeleop.Net.Packet
import OpenArmTeleop.Safety.RateLimiter

/-!
# How a command moves the references

The reference update of one arm in `wifi_bimanual_follower.cpp`.
-/

open Num OpenArmTeleop.Net OpenArmTeleop.Control OpenArmTeleop.Safety

namespace OpenArmTeleop.Follower

variable {K : Type}

/-- What a read behind the end of each array of the packet returns. -/
structure Overread (K : Type) where
  armPos : ℕ → K
  armVel : ℕ → K
  handPos : ℕ → K
  handVel : ℕ → K

/-- The target, by the counts that the packet states. -/
def targetPositions (p : TeleopPacket K) (behind : Overread K) : List K :=
  (List.range p.armDof.toNat).map (readAt p.armPos behind.armPos) ++
    (List.range p.handDof.toNat).map (readAt p.handPos behind.handPos)

@[simp] theorem length_targetPositions (p : TeleopPacket K) (behind : Overread K) :
    (targetPositions p behind).length = p.armDof.toNat + p.handDof.toNat := by
  simp [targetPositions]

/-- Copies positions over the references, as far as both go. -/
def overlay (refs : List (JointState K)) (positions : List K) (velocity : ℕ → K) :
    List (JointState K) :=
  refs.mapIdx fun i ref =>
    match positions[i]? with
    | some position => { ref with position := position, velocity := velocity i }
    | none => ref

section Code

variable [Add K] [Sub K] [Mul K] [Neg K] [LT K] [DecidableLT K]

def applyTarget (limiter : RateLimiter K) (robot : RobotSystemState K) (p : TeleopPacket K)
    (behind : Overread K) : RobotSystemState K :=
  let armRefs := robot.armState.reference
  let handRefs := robot.handState.reference
  let tarPos := limiter.limit robot.referencePositions (targetPositions p behind)
  robot.setAllReferences (overlay armRefs tarPos (readAt p.armVel behind.armVel))
    (overlay handRefs (tarPos.drop armRefs.length) (readAt p.handVel behind.handVel))

end Code

/-! ## The positions alone -/

def lay {α : Type} : List α → List α → List α
  | _ :: cs, t :: ts => t :: lay cs ts
  | cs, [] => cs
  | [], _ :: _ => []

@[simp] theorem lay_nil {α : Type} (cs : List α) : lay cs [] = cs := by
  cases cs <;> rfl

theorem lay_append {α : Type} (as bs ts : List α) :
    lay (as ++ bs) ts = lay as ts ++ lay bs (ts.drop as.length) := by
  induction as generalizing ts with
  | nil => cases ts <;> simp [lay]
  | cons a as ih =>
    cases ts with
    | nil => simp
    | cons t ts => simp [lay, ih]

theorem positions_overlay (refs : List (JointState K)) (ts : List K) (velocity : ℕ → K) :
    RobotSystemState.positions (overlay refs ts velocity) =
      lay (RobotSystemState.positions refs) ts := by
  induction refs generalizing ts velocity with
  | nil => cases ts <;> rfl
  | cons ref refs ih =>
    cases ts with
    | nil =>
      have := ih [] fun i => velocity (i + 1)
      simpa [RobotSystemState.positions, overlay, List.mapIdx_cons] using this
    | cons t ts =>
      have := ih ts fun i => velocity (i + 1)
      simpa [RobotSystemState.positions, overlay, List.mapIdx_cons, lay] using this

theorem referencePositions_applyTarget [Add K] [Sub K] [Mul K] [Neg K] [LT K] [DecidableLT K]
    (limiter : RateLimiter K) (robot : RobotSystemState K) (p : TeleopPacket K)
    (behind : Overread K) :
    (applyTarget limiter robot p behind).referencePositions =
      lay robot.referencePositions
        (limiter.limit robot.referencePositions (targetPositions p behind)) := by
  conv_rhs => rw [RobotSystemState.referencePositions, lay_append]
  rw [RobotSystemState.length_positions, ← RobotSystemState.referencePositions]
  exact congrArg₂ _ (positions_overlay _ _ _) (positions_overlay _ _ _)

/-! ## The slew limit of one update -/

/-- Every reference position was finite and has moved by at most `δ`. -/
def Slewed (δ : ℚ) (before after : List Double) : Prop :=
  List.Forall₂ (RateLimiter.Near δ) before after

instance (δ : ℚ) (before after : List Double) : Decidable (Slewed δ before after) :=
  inferInstanceAs (Decidable (List.Forall₂ _ _ _))

theorem Slewed.finite {δ : ℚ} {before after : List Double} (h : Slewed δ before after) :
    ∀ x ∈ after, x.isFinite = true := by
  induction h with
  | nil => simp
  | cons hx _ ih => exact List.forall_mem_cons.mpr ⟨hx.isFinite, ih⟩

theorem slewed_lay_iff (δ : ℚ) (hδ : 0 ≤ δ) (cs ts : List Double)
    (hcs : ∀ c ∈ cs, c.isFinite = true) :
    Slewed δ cs (lay cs ts) ↔ ∀ x ∈ cs.zip ts, RateLimiter.Near δ x.1 x.2 := by
  induction cs generalizing ts with
  | nil => cases ts <;> simp [lay, Slewed]
  | cons c cs ih =>
    obtain ⟨hc, hrest⟩ := List.forall_mem_cons.mp hcs
    obtain ⟨x, rfl⟩ := (Double.isFinite_iff c).mp hc
    cases ts with
    | nil =>
      have hnil := (ih [] hrest).mpr (by simp)
      rw [lay_nil] at hnil ⊢
      exact iff_of_true (.cons (RateLimiter.near_self δ x hδ) hnil) (by simp)
    | cons t ts =>
      rw [lay, Slewed, List.forall₂_cons, List.zip_cons_cons, List.forall_mem_cons]
      exact and_congr_right fun _ => ih ts hrest

section Exact

attribute [local instance] Rounding.exact

theorem near_zip_limit_iff (δ : ℚ) (hδ : 0 ≤ δ) (cs ts : List Double)
    (hcs : ∀ c ∈ cs, c.isFinite = true) (hlen : cs.length = ts.length) :
    (∀ x ∈ cs.zip (List.zipWith (RateLimiter.limitJoint (.fin δ)) cs ts),
      RateLimiter.Near δ x.1 x.2) ↔ Double.nan ∉ ts := by
  induction cs generalizing ts with
  | nil =>
    obtain rfl := List.length_eq_zero_iff.mp hlen.symm
    simp
  | cons c cs ih =>
    cases ts with
    | nil => simp at hlen
    | cons t ts =>
      obtain ⟨hc, hrest⟩ := List.forall_mem_cons.mp hcs
      obtain ⟨x, rfl⟩ := (Double.isFinite_iff c).mp hc
      rw [List.zipWith_cons_cons, List.zip_cons_cons, List.forall_mem_cons,
        ih ts hrest (by simpa using hlen), RateLimiter.limitJoint_near_iff δ x hδ]
      simp [eq_comm]

/-- The limiter sees the whole command and no NaN, or the command needs no limit. -/
def WithinLimit (δ : ℚ) (current target : List Double) : Prop :=
  (current.length = target.length ∧ Double.nan ∉ target) ∨
    ∀ x ∈ current.zip target, RateLimiter.Near δ x.1 x.2

instance (δ : ℚ) (current target : List Double) : Decidable (WithinLimit δ current target) :=
  inferInstanceAs (Decidable (_ ∧ _ ∨ _))

theorem slewed_applyTarget_iff (limiter : RateLimiter Double) (δ : ℚ) (hδ : 0 ≤ δ)
    (hlimit : limiter.effectiveMaxDelta = .fin δ) (robot : RobotSystemState Double)
    (p : TeleopPacket Double) (behind : Overread Double)
    (hfin : ∀ c ∈ robot.referencePositions, c.isFinite = true) :
    Slewed δ robot.referencePositions (applyTarget limiter robot p behind).referencePositions ↔
      WithinLimit δ robot.referencePositions (targetPositions p behind) := by
  rw [referencePositions_applyTarget, slewed_lay_iff δ hδ _ _ hfin, WithinLimit]
  by_cases hlen : robot.referencePositions.length = (targetPositions p behind).length
  · rw [limiter.limit_of_length_eq _ _ hlen, hlimit, near_zip_limit_iff δ hδ _ _ hfin hlen]
    refine ⟨fun h => .inl ⟨hlen, h⟩, ?_⟩
    rintro (⟨-, h⟩ | h)
    · exact h
    · -- a target within the step of a finite reference is itself finite
      intro hnan
      obtain ⟨i, hi, hget⟩ := List.mem_iff_getElem.mp hnan
      have hi' : i < robot.referencePositions.length := hlen ▸ hi
      have hmem : (robot.referencePositions[i], (targetPositions p behind)[i]) ∈
          robot.referencePositions.zip (targetPositions p behind) :=
        List.mem_iff_getElem.mpr ⟨i, by simpa using ⟨hi', by simpa using hi⟩, by simp⟩
      have := (h _ hmem).isFinite
      simp [hget] at this
  · rw [limiter.limit_of_length_ne _ _ hlen]
    exact ⟨.inr, fun h => h.resolve_left fun h => hlen h.1⟩

end Exact

end OpenArmTeleop.Follower
