import OpenArmTeleop.Follower.References

/-!
# The reference update with checked reads

The same update, in which a read outside an array of the packet fails.
-/

open Num OpenArmTeleop.Net OpenArmTeleop.Control OpenArmTeleop.Safety

namespace OpenArmTeleop.Follower

variable {K : Type}

def overlay? {n : ℕ} (refs : List (JointState K)) (positions : List K) (velocity : Vector K n) :
    Option (List (JointState K)) :=
  refs.zipIdx.mapM fun (ref, i) =>
    match positions[i]? with
    | some position => velocity[i]?.map fun v => { ref with position := position, velocity := v }
    | none => some ref

theorem overlay?_eq {n : ℕ} (refs : List (JointState K)) (positions : List K) (velocity : Vector K n)
    (wild : ℕ → K) :
    overlay? refs positions velocity =
      if min refs.length positions.length ≤ n then
        some (overlay refs positions (readAt velocity wild))
      else none := by
  have hread : ∀ x : JointState K × ℕ, (match positions[x.2]? with
      | some position =>
        velocity[x.2]?.map fun v => { x.1 with position := position, velocity := v }
      | none => some x.1) =
      if x.2 < positions.length → x.2 < n then
        some (match positions[x.2]? with
          | some position =>
            { x.1 with position := position, velocity := readAt velocity wild x.2 }
          | none => x.1)
      else none := by
    intro x
    by_cases hpos : x.2 < positions.length
    · rw [List.getElem?_eq_getElem hpos, getElem?_eq_readAt velocity wild]
      by_cases hn : x.2 < n <;> simp [hpos, hn]
    · rw [List.getElem?_eq_none (not_lt.mp hpos), if_pos fun h => absurd h hpos]
  rw [overlay?, mapM_eq_ite _ _ hread]
  refine if_congr ?_ ?_ rfl
  · constructor
    · intro h
      by_contra hlt
      rw [not_le, lt_min_iff] at hlt
      have hmem : (refs[n], n) ∈ refs.zipIdx := List.mem_zipIdx_iff_getElem?.mpr (by simp [hlt.1])
      exact lt_irrefl n (h _ hmem hlt.2)
    · rintro h ⟨ref, i⟩ hmem hpos
      obtain ⟨hi, -⟩ := List.getElem?_eq_some_iff.mp (List.mem_zipIdx_iff_getElem?.mp hmem)
      exact (lt_min hi hpos).trans_le h
  · refine congrArg some (Eq.symm ?_)
    unfold overlay
    exact List.mapIdx_eq_zipIdx_map

section Code

variable [Add K] [Sub K] [Mul K] [Neg K] [LT K] [DecidableLT K]

def applyTarget? (limiter : RateLimiter K) (robot : RobotSystemState K) (p : TeleopPacket K) :
    Option (RobotSystemState K) := do
  let armRefs := robot.armState.reference
  let handRefs := robot.handState.reference
  let armPos ← readFirst? p.armPos p.armDof
  let handPos ← readFirst? p.handPos p.handDof
  let tarPos := limiter.limit robot.referencePositions (armPos ++ handPos)
  let arm ← overlay? armRefs tarPos p.armVel
  let hand ← overlay? handRefs (tarPos.drop armRefs.length) p.handVel
  return robot.setAllReferences arm hand

/-- Each index that an update of `m` arm joints and `n` hand joints uses is inside its array. -/
def InBounds (m n : ℕ) (p : TeleopPacket K) : Prop :=
  p.armDof.toNat ≤ 8 ∧ p.handDof.toNat ≤ 4 ∧ min m (p.armDof.toNat + p.handDof.toNat) ≤ 8 ∧
    min n (p.armDof.toNat + p.handDof.toNat - m) ≤ 4

instance (m n : ℕ) (p : TeleopPacket K) : Decidable (InBounds m n p) :=
  inferInstanceAs (Decidable (_ ∧ _ ∧ _ ∧ _))

/-- With checked reads the update is the same, or fails when an index is outside. -/
theorem applyTarget?_eq (limiter : RateLimiter K) (robot : RobotSystemState K) (p : TeleopPacket K)
    (behind : Overread K) :
    applyTarget? limiter robot p =
      if InBounds robot.armState.reference.length robot.handState.reference.length p then
        some (applyTarget limiter robot p behind)
      else none := by
  have hlimit : ∀ current target : List K,
      (limiter.limit current target).length = target.length := by
    intro current target
    by_cases h : current.length = target.length
    · rw [limiter.limit_of_length_eq _ _ h]
      simp [h]
    · rw [limiter.limit_of_length_ne _ _ h]
  rw [applyTarget?, readFirst?_eq p.armPos behind.armPos, readFirst?_eq p.handPos behind.handPos]
  by_cases harm : p.armDof.toNat ≤ 8
  swap
  · simp only [InBounds, harm, false_and, if_false]
    rfl
  by_cases hhand : p.handDof.toNat ≤ 4
  swap
  · simp only [InBounds, harm, hhand, false_and, and_false, if_true, if_false]
    rfl
  rw [if_pos harm, if_pos hhand]
  simp only [Option.bind_eq_bind, Option.bind_some]
  rw [overlay?_eq _ _ p.armVel behind.armVel, overlay?_eq _ _ p.handVel behind.handVel]
  simp only [List.length_drop, hlimit, List.length_append, List.length_map, List.length_range,
    InBounds, harm, hhand, true_and]
  by_cases harmVel : min robot.armState.reference.length (p.armDof.toNat + p.handDof.toNat) ≤ 8
  swap
  · simp only [harmVel, false_and, if_false]
    rfl
  by_cases hhandVel : min robot.handState.reference.length
      (p.armDof.toNat + p.handDof.toNat - robot.armState.reference.length) ≤ 4
  · simp only [harmVel, hhandVel, and_self, if_true]
    rfl
  · simp only [harmVel, hhandVel, and_false, if_true, if_false]
    rfl

end Code

end OpenArmTeleop.Follower
