import OpenArmTeleop.Controller.Torque

/-!
# The friction of all joints, in place

`Control::ComputeAllFriction` and `Control::ComputeFriction` on the arrays that they read and write.
A read or a write behind the end of an array is an outcome of its own.
-/

open Num OpenArmTeleop.Net

namespace OpenArmTeleop.Controller

namespace Friction

inductive Fault
  /-- `std::out_of_range`, thrown by `at`. -/
  | outOfRange
  /-- An access behind the end of an array through its pointer. -/
  | behind
  deriving DecidableEq

/-! ## The code -/

def load (xs : List Double) (i : ℕ) : Except Fault Double :=
  match xs[i]? with
  | some x => .ok x
  | none => .error .behind

def store (xs : List Double) (i : ℕ) (x : Double) : Except Fault (List Double) :=
  if i < xs.length then .ok (xs.set i x) else .error .behind

def checked (xs : List Double) (i : ℕ) : Except Fault Double :=
  match xs[i]? with
  | some x => .ok x
  | none => .error .outOfRange

/-- `assign` forgets what a vector held. -/
def assign (_ : List Double) (n : ℕ) (x : Double) : List Double := List.replicate n x

/-- `std::copy` to a place in `dst`. -/
def copyTo (dst : List Double) (offset : ℕ) (src : List Double) : List Double :=
  dst.take offset ++ src ++ dst.drop (offset + src.length)

section Code

variable [Rounding] (tanh : Double → Double) (c : Control)

/-- The friction of one joint at its velocity and with its parameters. -/
def friction (v fc k fv fo : Double) : Double := 1 * fc * tanh (0.1 * k * v) + fv * v + fo

def computeFriction (velocity out : List Double) (index : ℕ) : Except Fault (List Double) := do
  let v ← load velocity index
  let fc ← checked c.fc index
  let k ← checked c.k index
  let fv ← checked c.fv index
  let fo ← checked c.fo index
  store out index (friction tanh v fc k fv fo)

/-- The call on an output vector with any contents. -/
def computeAllFriction (armVelocity gripperVelocity out : List Double) :
    Except Fault (List Double) :=
  let velocity := List.replicate (armVelocity.length + gripperVelocity.length) 0
  let velocity := copyTo velocity 0 armVelocity
  let velocity := copyTo velocity armVelocity.length gripperVelocity
  (List.range velocity.length).foldlM (fun out i => computeFriction tanh c velocity out i)
    (assign out velocity.length 0)

end Code

/-! ## The loop -/

instance (c : Control) (n : ℕ) : Decidable (c.Short n) :=
  inferInstanceAs (Decidable (_ ∨ _ ∨ _ ∨ _))

theorem short_mono {c : Control} {m n : ℕ} (h : c.Short m) (hle : m ≤ n) : c.Short n := by
  rcases h with h | h | h | h
  · exact .inl (h.trans_le hle)
  · exact .inr (.inl (h.trans_le hle))
  · exact .inr (.inr (.inl (h.trans_le hle)))
  · exact .inr (.inr (.inr (h.trans_le hle)))

theorem copies (arm gripper : List Double) :
    copyTo (copyTo (List.replicate (arm.length + gripper.length) 0) 0 arm) arm.length gripper =
      arm ++ gripper := by
  simp [copyTo, List.drop_append]

section Loop

variable [Rounding] (tanh : Double → Double) (c : Control)

/-- What joint `i` gets at velocity `v`. -/
def entry (v : Double) (i : ℕ) : Double :=
  friction tanh v (c.fc[i]?.getD 0) (c.k[i]?.getD 0) (c.fv[i]?.getD 0) (c.fo[i]?.getD 0)

def entries (velocity : List Double) : List Double := velocity.mapIdx fun i v => entry tanh c v i

variable {tanh c}

theorem computeFriction_ok {velocity out : List Double} {i : ℕ} (hv : i < velocity.length)
    (ho : i < out.length) (hc : ¬ c.Short (i + 1)) :
    computeFriction tanh c velocity out i = .ok (out.set i (entry tanh c velocity[i] i)) := by
  simp only [Control.Short, not_or, not_lt] at hc
  obtain ⟨hfc, hk, hfv, hfo⟩ := hc
  simp only [computeFriction, load, checked, entry, List.getElem?_eq_getElem hv,
    List.getElem?_eq_getElem hfc, List.getElem?_eq_getElem hk, List.getElem?_eq_getElem hfv,
    List.getElem?_eq_getElem hfo]
  exact if_pos ho

theorem computeFriction_throws {velocity : List Double} (out : List Double) {i : ℕ}
    (hv : i < velocity.length) (hc : c.Short (i + 1)) :
    computeFriction tanh c velocity out i = .error .outOfRange := by
  simp only [computeFriction, load, checked, List.getElem?_eq_getElem hv]
  have hlt : ∀ {xs : List Double} {x}, xs[i]? = some x → ¬ xs.length < i + 1 :=
    fun h => not_lt.mpr (List.getElem?_eq_some_iff.mp h).1
  cases hfc : c.fc[i]? with
  | none => rfl
  | some fc =>
    cases hk : c.k[i]? with
    | none => rfl
    | some k =>
      cases hfv : c.fv[i]? with
      | none => rfl
      | some fv =>
        cases hfo : c.fo[i]? with
        | none => rfl
        | some fo =>
          rcases hc with h | h | h | h
          · exact absurd h (hlt hfc)
          · exact absurd h (hlt hk)
          · exact absurd h (hlt hfv)
          · exact absurd h (hlt hfo)

theorem entries_take {velocity : List Double} {m : ℕ} (hm : m < velocity.length) :
    entries tanh c (velocity.take (m + 1)) =
      entries tanh c (velocity.take m) ++ [entry tanh c velocity[m] m] := by
  rw [List.take_add_one, List.getElem?_eq_getElem hm, entries, List.mapIdx_append,
    List.length_take_of_le hm.le]
  simp [entries]

/-- After `m` joints the vector holds their entries, or a parameter was missing. -/
theorem loop_eq (velocity : List Double) (m : ℕ) (hm : m ≤ velocity.length) :
    (List.range m).foldlM (fun out i => computeFriction tanh c velocity out i)
        (List.replicate velocity.length 0) =
      if c.Short m then .error .outOfRange
      else .ok (entries tanh c (velocity.take m) ++ List.replicate (velocity.length - m) 0) := by
  induction m with
  | zero =>
    rw [if_neg (by simp [Control.Short])]
    rfl
  | succ m ih =>
    rw [List.range_succ, List.foldlM_append, ih (by omega)]
    by_cases hbefore : c.Short m
    · rw [if_pos hbefore, if_pos (short_mono hbefore (Nat.le_succ m))]
      rfl
    · rw [if_neg hbefore]
      change (computeFriction tanh c velocity _ m >>= pure) = _
      rw [bind_pure]
      by_cases hc : c.Short (m + 1)
      · rw [if_pos hc, computeFriction_throws _ (by omega) hc]
      · have hrest : velocity.length - m = velocity.length - (m + 1) + 1 := by omega
        rw [if_neg hc, computeFriction_ok (by omega) (by simp [entries]; omega) hc, hrest,
          List.replicate_succ, List.set_append_right _ _ (by simp [entries]), entries_take hm]
        simp [entries, Nat.min_eq_left (by omega : m ≤ velocity.length)]

/-- The call gives each joint its entry, or throws for a parameter that is missing. -/
theorem computeAllFriction_eq (arm gripper out : List Double) :
    computeAllFriction tanh c arm gripper out =
      if c.Short (arm.length + gripper.length) then .error .outOfRange
      else .ok (entries tanh c (arm ++ gripper)) := by
  have hloop := @loop_eq _ tanh c (arm ++ gripper) (arm ++ gripper).length le_rfl
  simp only [computeAllFriction, copies, assign]
  rw [hloop, List.take_length, Nat.sub_self, List.replicate_zero, List.append_nil, List.length_append]

theorem entries_arm {arm : List Double} (gripper : List Double) {i : ℕ} {v : Double}
    (h : arm[i]? = some v) : (entries tanh c (arm ++ gripper))[i]? = some (entry tanh c v i) := by
  obtain ⟨hi, -⟩ := List.getElem?_eq_some_iff.mp h
  rw [entries, List.getElem?_mapIdx, List.getElem?_append_left hi, h]
  rfl

theorem entries_gripper (arm : List Double) {gripper : List Double} {j : ℕ} {v : Double}
    (h : gripper[j]? = some v) :
    (entries tanh c (arm ++ gripper))[arm.length + j]? =
      some (entry tanh c v (arm.length + j)) := by
  rw [entries, List.getElem?_mapIdx, List.getElem?_append_right (Nat.le_add_right _ _),
    Nat.add_sub_cancel_left, h]
  rfl

/-! ## The cycle uses these values -/

/-- The friction of a cycle is what the call computes in place. -/
theorem computeAllFriction_cycle (wild : ℕ → Double) (arm gripper out : List Double) :
    computeAllFriction tanh c arm gripper out =
      (c.computeAllFriction tanh wild arm gripper).mapError fun _ => .outOfRange := by
  rw [computeAllFriction_eq]
  by_cases hshort : c.Short (arm.length + gripper.length)
  · rw [if_pos hshort, (computeAllFriction_error_iff tanh wild c arm gripper).mpr hshort]
    rfl
  · rw [if_neg hshort]
    simp only [Control.Short, not_or, not_lt] at hshort
    obtain ⟨hfc, hk, hfv, hfo⟩ := hshort
    have hcycle : c.computeAllFriction tanh wild arm gripper = .ok (entries tanh c (arm ++ gripper)) := by
      have hget : ∀ i ∈ List.range (arm ++ gripper).length,
          c.computeFriction tanh wild (arm ++ gripper) i =
            .ok (entry tanh c (readList wild (arm ++ gripper) i) i) := by
        intro i hi
        rw [List.mem_range, List.length_append] at hi
        simp only [Control.computeFriction, at'_get (hi.trans_le hfc), at'_get (hi.trans_le hk),
          at'_get (hi.trans_le hfv), at'_get (hi.trans_le hfo), entry, friction,
          List.getElem?_eq_getElem (hi.trans_le hfc), List.getElem?_eq_getElem (hi.trans_le hk),
          List.getElem?_eq_getElem (hi.trans_le hfv), List.getElem?_eq_getElem (hi.trans_le hfo)]
        rfl
      rw [Control.computeAllFriction, mapM_eq_pure _ hget, entries]
      refine congrArg Except.ok (List.ext_getElem (by simp) fun i hi _ => ?_)
      rw [List.length_map, List.length_range] at hi
      simp [readList, List.getElem?_eq_getElem hi]
    rw [hcycle]
    rfl

/-! ## Locality -/

/-- The friction parameters of joint `i`. -/
def paramsAt (c : Control) (i : ℕ) : Option Double × Option Double × Option Double × Option Double :=
  (c.fc[i]?, c.k[i]?, c.fv[i]?, c.fo[i]?)

theorem entry_congr {c c' : Control} {i i' : ℕ} (h : paramsAt c i = paramsAt c' i') (v : Double) :
    entry tanh c v i = entry tanh c' v i' := by
  simp only [paramsAt, Prod.mk.injEq] at h
  obtain ⟨hfc, hk, hfv, hfo⟩ := h
  rw [entry, entry, hfc, hk, hfv, hfo]

/-- **Friction is local to each joint.** With parameters for all joints the call returns one entry
each, made from the joint's own velocity and parameters, whatever the output vector held; with
fewer it throws. -/
theorem friction_local (tanh : Double → Double) (c : Control) (arm gripper out : List Double) :
    (¬ c.Short (arm.length + gripper.length) →
      ∃ values, computeAllFriction tanh c arm gripper out = .ok values ∧
        values.length = arm.length + gripper.length ∧
        (∀ (i : ℕ) v, arm[i]? = some v → values[i]? = some (entry tanh c v i)) ∧
        ∀ (j : ℕ) v, gripper[j]? = some v →
          values[arm.length + j]? = some (entry tanh c v (arm.length + j))) ∧
    (c.Short (arm.length + gripper.length) →
      computeAllFriction tanh c arm gripper out = .error .outOfRange) ∧
    ∀ (c' : Control) (arm' gripper' out' values values' : List Double),
      computeAllFriction tanh c arm gripper out = .ok values →
      computeAllFriction tanh c' arm' gripper' out' = .ok values' →
      (∀ (i : ℕ) v, arm[i]? = some v → arm'[i]? = some v → paramsAt c i = paramsAt c' i →
        values[i]? = values'[i]?) ∧
      ∀ (j : ℕ) v, gripper[j]? = some v → gripper'[j]? = some v →
        paramsAt c (arm.length + j) = paramsAt c' (arm'.length + j) →
        values[arm.length + j]? = values'[arm'.length + j]? := by
  have hok : ∀ {c : Control} {arm gripper out values : List Double},
      computeAllFriction tanh c arm gripper out = .ok values →
      values = entries tanh c (arm ++ gripper) := by
    intro c arm gripper out values h
    rw [computeAllFriction_eq] at h
    split at h
    · cases h
    · exact (Except.ok.inj h).symm
  refine ⟨fun hlong => ?_, fun hshort => ?_, ?_⟩
  · refine ⟨entries tanh c (arm ++ gripper), ?_, by simp [entries], fun i v h => entries_arm _ h,
      fun j v h => entries_gripper _ h⟩
    rw [computeAllFriction_eq, if_neg hlong]
  · rw [computeAllFriction_eq, if_pos hshort]
  · intro c' arm' gripper' out' values values' h h'
    rw [hok h, hok h']
    refine ⟨fun i v hv hv' hparams => ?_, fun j v hv hv' hparams => ?_⟩
    · rw [entries_arm _ hv, entries_arm _ hv', entry_congr hparams]
    · rw [entries_gripper _ hv, entries_gripper _ hv', entry_congr hparams]

end Loop

section Witness

attribute [local instance] Rounding.exact

/-- Seven arm joints at 100 and a gripper at 0.5, whose friction is twice its velocity. -/
theorem friction_local_gripper :
    let c := (Control.new .leader ⟨fun _ _ => 0, fun _ _ _ => 0⟩ none).set
      (.setParameter [] [] (.replicate 8 0) (.replicate 8 1) (.replicate 7 0 ++ [.fin 2])
        (.replicate 8 0))
    ∃ values, computeAllFriction id c (.replicate 7 (.fin 100)) [0.5] [] = .ok values ∧
      values.length = 8 ∧ values[7]? = some (.fin 1) := by
  intro c
  obtain ⟨values, hvalues, hlength, -, hgripper⟩ :=
    (friction_local id c (.replicate 7 (.fin 100)) [0.5] []).1 (by decide)
  exact ⟨values, hvalues, hlength, (hgripper 0 _ rfl).trans (by decide +kernel)⟩

end Witness

end Friction

end OpenArmTeleop.Controller
