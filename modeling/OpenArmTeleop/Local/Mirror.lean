import OpenArmTeleop.Lib.Sampling
import OpenArmTeleop.Lib.Trace
import OpenArmTeleop.Local.Steps

/-!
# Each arm goes where the other one was

Whatever the order of the threads, the commands of an arm are poses that the other one had, in their
order, and nothing is sent to an arm that is disabled.
-/

open Num Run Sampling OpenArmTeleop.Control OpenArmTeleop.Controller

namespace OpenArmTeleop.Local

/-! ## What a history says of an arm -/

section History

variable (s : Side) (p : Part) (h : List Event)

/-- What the motors of a part showed, each time that it became the response. -/
def shown : List (List (MotorState Double)) :=
  h.filterMap fun
    | .setResponse s' p' motors => if s' = s ∧ p' = p then some motors else none
    | _ => none

def fetched : List (List (JointState Double)) :=
  h.filterMap fun
    | .getResponse s' p' joints => if s' = s ∧ p' = p then some joints else none
    | _ => none

def handed : List (List (JointState Double)) :=
  h.filterMap fun
    | .setReference s' p' joints => if s' = s ∧ p' = p then some joints else none
    | _ => none

def used : List (List (JointState Double)) :=
  h.filterMap fun
    | .getReference s' p' joints => if s' = s ∧ p' = p then some joints else none
    | _ => none

/-- The commands for a part in what a cycle has sent. -/
def sentTo : Part → List Sent → Option (List (MITParam Double))
  | .arm, .arm cmds :: _ => some cmds
  | .hand, _ :: .gripper cmds :: _ => some cmds
  | _, _ => none

/-- Where the motors of a part were sent to. -/
def commanded : List (List (Double × Double)) :=
  h.filterMap fun
    | .sent s' cmds => if s' = s then (sentTo p cmds).map (·.map MITParam.motion) else none
    | _ => none

end History

section

variable {s s' : Side} {p p' : Part} {h : List Event}

@[simp] theorem shown_setResponse (motors : List (MotorState Double)) :
    shown s p (.setResponse s' p' motors :: h) =
      if s' = s ∧ p' = p then motors :: shown s p h else shown s p h := by
  unfold shown
  rw [List.filterMap_cons]
  dsimp only
  split_ifs <;> rfl

@[simp] theorem fetched_getResponse (joints : List (JointState Double)) :
    fetched s p (.getResponse s' p' joints :: h) =
      if s' = s ∧ p' = p then joints :: fetched s p h else fetched s p h := by
  unfold fetched
  rw [List.filterMap_cons]
  dsimp only
  split_ifs <;> rfl

@[simp] theorem handed_setReference (joints : List (JointState Double)) :
    handed s p (.setReference s' p' joints :: h) =
      if s' = s ∧ p' = p then joints :: handed s p h else handed s p h := by
  unfold handed
  rw [List.filterMap_cons]
  dsimp only
  split_ifs <;> rfl

@[simp] theorem used_getReference (joints : List (JointState Double)) :
    used s p (.getReference s' p' joints :: h) =
      if s' = s ∧ p' = p then joints :: used s p h else used s p h := by
  unfold used
  rw [List.filterMap_cons]
  dsimp only
  split_ifs <;> rfl

theorem commanded_sent (cmds : List Sent) :
    commanded s p (.sent s' cmds :: h) =
      (if s' = s then (sentTo p cmds).map (·.map MITParam.motion) else none).toList ++
        commanded s p h := by
  unfold commanded
  rw [List.filterMap_cons]
  dsimp only
  generalize (if s' = s then (sentTo p cmds).map (·.map MITParam.motion) else none) = motion
  cases motion <;> rfl

end

/-! ## The state behind the history -/

/-- A response of the other arm is on its way to become a reference. -/
def pending (place : Place Handover) (s : Side) (p : Part) : Bool :=
  match place with
  | .inside rest => decide (.setReference s p ∈ rest ∧ .getResponse s.other p ∉ rest)
  | _ => false

/-- The references of a part have been read in this cycle. -/
def fresh (place : Place Access) (p : Part) : Bool :=
  match place with
  | .inside rest => decide (.getReference p ∉ rest)
  | _ => false

theorem pending_getResponse {s' : Side} {p' : Part} {rest : List Handover}
    (h : .getResponse s' p' :: rest <:+ handovers) (s : Side) (p : Part) :
    if s' = s.other ∧ p' = p then
      pending (.inside (.getResponse s' p' :: rest)) s p = false ∧ pending (.inside rest) s p = true
    else pending (.inside (.getResponse s' p' :: rest)) s p = pending (.inside rest) s p := by
  have hall : ∀ l ∈ handovers.tails, ∀ s' ∈ [Side.leader, .follower], ∀ p' ∈ [Part.arm, .hand],
      ∀ s ∈ [Side.leader, .follower], ∀ p ∈ [Part.arm, .hand],
      l.head? = some (.getResponse s' p') →
      if s' = s.other ∧ p' = p then
        pending (.inside l) s p = false ∧ pending (.inside l.tail) s p = true
      else pending (.inside l) s p = pending (.inside l.tail) s p := by
    decide
  exact hall _ ((List.mem_tails _ _).mpr h) s' (by cases s' <;> simp) p' (by cases p' <;> simp) s
    (by cases s <;> simp) p (by cases p <;> simp) rfl

theorem pending_setReference {s' : Side} {p' : Part} {rest : List Handover}
    (h : .setReference s' p' :: rest <:+ handovers) (s : Side) (p : Part) :
    if s' = s ∧ p' = p then
      pending (.inside (.setReference s' p' :: rest)) s p = true ∧ pending (.inside rest) s p = false
    else pending (.inside (.setReference s' p' :: rest)) s p = pending (.inside rest) s p := by
  have hall : ∀ l ∈ handovers.tails, ∀ s' ∈ [Side.leader, .follower], ∀ p' ∈ [Part.arm, .hand],
      ∀ s ∈ [Side.leader, .follower], ∀ p ∈ [Part.arm, .hand],
      l.head? = some (.setReference s' p') →
      if s' = s ∧ p' = p then
        pending (.inside l) s p = true ∧ pending (.inside l.tail) s p = false
      else pending (.inside l) s p = pending (.inside l.tail) s p := by
    decide
  exact hall _ ((List.mem_tails _ _).mpr h) s' (by cases s' <;> simp) p' (by cases p' <;> simp) s
    (by cases s <;> simp) p (by cases p <;> simp) rfl

section Flow

variable [Rounding] (cfg : Config)

/-- What the responses of an arm have been, with its pose after the adjustment. -/
def responses (s : Side) (p : Part) (h : List Event) : List (List (JointState Double)) :=
  (shown s p h).map (motorToJoint p) ++ [cfg.settled s p]

/-- What its references have been. -/
def references (s : Side) (p : Part) (h : List Event) : List (List (JointState Double)) :=
  handed s p h ++ [cfg.settled s p]

/-- Where some references send the motors. -/
def motions (p : Part) (joints : List (JointState Double)) : List (Double × Double) :=
  (jointToMotor p joints).map MotorState.motion

def Config.num : Part → ℕ
  | .arm => cfg.armNum
  | .hand => cfg.handNum

/-- The state of an arm is the newest of the history, and what is read is read in order. -/
structure FlowInv (st : State cfg) (h : List Event) (s : Side) (p : Part) : Prop where
  response : (responses cfg s p h).head? = some (st.robot s p).response
  sized : ∀ joints ∈ responses cfg s p h, joints.length = cfg.num p
  fetches : Sampled (responses cfg s p h) (fetched s p h)
  hands : fetched s.other p h =
    (if pending st.admin.place s p then [st.admin.resp s.other p] else []) ++ handed s p h
  reference : (references cfg s p h).head? = some (st.robot s p).reference
  uses : Sampled (references cfg s p h) (used s p h)
  ref : cfg.Follows s → fresh (st.arm s).place p = true →
    (used s p h).head? = some ((st.arm s).ref p)
  sends : cfg.Follows s → Sampled ((used s p h).map (motions p)) (commanded s p h)

section FlowInv

variable {cfg} {st st' : State cfg} {h : List Event} {s : Side} {p : Part}

theorem length_settled (s : Side) (p : Part) : (cfg.settled s p).length = cfg.num p := by
  cases p <;> simp [Config.settled, motorToJoint, OpenArmJointConverter.motorToJoint,
    OpenArmGripperJointConverter.motorToJoint, Readings.noEffort, Readings.part, Config.num]

theorem length_motorToJoint_part (r : Readings cfg.armNum cfg.handNum) (p : Part) :
    (motorToJoint p (r.part p)).length = cfg.num p := by
  cases p <;> simp [motorToJoint, OpenArmJointConverter.motorToJoint,
    OpenArmGripperJointConverter.motorToJoint, Readings.part, Config.num]

theorem flowInv_start (s : Side) (p : Part) : FlowInv cfg (State.start cfg) [] s p where
  response := rfl
  sized joints hj := by
    rw [List.mem_singleton.mp hj]
    exact length_settled s p
  fetches := .nil _
  hands := rfl
  reference := rfl
  uses := .nil _
  ref _ hfresh := by cases hfresh
  sends _ := .nil _

/-- Nothing happens to the part. -/
theorem FlowInv.frame (hI : FlowInv cfg st h s p) (hrobot : st'.robot s p = st.robot s p)
    (hpending : pending st'.admin.place s p = pending st.admin.place s p)
    (hresp : st'.admin.resp s.other p = st.admin.resp s.other p)
    (hfresh : cfg.Follows s → fresh (st'.arm s).place p = true →
      fresh (st.arm s).place p = true ∧ (st'.arm s).ref p = (st.arm s).ref p) :
    FlowInv cfg st' h s p where
  response := by rw [hrobot]; exact hI.response
  sized := hI.sized
  fetches := hI.fetches
  hands := by rw [hpending, hresp]; exact hI.hands
  reference := by rw [hrobot]; exact hI.reference
  uses := hI.uses
  ref hfollows hf := by
    obtain ⟨hold, href⟩ := hfresh hfollows hf
    rw [href]
    exact hI.ref hfollows hold
  sends := hI.sends

/-- The thread of an arm goes on without a look at the references. -/
theorem FlowInv.setArm (hI : FlowInv cfg st h s p) {s' : Side} {n : ArmThread cfg}
    (href : n.ref = (st.arm s').ref)
    (hfresh : cfg.Follows s' → fresh n.place p = true → fresh (st.arm s').place p = true) :
    FlowInv cfg (st.setArm s' n) h s p := by
  refine hI.frame rfl rfl rfl fun hfollows hf => ?_
  rcases eq_or_ne s s' with rfl | hne
  · simp only [State.setArm, Function.update_self] at hf ⊢
    exact ⟨hfresh hfollows hf, congrFun href p⟩
  · simp only [State.setArm, Function.update_of_ne hne, and_true] at hf ⊢
    exact hf

theorem FlowInv.startThread (hI : FlowInv cfg st h s p) (hO : OrderInv st h) {t : Thread}
    {rest : List Op} (hmain : st.main = .startThread t :: rest) :
    FlowInv cfg (State.startThread { st with main := rest } t) h s p := by
  have hmem : .startThread t ∈ st.main := hmain ▸ List.mem_cons_self
  cases t with
  | control s' =>
    have hnext : FlowInv cfg
        { st with main := rest, isRunning := Function.update st.isRunning (.control s') true } h s p :=
      hI.frame rfl rfl rfl fun _ hf => ⟨hf, rfl⟩
    exact hnext.setArm rfl fun _ hf => by cases hf
  | admin =>
    refine hI.frame rfl ?_ rfl fun _ hf => ⟨hf, rfl⟩
    rw [hO.adminIdle hmem]
    rfl

omit [Rounding] in
theorem robot_setRobot (s' : Side) (p' : Part) (r : RobotState Double) :
    (st.setRobot s' p' r).robot s p = if s' = s ∧ p' = p then r else st.robot s p := by
  unfold State.setRobot
  dsimp only
  rcases eq_or_ne s' s with rfl | hs
  · rcases eq_or_ne p' p with rfl | hp
    · simp
    · simp [hp, hp.symm]
  · simp [hs, hs.symm]

theorem FlowInv.setResponse (hI : FlowInv cfg st h s p) (s' : Side) (p' : Part)
    (r : Readings cfg.armNum cfg.handNum) :
    FlowInv cfg
      (st.setRobot s' p' { st.robot s' p' with response := motorToJoint p' (r.part p') })
      (.setResponse s' p' (r.part p') :: h) s p := by
  by_cases hsp : s' = s ∧ p' = p
  · obtain ⟨rfl, rfl⟩ := hsp
    have hnew : responses cfg s' p' (.setResponse s' p' (r.part p') :: h) =
        motorToJoint p' (r.part p') :: responses cfg s' p' h := by
      simp [responses]
    refine ⟨?_, ?_, ?_, hI.hands, ?_, hI.uses, hI.ref, hI.sends⟩
    · rw [hnew, robot_setRobot, if_pos ⟨rfl, rfl⟩]
      rfl
    · rw [hnew]
      exact List.forall_mem_cons.mpr ⟨length_motorToJoint_part r p', hI.sized⟩
    · rw [hnew]
      exact .write _ hI.fetches
    · rw [robot_setRobot, if_pos ⟨rfl, rfl⟩]
      exact hI.reference
  · have hsame : responses cfg s p (.setResponse s' p' (r.part p') :: h) = responses cfg s p h := by
      simp [responses, hsp]
    have hrobot : (st.setRobot s' p'
        { st.robot s' p' with response := motorToJoint p' (r.part p') }).robot s p = st.robot s p := by
      rw [robot_setRobot, if_neg hsp]
    refine ⟨?_, ?_, ?_, hI.hands, ?_, hI.uses, hI.ref, hI.sends⟩
    · rw [hsame, hrobot]
      exact hI.response
    · rw [hsame]
      exact hI.sized
    · rw [hsame]
      exact hI.fetches
    · rw [hrobot]
      exact hI.reference

theorem FlowInv.getReference (hI : FlowInv cfg st h s p) {s' : Side} {p' : Part}
    {rest : List Access} (hplace : (st.arm s').place = .inside (.getReference p' :: rest)) :
    FlowInv cfg
      (st.setArm s' { st.arm s' with
        place := .inside rest
        ref := Function.update (st.arm s').ref p' (st.robot s' p').reference })
      (.getReference s' p' (st.robot s' p').reference :: h) s p := by
  refine ⟨hI.response, hI.sized, hI.fetches, hI.hands, hI.reference, ?_, ?_, ?_⟩
  · rw [used_getReference]
    split
    · rename_i hsp
      obtain ⟨rfl, rfl⟩ := hsp
      obtain ⟨tail, htail⟩ := List.head?_eq_some_iff.mp hI.reference
      change Sampled (references cfg s' p' h) _
      have huses := hI.uses
      rw [htail] at huses ⊢
      exact .read huses
    · exact hI.uses
  · intro hfollows hf
    rw [used_getReference]
    by_cases hs : s' = s
    · subst hs
      simp only [State.setArm, Function.update_self] at hf ⊢
      by_cases hp : p' = p
      · subst hp
        rw [if_pos ⟨trivial, rfl⟩, Function.update_self]
        rfl
      · rw [if_neg fun h => hp h.2, Function.update_of_ne fun h => hp h.symm]
        refine hI.ref hfollows ?_
        rw [hplace]
        simp only [fresh, decide_eq_true_eq, List.mem_cons, Access.getReference.injEq, not_or] at hf ⊢
        exact ⟨fun h => hp h.symm, hf⟩
    · rw [if_neg fun h => hs h.1]
      simp only [State.setArm, Function.update_of_ne fun h => hs h.symm] at hf ⊢
      exact hI.ref hfollows hf
  · intro hfollows
    rw [used_getReference]
    change Sampled _ (commanded s p h)
    split
    · exact .write _ (hI.sends hfollows)
    · exact hI.sends hfollows

theorem FlowInv.getResponse (hI : FlowInv cfg st h s p)
    (hO : OrderInv st h) {s' : Side} {p' : Part} {rest : List Handover}
    (hplace : st.admin.place = .inside (.getResponse s' p' :: rest)) :
    FlowInv cfg
      { st with
        admin := ⟨.inside rest, Function.update st.admin.resp s'
          (Function.update (st.admin.resp s') p' (st.robot s' p').response)⟩ }
      (.getResponse s' p' (st.robot s' p').response :: h) s p := by
  have hpending := pending_getResponse (hO.admin _ hplace) s p
  refine ⟨hI.response, hI.sized, ?_, ?_, hI.reference, hI.uses, hI.ref, hI.sends⟩
  · rw [fetched_getResponse]
    change Sampled (responses cfg s p h) _
    split
    · rename_i hsp
      obtain ⟨rfl, rfl⟩ := hsp
      obtain ⟨tail, htail⟩ := List.head?_eq_some_iff.mp hI.response
      have hfetches := hI.fetches
      rw [htail] at hfetches ⊢
      exact .read hfetches
    · exact hI.fetches
  · have hhands := hI.hands
    rw [hplace] at hhands
    rw [fetched_getResponse]
    change _ = _ ++ handed s p h
    by_cases hsp : s' = s.other ∧ p' = p
    · obtain ⟨rfl, rfl⟩ := hsp
      rw [if_pos ⟨rfl, rfl⟩] at hpending ⊢
      rw [hpending.1, if_neg (by decide)] at hhands
      rw [hpending.2, if_pos rfl, hhands]
      simp
    · rw [if_neg hsp] at hpending ⊢
      rw [← hpending, hhands]
      congr 3
      dsimp only
      rcases eq_or_ne s' s.other with rfl | hs
      · rw [Function.update_self, Function.update_of_ne fun h => hsp ⟨rfl, h.symm⟩]
      · rw [Function.update_of_ne hs.symm]

theorem FlowInv.setReference (hI : FlowInv cfg st h s p) (hO : OrderInv st h) {s' : Side} {p' : Part}
    {rest : List Handover} (hplace : st.admin.place = .inside (.setReference s' p' :: rest)) :
    FlowInv cfg
      (State.setRobot { st with admin := { st.admin with place := .inside rest } } s' p'
        { st.robot s' p' with reference := st.admin.resp s'.other p' })
      (.setReference s' p' (st.admin.resp s'.other p') :: h) s p := by
  have hpending := pending_setReference (hO.admin _ hplace) s p
  have hhands := hI.hands
  rw [hplace] at hhands
  by_cases hsp : s' = s ∧ p' = p
  · obtain ⟨rfl, rfl⟩ := hsp
    rw [if_pos ⟨rfl, rfl⟩] at hpending
    rw [hpending.1, if_pos rfl] at hhands
    have hnew : references cfg s' p' (.setReference s' p' (st.admin.resp s'.other p') :: h) =
        st.admin.resp s'.other p' :: references cfg s' p' h := by
      simp [references]
    refine ⟨?_, hI.sized, hI.fetches, ?_, ?_, ?_, hI.ref, hI.sends⟩
    · rw [robot_setRobot, if_pos ⟨rfl, rfl⟩]
      exact hI.response
    · change fetched s'.other p' h = (if pending (.inside rest) s' p' then _ else _) ++ _
      rw [hpending.2, if_neg (by decide), hhands, handed_setReference, if_pos ⟨rfl, rfl⟩]
      rfl
    · rw [hnew, robot_setRobot, if_pos ⟨rfl, rfl⟩]
      rfl
    · rw [hnew]
      exact .write _ hI.uses
  · rw [if_neg hsp] at hpending
    have hsame : handed s p (.setReference s' p' (st.admin.resp s'.other p') :: h) = handed s p h := by
      rw [handed_setReference, if_neg hsp]
    refine ⟨?_, hI.sized, hI.fetches, ?_, ?_, ?_, hI.ref, hI.sends⟩
    · rw [robot_setRobot, if_neg hsp]
      exact hI.response
    · change fetched s.other p h = (if pending (.inside rest) s p then _ else _) ++ _
      rw [← hpending, hsame]
      exact hhands
    · rw [references, hsame, robot_setRobot, if_neg hsp]
      exact hI.reference
    · rw [references, hsame]
      exact hI.uses

/-- What a cycle has read has as many joints as the arm. -/
theorem FlowInv.length_ref (hI : FlowInv cfg st h s p) (hother : FlowInv cfg st h s.other p)
    {joints : List (JointState Double)} (hj : joints ∈ used s p h) : joints.length = cfg.num p := by
  rcases List.mem_append.mp (hI.uses.mem hj) with hj | hj
  · have hfetched : joints ∈ fetched s.other p h := by
      rw [hI.hands]
      exact List.mem_append_right _ hj
    exact hother.sized joints (hother.fetches.mem hfetched)
  · rw [List.mem_singleton.mp hj]
    exact length_settled s p

/-- A cycle that looks at the references sends the motors there. -/
theorem commands_sends {n : ArmThread cfg} (hfollows : cfg.Follows s)
    (href : ∀ p, (n.ref p).length = cfg.num p) (p : Part) :
    sentTo p (cfg.commands s n) = none ∨
      (sentTo p (cfg.commands s n)).map (·.map MITParam.motion) = some (motions p (n.ref p)) := by
  have hsends : SendsReferences ⟨⟨[], n.ref .arm⟩, ⟨[], n.ref .hand⟩⟩ (cfg.commands s n) := by
    unfold Config.commands
    dsimp only
    split
    · refine bilateralStep_sends ?_ ?_
      · simp [href, Config.num, Readings.part]
      · simp [href, Config.num, Readings.part]
    · rename_i hprogram
      exact unilateralStep_sends (hfollows.resolve_left (by simp [hprogram]))
  rcases hsends with hnone | ⟨arm, gripper, hsent, harm, hgripper⟩
  · rw [hnone]
    cases p <;> exact .inl rfl
  · rw [hsent]
    right
    cases p with
    | arm => exact congrArg some harm
    | hand => exact congrArg some hgripper

theorem FlowInv.send (hI : ∀ s p, FlowInv cfg st h s p) (hO : OrderInv st h) {s' : Side}
    {rest : List Access} (hplace : (st.arm s').place = .inside (.send :: rest)) (s : Side)
    (p : Part) :
    FlowInv cfg (st.setArm s' { st.arm s' with place := .inside rest })
      (.sent s' (cfg.commands s' (st.arm s')) :: h) s p := by
  have hfresh : cfg.Follows s' → ∀ p, fresh (st.arm s').place p = true := by
    intro hfollows p
    have hsuffix := hO.arm s' _ hplace
    rw [Config.accesses, if_pos hfollows] at hsuffix
    have hall : ∀ l ∈ [Access.setResponse .arm, .setResponse .hand, .getReference .arm,
        .getReference .hand, .send].tails, ∀ p ∈ [Part.arm, .hand], l.head? = some .send →
        fresh (.inside l) p = true := by
      decide
    rw [hplace]
    exact hall _ ((List.mem_tails _ _).mpr hsuffix) p (by cases p <;> simp) rfl
  have hset : FlowInv cfg (st.setArm s' { st.arm s' with place := .inside rest }) h s p :=
    (hI s p).setArm rfl fun hfollows _ => hfresh hfollows p
  refine ⟨hset.response, hset.sized, hset.fetches, hset.hands, hset.reference, hset.uses, hset.ref,
    fun hfollows => ?_⟩
  change Sampled ((used s p h).map (motions p)) _
  rw [commanded_sent]
  split
  · rename_i hs
    subst hs
    have href : ∀ p, (used s' p h).head? = some ((st.arm s').ref p) := fun p =>
      (hI s' p).ref hfollows (hfresh hfollows p)
    have hlength : ∀ p, ((st.arm s').ref p).length = cfg.num p := fun p =>
      (hI s' p).length_ref (hI s'.other p) (List.mem_of_head? (href p))
    rcases commands_sends hfollows hlength p with hnone | hsome
    · rw [hnone]
      exact (hI s' p).sends hfollows
    · obtain ⟨tail, htail⟩ := List.head?_eq_some_iff.mp (href p)
      have hsends := (hI s' p).sends hfollows
      rw [hsome]
      rw [htail, List.map_cons] at hsends ⊢
      exact .read hsends
  · exact (hI s p).sends hfollows

theorem FlowInv.step (hI : ∀ s p, FlowInv cfg st h s p) (hO : OrderInv st h) {e : Option Event}
    (hs : Step st st' e) (s : Side) (p : Part) : FlowInv cfg st' (e.toList ++ h) s p := by
  have hold := hI s p
  cases hs with
  | same => exact hold
  | startThread t rest hmain => exact hold.startThread hO hmain
  | go | stopRunning | join | sigint => exact hold.frame rfl rfl rfl fun _ hf => ⟨hf, rfl⟩
  | disableAll s' rest =>
    have hnext : FlowInv cfg { st with main := rest } h s p :=
      hold.frame rfl rfl rfl fun _ hf => ⟨hf, rfl⟩
    exact ⟨hnext.response, hnext.sized, hnext.fetches, hnext.hands, hnext.reference, hnext.uses,
      hnext.ref, hnext.sends⟩
  | head s' place motors hplace hnew =>
    refine hold.setArm rfl fun hfollows hf => ?_
    rcases hnew with rfl | rfl
    · cases p <;> simp [fresh, Config.accesses, hfollows] at hf
    · cases hf
  | back s' hplace => exact hold.setArm rfl fun _ hf => by cases hf
  | setResponse s' p' rest hplace =>
    refine (hold.setResponse s' p' (st.arm s').motors).setArm rfl fun _ hf => ?_
    simp only [State.setRobot, hplace, fresh, decide_eq_true_eq, List.mem_cons, reduceCtorEq,
      false_or] at hf ⊢
    exact hf
  | getReference s' p' rest hplace => exact hold.getReference hplace
  | send s' rest hplace => exact FlowInv.send hI hO hplace s p
  | adminHead place hplace hnew =>
    refine hold.frame rfl ?_ rfl fun _ hf => ⟨hf, rfl⟩
    dsimp only
    rw [hplace]
    rcases hnew with rfl | rfl
    · cases s <;> cases p <;> decide
    · rfl
  | adminBack hplace =>
    refine hold.frame rfl ?_ rfl fun _ hf => ⟨hf, rfl⟩
    dsimp only
    rw [hplace]
    cases s <;> cases p <;> decide
  | getResponse s' p' rest hplace => exact hold.getResponse hO hplace
  | setReference s' p' rest hplace => exact hold.setReference hO hplace

end FlowInv

/-! ## Whole runs -/

/-- What becomes of a motion on its way through the joints. The gripper is converted there and
back. -/
def thereAndBack : Part → Double × Double → Double × Double
  | .arm, motion => motion
  | .hand, (q, dq) => (OpenArmGripperJointConverter.motorPosition (0.044 * (q / -1.0472)), dq)

/-- What the motors of the other arm showed, after the poses of the adjustment. -/
def poses (s : Side) (p : Part) (h : List Event) : List (List (Double × Double)) :=
  (shown s.other p h ++ [(cfg.adjusted s.other).part p, (cfg.adjusted s).part p]).map
    (·.map MotorState.motion)

/-- The arms follow each other until they are disabled. -/
structure Mirrors (h : List Event) : Prop where
  follows : ∀ s p, cfg.Follows s →
    Sampled ((poses cfg s p h).map (·.map (thereAndBack p))) (commanded s p h)
  free : ∀ s cmds p, ¬ cfg.Follows s → .sent s cmds ∈ h → ∀ mit, sentTo p cmds = some mit →
    ∀ cmd ∈ mit, cmd.kp = 0 ∧ cmd.kd = 0
  silent : Always (fun e h => ∀ s cmds, e = .sent s cmds → ∀ s', .disabled s' ∉ h) h

section Runs

variable {cfg} {st st' : State cfg} {h : List Event} {s : Side} {p : Part} {e : Option Event}

theorem motions_motorToJoint (p : Part) (motors : List (MotorState Double)) :
    motions p (motorToJoint p motors) = (motors.map MotorState.motion).map (thereAndBack p) := by
  cases p <;> simp only [motions, motorToJoint, jointToMotor, OpenArmJointConverter.motorToJoint,
    OpenArmJointConverter.jointToMotor, OpenArmGripperJointConverter.motorToJoint,
    OpenArmGripperJointConverter.jointToMotor, List.map_map] <;> rfl

theorem motions_settled (s : Side) (p : Part) :
    motions p (cfg.settled s p) =
      (((cfg.adjusted s).part p).map MotorState.motion).map (thereAndBack p) := by
  rw [Config.settled, motions_motorToJoint, Readings.noEffort, List.map_map, List.map_map,
    List.map_map]
  rfl

/-- The commands are readings of the references, which are readings of the other arm. -/
theorem FlowInv.follows (hI : FlowInv cfg st h s p) (hother : FlowInv cfg st h s.other p)
    (hfollows : cfg.Follows s) :
    Sampled ((poses cfg s p h).map (·.map (thereAndBack p))) (commanded s p h) := by
  have hhanded : Sampled (responses cfg s.other p h) (handed s p h) := by
    have hfetches := hother.fetches
    rw [hI.hands] at hfetches
    split at hfetches
    · exact hfetches.of_tail
    · exact hfetches
  have hused := ((hhanded.concat (cfg.settled s p)).trans hI.uses).map (motions p)
  have hposes : (responses cfg s.other p h ++ [cfg.settled s p]).map (motions p) =
      (poses cfg s p h).map (·.map (thereAndBack p)) := by
    simp [responses, poses, motions_settled, motions_motorToJoint, Function.comp_def]
  rw [hposes] at hused
  exact hused.trans (hI.sends hfollows)

/-- A leader of the unilateral program is moved by hand. -/
theorem commands_free {n : ArmThread cfg} (hfollows : ¬ cfg.Follows s) {mit : List (MITParam Double)}
    (hmit : sentTo p (cfg.commands s n) = some mit) : ∀ cmd ∈ mit, cmd.kp = 0 ∧ cmd.kd = 0 := by
  obtain ⟨hprogram, hrole⟩ := not_or.mp hfollows
  have hleader : (cfg.control s).role = .leader := by
    cases h : (cfg.control s).role
    · rfl
    · exact absurd h hrole
  unfold Config.commands at hmit
  dsimp only at hmit
  split at hmit
  · exact absurd (by assumption) hprogram
  · rcases unilateralStep_free hleader with hnone | ⟨arm, gripper, hsent, hzero⟩
    · rw [hnone] at hmit
      cases p <;> cases hmit
    · rw [hsent] at hmit
      cases p <;> cases hmit
      · exact fun cmd hcmd => hzero cmd (List.mem_append_left _ hcmd)
      · exact fun cmd hcmd => hzero cmd (List.mem_append_right _ hcmd)

variable (cfg) in
/-- The two invariants, and what was sent before the arms were disabled. -/
structure LocalInv (st : State cfg) (h : List Event) : Prop where
  order : OrderInv st h
  flow : ∀ s p, FlowInv cfg st h s p

theorem LocalInv.silent (hI : LocalInv cfg st h) {s : Side} {cmds : List Sent}
    (hs : Step st st' (some (.sent s cmds))) : ∀ s', .disabled s' ∉ h := by
  generalize he : some (Event.sent s cmds) = e at hs
  cases hs with
  | send s₁ rest hplace =>
    intro s' hd
    have hended := hI.order.ended s₁ (hI.order.disabled ⟨s', hd⟩ s₁)
    rw [hplace] at hended
    cases hended
  | _ => cases he

/-- What is sent to an arm that does not follow. -/
def FreeEvent (cfg : Config) : Event → Prop
  | .sent s cmds => ¬ cfg.Follows s → ∀ p mit, sentTo p cmds = some mit →
      ∀ cmd ∈ mit, cmd.kp = 0 ∧ cmd.kd = 0
  | _ => True

theorem Step.free (hs : Step st st' e) : ∀ x, e = some x → FreeEvent cfg x := by
  rintro x rfl
  generalize he : some x = e at hs
  cases hs with
  | send s rest =>
    cases he
    exact fun hfollows p mit hmit => commands_free hfollows hmit
  | _ => cases he <;> trivial

variable (cfg) in
theorem local_runs (hr : (machine cfg).Runs st h) :
    LocalInv cfg st h ∧ Always (fun e h => FreeEvent cfg e ∧
      ∀ s cmds, e = .sent s cmds → ∀ s', .disabled s' ∉ h) h := by
  refine hr.always (I := LocalInv cfg) ⟨orderInv_start, flowInv_start⟩ ?_ ?_
  · intro st h act st' e hI _ hs
    have hstep := step_cases st hs
    exact ⟨hI.order.step hstep, FlowInv.step hI.flow hI.order hstep⟩
  · intro st h act st' e hI _ hs
    have hstep := step_cases st hs
    refine ⟨hstep.free e rfl, ?_⟩
    rintro s cmds rfl
    exact hI.silent hstep

end Runs

end Flow

section Example

attribute [local instance] Rounding.exact

def single (x y : Double) : Readings 1 1 := ⟨#v[⟨x, 0, 0⟩], #v[⟨y, 0, 0⟩]⟩

/-- Two arms of one joint that weigh nothing. -/
def light : Config where
  program := .bilateral
  armNum := 1
  handNum := 1
  control s :=
    let weightless : Dynamics := ⟨fun _ _ => 0, fun _ _ _ => 0⟩
    (Controller.Control.new (match s with | .leader => .leader | .follower => .follower) weightless
      (some weightless)).set (.setParameter [1, 1] [1, 1] [0, 0] [0, 0] [0, 0] [0, 0])
  adjusted _ := single 0 0
  tanh _ := 0
  wild _ := 0

def times (n : ℕ) (act : Action light) : List (Action light) := List.replicate n act

/-- The leader is moved, and the follower goes there after a handover. -/
def moved : List (Action light) :=
  times 3 .main ++ times 4 (.control .leader (single (.fin 2) 1)) ++ times 9 .admin ++
    times 6 (.control .follower (single 0 0)) ++ times 1 .sigint ++ times 2 .main ++
    times 4 (.control .leader (single (.fin 2) 1)) ++ times 2 .main ++
    times 2 (.control .follower (single 0 0)) ++ times 2 .main ++ times 2 .admin ++ times 3 .main

end Example

end OpenArmTeleop.Local
