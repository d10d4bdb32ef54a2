import OpenArmTeleop.Controller.Checked
import OpenArmTeleop.Controller.Torque
import OpenArmTeleop.Leader.Align

/-!
# When the leader reads inside a feedback packet

The alignment test and the cycle check what they read. The copy into the command goes by the counts
of the packet alone.
-/

open Num Run OpenArmTeleop.Net OpenArmTeleop.Core OpenArmTeleop.Control OpenArmTeleop.Controller

namespace OpenArmTeleop.Leader

/-! ## The side of an arm, with checked reads -/

/-- Compares joints from index `i` on, up to the first one that is too far away. -/
def allClose? [Rounding] {n : ℕ} (xs : Vector Double n) (limit : Double) :
    ℕ → List (JointState Double) → Option Bool
  | _, [] => some true
  | i, joint :: rest => do
    let x ← xs[i]?
    if (joint.position - x).abs ≤ limit then allClose? xs limit (i + 1) rest else some false

def aligned? [Rounding] (bi : BilateralSettings) (robot : RobotSystemState Double)
    (fb : FeedbackPacket Double) : Option Bool :=
  let arm := robot.armState.response
  let hand := robot.handState.response
  if arm.length ≤ fb.armDof.toNat ∧ hand.length ≤ fb.handDof.toNat then do
    if ← allClose? fb.armPos bi.engageMaxErrorRad 0 arm then
      allClose? fb.handPos bi.engageMaxErrorGripper 0 hand
    else some false
  else some false

def render? (cmd : LeaderBilateralCommand) (fb : FeedbackPacket Double) :
    Option LeaderBilateralCommand := do
  let armPosRef ← readFirst? fb.armPos fb.armDof
  let handPosRef ← readFirst? fb.handPos fb.handDof
  let armTauF ← readFirst? fb.armTau fb.armDof
  let handTauF ← readFirst? fb.handTau fb.handDof
  return { cmd with
    armPosRef := armPosRef, handPosRef := handPosRef, armTauF := armTauF, handTauF := handTauF }

/-- What a packet states is not more than its arrays hold. -/
def CountsFit (p : FeedbackPacket Double) : Prop := p.armDof.toNat ≤ 8 ∧ p.handDof.toNat ≤ 4

instance (p : FeedbackPacket Double) : Decidable (CountsFit p) :=
  inferInstanceAs (Decidable (_ ∧ _))

theorem allClose?_eq [Rounding] {n : ℕ} (xs : Vector Double n) (limit : Double) (wild : ℕ → Double)
    (i : ℕ) (joints : List (JointState Double)) (h : i + joints.length ≤ n) :
    allClose? xs limit i joints = some ((joints.zipIdx i).all fun x =>
      decide ((x.1.position - readAt xs wild x.2).abs ≤ limit)) := by
  induction joints generalizing i with
  | nil => rfl
  | cons joint rest ih =>
    rw [List.length_cons] at h
    rw [allClose?, getElem?_eq_readAt xs wild, if_pos (by omega), List.zipIdx_cons, List.all_cons,
      ih (i + 1) (by omega)]
    by_cases hclose : (joint.position - readAt xs wild i).abs ≤ limit <;> simp [hclose]

theorem aligned?_eq [Rounding] (bi : BilateralSettings) (robot : RobotSystemState Double)
    (fb : FeedbackPacket Double) (behind : Overread) (harm : robot.armState.response.length ≤ 8)
    (hhand : robot.handState.response.length ≤ 4) :
    aligned? bi robot fb = some (aligned bi robot fb behind) := by
  simp only [aligned?, aligned]
  rw [allClose?_eq fb.armPos _ behind.armPos 0 _ (by omega),
    allClose?_eq fb.handPos _ behind.handPos 0 _ (by omega)]
  by_cases hcounts : robot.armState.response.length ≤ fb.armDof.toNat ∧
      robot.handState.response.length ≤ fb.handDof.toNat
  · rw [if_pos hcounts]
    simp only [hcounts, decide_true, Bool.true_and, Option.bind_eq_bind, Option.bind_some]
    split <;> simp_all
  · rw [if_neg hcounts]
    rw [not_and_or] at hcounts
    rcases hcounts with h | h <;> simp [h]

theorem render?_eq (cmd : LeaderBilateralCommand) (fb : FeedbackPacket Double) (behind : Overread) :
    render? cmd fb = if CountsFit fb then some (render cmd fb behind) else none := by
  rw [render?, readFirst?_eq fb.armPos behind.armPos, readFirst?_eq fb.handPos behind.handPos,
    readFirst?_eq fb.armTau behind.armTau, readFirst?_eq fb.handTau behind.handTau]
  by_cases harm : fb.armDof.toNat ≤ 8
  swap
  · simp [CountsFit, harm]
  by_cases hhand : fb.handDof.toNat ≤ 4
  swap
  · simp [CountsFit, harm, hhand]
  simp [CountsFit, harm, hhand, render]

/-- Both reads of a snapshot. -/
def snapshot? [Rounding] (bi : BilateralSettings) (robot : RobotSystemState Double)
    (cmd : LeaderBilateralCommand) (fb : FeedbackPacket Double) :
    Option (Bool × LeaderBilateralCommand) := do
  let aligned ← aligned? bi robot fb
  let cmd ← render? cmd fb
  return (aligned, cmd)

/-! ## What is stored, rendered and used -/

inductive FeedbackEvent
  | stored (a : ArmSide) (p : FeedbackPacket Double)
  | rendered (a : ArmSide) (p : FeedbackPacket Double)
  | leaderStep (a : ArmSide) (cmd : Option LeaderBilateralCommand)

def lastRendered (a : ArmSide) : List FeedbackEvent → Option (FeedbackPacket Double)
  | [] => none
  | .rendered b p :: h => if b = a then some p else lastRendered a h
  | _ :: h => lastRendered a h

/-- The references of a command are the values of the follower's joints. -/
structure Renders (p : FeedbackPacket Double) (cmd : LeaderBilateralCommand) : Prop where
  armPosRef : cmd.armPosRef = p.armPos.toList.take p.armDof.toNat
  handPosRef : cmd.handPosRef = p.handPos.toList.take p.handDof.toNat
  armTauF : cmd.armTauF = p.armTau.toList.take p.armDof.toNat
  handTauF : cmd.handTauF = p.handTau.toList.take p.handDof.toNat

structure NoReferences (cmd : LeaderBilateralCommand) : Prop where
  armPosRef : cmd.armPosRef = []
  handPosRef : cmd.handPosRef = []
  armTauF : cmd.armTauF = []
  handTauF : cmd.handTauF = []

/-- A command has its references from the newest rendered packet, and that was received. -/
def FromFollower (a : ArmSide) (cmd : LeaderBilateralCommand) (h : List FeedbackEvent) : Prop :=
  match lastRendered a h with
  | some p => .stored a p ∈ h ∧ Renders p cmd
  | none => NoReferences cmd

theorem range_readAt {n : ℕ} (xs : Vector Double n) (wild : ℕ → Double) {k : ℕ} (h : k ≤ n) :
    (List.range k).map (readAt xs wild) = xs.toList.take k := by
  apply List.ext_getElem
  · simp [h]
  · intro i hi _
    have hn : i < n := by
      rw [List.length_map, List.length_range] at hi
      omega
    simp [readAt, hn]

theorem renders_render (cmd : LeaderBilateralCommand) {p : FeedbackPacket Double}
    (h : CountsFit p) (behind : Overread) : Renders p (render cmd p behind) :=
  ⟨range_readAt _ _ h.1, range_readAt _ _ h.2, range_readAt _ _ h.1, range_readAt _ _ h.2⟩

theorem FromFollower.scaled {a : ArmSide} {cmd : LeaderBilateralCommand} {h : List FeedbackEvent}
    (hcmd : FromFollower a cmd h) (scale : Double) :
    FromFollower a { cmd with scale := scale } h := by
  unfold FromFollower at hcmd ⊢
  cases hlast : lastRendered a h with
  | none =>
    rw [hlast] at hcmd
    exact ⟨hcmd.armPosRef, hcmd.handPosRef, hcmd.armTauF, hcmd.handTauF⟩
  | some p =>
    rw [hlast] at hcmd
    exact ⟨hcmd.1, ⟨hcmd.2.armPosRef, hcmd.2.handPosRef, hcmd.2.armTauF, hcmd.2.handTauF⟩⟩

theorem FromFollower.append {a : ArmSide} {cmd : LeaderBilateralCommand} {h : List FeedbackEvent}
    (hcmd : FromFollower a cmd h) (e : Option FeedbackEvent)
    (he : ∀ p, e ≠ some (.rendered a p)) : FromFollower a cmd (e.toList ++ h) := by
  have hlast : lastRendered a (e.toList ++ h) = lastRendered a h := by
    refine append_eq_of_cons e fun x hx => ?_
    cases x with
    | rendered b p => exact if_neg fun hab => he p (by rw [hx, hab])
    | _ => rfl
  unfold FromFollower at hcmd ⊢
  rw [hlast]
  cases hp : lastRendered a h with
  | none => rwa [hp] at hcmd
  | some p =>
    rw [hp] at hcmd
    exact ⟨List.mem_append_right _ hcmd.1, hcmd.2⟩

def UsesFollower : FeedbackEvent → List FeedbackEvent → Prop
  | .leaderStep a (some cmd), h => FromFollower a cmd h
  | _, _ => True

/-! ## Steps -/

/-- Responses of seven arm joints and one gripper. -/
structure Sized (r : RobotSystemState Double) : Prop where
  arm : r.armState.response.length = 7
  hand : r.handState.response.length = 1

theorem Sized.respond (r : RobotSystemState Double) (m : Measured Double) :
    Sized (r.setAllResponses m) := by
  constructor <;> simp [RobotSystemState.setAllResponses]

theorem sized_setRobot {s : State} (h : ∀ a, Sized (s.robot a)) (b : ArmSide)
    {r : RobotSystemState Double} (hr : Sized r) (a : ArmSide) : Sized ((s.setRobot b r).robot a) := by
  rcases eq_or_ne a b with rfl | hab
  · simpa [State.setRobot] using hr
  · simpa [State.setRobot, Function.update_of_ne hab] using h a

theorem getLatest_update (b : FeedbackStateBuffer Double) (p : FeedbackPacket Double)
    (rttNs nowNs : UInt64) : (b.update p rttNs nowNs).getLatest = some p ∨
      (b.update p rttNs nowNs).getLatest = b.getLatest := by
  rcases b.update_cases p rttNs nowNs with ⟨-, h⟩ | ⟨-, -, h⟩ | ⟨-, -, h⟩ | ⟨-, -, -, h⟩ <;> rw [h]
  · exact .inl rfl
  · exact .inl rfl
  · exact .inr rfl
  · exact .inl rfl

section Machine

variable [Rounding]

/-- The arm and the packet that the next step of the loop renders. -/
def State.rendering (cfg : Config) (s : State) (nowNs : UInt64) :
    Option (ArmSide × FeedbackPacket Double) :=
  match s.loop.pc with
  | .snapshot a => (s.loop.fb.filter fun _ => fresh cfg s a nowNs).map (a, ·)
  | _ => none

def feedbackEvent (cfg : Config) (s : State) : Action → Option FeedbackEvent
  | .feedback a p _ _ =>
    if cfg.bi.feedbackEnabled && p.decodeAndValidate then some (.stored a (p.map Double.ofBits))
    else none
  | .loop env =>
    match s.loop.pc with
    | .leaderStep a => some (.leaderStep a (if (s.engager a).active then some (s.bcmd a) else none))
    | _ => (s.rendering cfg env.nowNs).map fun x => .rendered x.1 x.2
  | _ => none

/-- The packet that is rendered states no more than its arrays hold. -/
def FeedbackFits (cfg : Config) (s : State) (_ : List FeedbackEvent) : Action → Prop
  | .loop env => ∀ x ∈ s.rendering cfg env.nowNs, CountsFit x.2
  | _ => True

instance (cfg : Config) (s : State) (h : List FeedbackEvent) (act : Action) :
    Decidable (FeedbackFits cfg s h act) :=
  match act with
  | .loop _ => inferInstanceAs (Decidable (∀ x ∈ s.rendering cfg _, CountsFit x.2))
  | .receive _ | .control _ | .sigint | .feedback .. | .motion .. => isTrue trivial

variable (cfg : Config) (s : State) (env : Env)

theorem sized_step {act : Action} {s' : State} {e : Option Event}
    (hs : (machine cfg).step s act = some (s', e)) (h : ∀ a, Sized (s.robot a)) :
    ∀ a, Sized (s'.robot a) := by
  cases step_cases cfg s hs with
  | receive | sigint | feedback | drop => exact h
  | control gateOk x rest hc =>
    cases x <;> simp only [State.access] <;> (repeat' split) <;> exact h
  | motion b measured _ _ hm =>
    simp only [State.motionStep] at hm
    (repeat' split at hm) <;> cases hm
    · exact h
    · exact fun a => sized_setRobot h b (.respond _ _) a
    · exact fun a => sized_setRobot h b (.respond _ _) a
  | loop env =>
    cases hpc : s.loop.pc with
    | leaderStep b =>
      simp only [loopStep, hpc]
      exact fun a => sized_setRobot h b (.respond _ _) a
    | _ =>
      simp only [loopStep, hpc]
      (repeat' split) <;> exact h

/-- Only a receiver stores feedback. -/
theorem step_stored {act : Action} {s' : State} {e : Option Event}
    (hs : (machine cfg).step s act = some (s', e)) (hact : ∀ env, act ≠ .loop env) :
    (s'.buffer = s.buffer ∧ feedbackEvent cfg s act = none) ∨
      ∃ a p rttNs nowNs, feedbackEvent cfg s act = some (.stored a p) ∧
        s'.buffer = Function.update s.buffer a ((s.buffer a).update p rttNs nowNs) := by
  cases step_cases cfg s hs with
  | receive | sigint => exact .inl ⟨rfl, rfl⟩
  | control gateOk x rest hc =>
    refine .inl ⟨?_, rfl⟩
    cases x <;> simp only [State.access] <;> (repeat' split) <;> rfl
  | feedback a p systemNowNs nowNs henabled hvalid =>
    refine .inr ⟨a, p.map Double.ofBits, roundTripNs p systemNowNs, nowNs, ?_, rfl⟩
    simp [feedbackEvent, henabled, hvalid]
  | drop a p systemNowNs nowNs hinvalid => exact .inl ⟨rfl, by simp [feedbackEvent, hinvalid]⟩
  | motion b measured _ _ hm =>
    simp only [State.motionStep] at hm
    (repeat' split at hm) <;> cases hm <;> exact .inl ⟨rfl, rfl⟩
  | loop env => exact absurd rfl (hact env)

theorem loopStep_stored : (loopStep cfg s env).1.buffer = s.buffer := by
  cases hpc : s.loop.pc <;> simp only [loopStep, hpc] <;> (repeat' split) <;> rfl

theorem loopStep_snapshot {a : ArmSide} (h : (loopStep cfg s env).1.loop.pc = .snapshot a) :
    (loopStep cfg s env).1.loop.fb = (s.buffer a).getLatest := by
  cases hpc : s.loop.pc with
  | getLatest b =>
    simp only [loopStep, hpc, State.goto, Pc.snapshot.injEq] at h ⊢
    rw [h]
  | leaderStep b =>
    cases b <;> simp [loopStep, hpc, State.goto] at h
  | _ =>
    simp only [loopStep, hpc, afterGoto] at h
    (repeat' split at h) <;> simp [State.goto] at h

/-- A snapshot writes the packet into the command, and no other step its references. -/
theorem loopStep_bcmd :
    match s.rendering cfg env.nowNs with
    | some (b, p) =>
      (loopStep cfg s env).1.bcmd = Function.update s.bcmd b (render (s.bcmd b) p env.behind) ∧
        (loopStep cfg s env).1.loop.aligned = aligned cfg.bi (s.robot b) p env.behind
    | none => ∀ a, ∃ scale, (loopStep cfg s env).1.bcmd a = { s.bcmd a with scale := scale } := by
  cases hpc : s.loop.pc with
  | snapshot b =>
    simp only [State.rendering, hpc, loopStep]
    cases s.loop.fb.filter fun _ => fresh cfg s b env.nowNs with
    | none => exact fun a => ⟨_, rfl⟩
    | some p => exact ⟨rfl, rfl⟩
  | update b =>
    simp only [State.rendering, hpc, loopStep, State.goto]
    intro a
    rcases eq_or_ne a b with rfl | hab
    · exact ⟨_, by rw [Function.update_self]⟩
    · exact ⟨_, by rw [Function.update_of_ne hab]⟩
  | _ =>
    simp only [State.rendering, hpc, loopStep]
    intro a
    (repeat' split) <;> exact ⟨_, rfl⟩

/-! ## The invariant -/

/-- What the buffers, the loop and the commands hold was received. -/
structure FeedbackInv (s : State) (h : List FeedbackEvent) : Prop where
  buffer : ∀ a p, (s.buffer a).getLatest = some p → .stored a p ∈ h
  loop : ∀ a p, s.loop.pc = .snapshot a → s.loop.fb = some p → .stored a p ∈ h
  command : ∀ a, FromFollower a (s.bcmd a) h

theorem feedbackInv_start : FeedbackInv (State.start cfg) [] := by
  refine ⟨?_, ?_, fun _ => ⟨rfl, rfl, rfl, rfl⟩⟩
  · intro a p h
    cases h
  · intro a p h
    cases h

theorem feedbackInv_outside {h : List FeedbackEvent} (hI : FeedbackInv s h) {act : Action}
    {s' : State} {e : Option Event} (hs : (machine cfg).step s act = some (s', e))
    (hact : ∀ env, act ≠ .loop env) :
    FeedbackInv s' ((feedbackEvent cfg s act).toList ++ h) := by
  obtain ⟨⟨-, hbcmd, hloop⟩, -⟩ := step_outside cfg s hs hact
  rcases step_stored cfg s hs hact with ⟨hbuffer, he⟩ | ⟨b, p, rttNs, nowNs, he, hbuffer⟩
  · rw [he]
    refine ⟨?_, ?_, ?_⟩ <;> simp only [hbuffer, hbcmd, hloop]
    · exact hI.buffer
    · exact hI.loop
    · exact hI.command
  · rw [he]
    refine ⟨fun a q hq => ?_, ?_, ?_⟩
    · rw [hbuffer] at hq
      rcases eq_or_ne a b with rfl | hab
      · rw [Function.update_self] at hq
        rcases getLatest_update (s.buffer a) p rttNs nowNs with hnew | hold
        · rw [Option.some.inj (hq.symm.trans hnew)]
          exact List.mem_cons_self
        · exact List.mem_cons_of_mem _ (hI.buffer a q (hold ▸ hq))
      · rw [Function.update_of_ne hab] at hq
        exact List.mem_cons_of_mem _ (hI.buffer a q hq)
    · rw [hloop]
      exact fun a q hpc hq => List.mem_cons_of_mem _ (hI.loop a q hpc hq)
    · rw [hbcmd]
      exact fun a => (hI.command a).append _ (by simp)

theorem rendering_stored {h : List FeedbackEvent} (hI : FeedbackInv s h) {nowNs : UInt64}
    {a : ArmSide} {p : FeedbackPacket Double} (hp : s.rendering cfg nowNs = some (a, p)) :
    s.loop.pc = .snapshot a ∧ .stored a p ∈ h := by
  unfold State.rendering at hp
  split at hp
  · rename_i b hpc
    obtain ⟨q, hq, heq⟩ := Option.map_eq_some_iff.mp hp
    obtain ⟨rfl, rfl⟩ := Prod.mk.inj heq
    exact ⟨hpc, hI.loop _ _ hpc (Option.filter_eq_some_iff.mp hq).1⟩
  · cases hp

theorem feedbackInv_loop {h : List FeedbackEvent} (hI : FeedbackInv s h)
    (hfit : ∀ x ∈ s.rendering cfg env.nowNs, CountsFit x.2) :
    FeedbackInv (loopStep cfg s env).1 ((feedbackEvent cfg s (.loop env)).toList ++ h) := by
  have hsub : ∀ x ∈ h, x ∈ (feedbackEvent cfg s (.loop env)).toList ++ h :=
    fun x hx => List.mem_append_right _ hx
  refine ⟨?_, fun a p hpc hp => ?_, fun a => ?_⟩
  · rw [loopStep_stored]
    exact fun a p hp => hsub _ (hI.buffer a p hp)
  · rw [loopStep_snapshot cfg s env hpc] at hp
    exact hsub _ (hI.buffer a p hp)
  have hbcmd := loopStep_bcmd cfg s env
  cases hr : s.rendering cfg env.nowNs with
  | none =>
    rw [hr] at hbcmd
    obtain ⟨scale, hscale⟩ := hbcmd a
    rw [hscale]
    refine (hI.command a).scaled scale |>.append _ fun p he => ?_
    simp only [feedbackEvent, hr] at he
    split at he <;> cases he
  | some x =>
    obtain ⟨b, p⟩ := x
    rw [hr] at hbcmd
    obtain ⟨hpc, hstored⟩ := rendering_stored cfg s hI hr
    have he : feedbackEvent cfg s (.loop env) = some (.rendered b p) := by
      simp only [feedbackEvent, hpc, hr, Option.map_some]
    rw [he, hbcmd.1]
    rcases eq_or_ne a b with rfl | hab
    · rw [Function.update_self]
      have hlast : lastRendered a (.rendered a p :: h) = some p := if_pos rfl
      simp only [Option.toList_some, List.singleton_append, FromFollower, hlast]
      exact ⟨List.mem_cons_of_mem _ hstored, renders_render _ (hfit _ hr) _⟩
    · rw [Function.update_of_ne hab]
      refine (hI.command a).append _ fun q hq => hab ?_
      cases hq
      rfl

/-! ## Whole runs -/

theorem snapshot?_eq (bi : BilateralSettings) {robot : RobotSystemState Double} (h : Sized robot)
    (cmd : LeaderBilateralCommand) (fb : FeedbackPacket Double) (behind : Overread) :
    snapshot? bi robot cmd fb =
      if CountsFit fb then some (aligned bi robot fb behind, render cmd fb behind) else none := by
  rw [snapshot?, aligned?_eq bi robot fb behind (by rw [h.arm]; omega) (by rw [h.hand]; omega),
    render?_eq cmd fb behind]
  split <;> rfl

/-- **When the feedback path stays in bounds.** A snapshot reads inside the arrays exactly if the
packet states at most eight arm and four hand joints, and is then what the loop does. A cycle
always reads inside its command. When each rendered packet is such a packet, the references of
each command are the values of the follower's joints in the newest one. -/
theorem feedback_in_bounds_iff (tanh : Double → Double) (wild : ℕ → Double) (c : Control)
    (joints : ℕ) (motors : Motors Double) (hjoints : joints ≤ motors.arm.length) :
    (∀ s h, ((machine cfg).relabel (feedbackEvent cfg)).Runs s h → ∀ env a p,
      s.rendering cfg env.nowNs = some (a, p) →
        (snapshot? cfg.bi (s.robot a) (s.bcmd a) p ≠ none ↔ CountsFit p) ∧
        (CountsFit p → snapshot? cfg.bi (s.robot a) (s.bcmd a) p =
          some ((loopStep cfg s env).1.loop.aligned, (loopStep cfg s env).1.bcmd a))) ∧
    (∀ robot cmd, c.leaderStep? tanh wild joints robot motors cmd =
      some (c.leaderStep tanh wild robot motors cmd)) ∧
    ∀ s h, ((machine cfg).relabel (feedbackEvent cfg)).RunWhere (FeedbackFits cfg) s h →
      Always UsesFollower h := by
  refine ⟨fun s h hr env a p hp => ?_, fun robot cmd => ?_, fun s h hr => ?_⟩
  · have hsized : ∀ a, Sized (s.robot a) := by
      refine hr.invariant (I := fun s _ => ∀ a, Sized (s.robot a)) (fun _ => ⟨rfl, rfl⟩) ?_
      intro s h act s' x hI _ hs
      obtain ⟨⟨e, hstep⟩, -⟩ := Machine.relabel_step hs
      exact sized_step cfg s hstep hI
    have hbcmd := loopStep_bcmd cfg s env
    rw [hp] at hbcmd
    rw [snapshot?_eq cfg.bi (hsized a) _ p env.behind, hbcmd.1, hbcmd.2, Function.update_self]
    constructor
    · split <;> simp_all
    · exact fun hfit => if_pos hfit
  · exact Control.leaderStep?_eq tanh wild joints robot motors cmd hjoints
  · refine (hr.always (I := FeedbackInv) (feedbackInv_start cfg) ?_ ?_).2
    · intro s h act s' x hI hok hs
      obtain ⟨⟨e, hstep⟩, rfl⟩ := Machine.relabel_step hs
      by_cases hloop : ∃ env, act = .loop env
      · obtain ⟨env, rfl⟩ := hloop
        obtain ⟨rfl, -⟩ := step_loop cfg s hstep
        exact feedbackInv_loop cfg s env hI hok
      · exact feedbackInv_outside cfg s hI hstep fun env henv => hloop ⟨env, henv⟩
    · intro s h act s' x hI hok hs
      obtain ⟨-, hx⟩ := Machine.relabel_step hs
      cases x with
      | leaderStep a cmd =>
        cases act with
        | loop env =>
          simp only [feedbackEvent] at hx
          split at hx
          · cases hx
            split
            · exact hI.command a
            · trivial
          · cases hr : s.rendering cfg env.nowNs <;> rw [hr] at hx <;> cases hx
        | feedback =>
          simp only [feedbackEvent] at hx
          split at hx <;> cases hx
        | _ => cases hx
      | _ => trivial

end Machine

section Runs

attribute [local instance] Rounding.exact

/-- Feedback of an active follower that states `armDof` arm joints. -/
def counting (armDof : UInt8) : FeedbackPacket UInt64 :=
  { FeedbackPacket.zero with seq := 1, enabled := 1, armDof := armDof, handDof := 1 }.encode 0

def start (armDof : UInt8) : List Action :=
  moveBoth 0 ++ [.feedback .right (counting armDof) 0 0]

/-- A leader renders feedback with the right counts, and uses the command. -/
theorem feedback_in_bounds_engaged :
    (∃ s h, ((machine leader).relabel (feedbackEvent leader)).Runs s h ∧
      s.rendering leader 5000000 = some (.right, (counting 7).map Double.ofBits) ∧
      snapshot? leader.bi (s.robot .right) (s.bcmd .right) ((counting 7).map Double.ofBits) ≠
        none) ∧
    (∀ robot cmd, ((Control.new .leader wildDynamics none).setAll configured).leaderStep? id
      (fun _ => .nan) 7 robot idle cmd ≠ none) ∧
    ∃ s h, ((machine leader).relabel (feedbackEvent leader)).RunWhere (FeedbackFits leader) s h ∧
      lastRendered .right h = some ((datagram 1).map Double.ofBits) ∧ Always UsesFollower h := by
  obtain ⟨hsnapshot, hcycle, hruns⟩ := feedback_in_bounds_iff leader id (fun _ => .nan)
    ((Control.new .leader wildDynamics none).setAll configured) 7 idle (by decide)
  refine ⟨?_, fun robot cmd => by rw [hcycle]; exact Option.some_ne_none _, ?_⟩
  · obtain ⟨s, h, hr, hs⟩ := ((machine leader).relabel (feedbackEvent leader)).exists_runWhere
      (fun _ _ _ => True) (start 7 ++ loops 5 5000000 0)
      (fun s _ => s.rendering leader 5000000 = some (.right, (counting 7).map Double.ofBits))
      (by decide +kernel)
    exact ⟨s, h, hr, hs, (hsnapshot s h hr ⟨5000000, atRest 0,
      ⟨fun _ => 0, fun _ => 0, fun _ => 0, fun _ => 0⟩, false⟩ _ _ hs).1.mpr (by decide +kernel)⟩
  · obtain ⟨s, h, hr, hs⟩ := ((machine leader).relabel (feedbackEvent leader)).exists_runWhere
      (FeedbackFits leader) engage
      (fun _ h => lastRendered .right h = some ((datagram 1).map Double.ofBits))
      (by decide +kernel)
    exact ⟨s, h, hr, hs, hruns s h hr⟩

/-- Feedback that states nine arm joints is accepted, and the leader reads behind its array. -/
theorem feedback_behind :
    (counting 9).decodeAndValidate = true ∧
    ∃ s h, ((machine leader).relabel (feedbackEvent leader)).Runs s h ∧
      s.rendering leader 5000000 = some (.right, (counting 9).map Double.ofBits) ∧
      snapshot? leader.bi (s.robot .right) (s.bcmd .right) ((counting 9).map Double.ofBits) =
        none := by
  refine ⟨FeedbackPacket.decode_encode _ _, ?_⟩
  exact ((machine leader).relabel (feedbackEvent leader)).exists_runWhere
    (fun _ _ _ => True) (start 9 ++ loops 5 5000000 0)
    (fun s _ => s.rendering leader 5000000 = some (.right, (counting 9).map Double.ofBits) ∧
      snapshot? leader.bi (s.robot .right) (s.bcmd .right) ((counting 9).map Double.ofBits) = none)
    (by decide +kernel)

end Runs

end OpenArmTeleop.Leader
