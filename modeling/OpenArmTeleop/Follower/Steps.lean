import OpenArmTeleop.Follower.Machine

/-!
# What one step of the follower can do

For each part of the state, the steps that change it. The invariants use these lemmas and not
the definition of the step.
-/

open Num Run OpenArmTeleop.Net OpenArmTeleop.Core OpenArmTeleop.Control OpenArmTeleop.Safety

namespace OpenArmTeleop.Follower

/-! ## Where the control loop goes -/

def next (cfg : Config) (s : State) : Pc :=
  match s.loop.pc with
  | .startup => .head
  | .head => if s.keepRunning then .exchange .recover else .finish .right
  | .exchange k => if s.requested k then .mark k else afterRequest k
  | .mark k => startRequest cfg k
  | .enable a => match a with | .right => .enable .left | .left => .spawn .recover
  | .copyTarget =>
    if !cfg.mock && s.gotoTarget.length == 16 then .spawn .goto else .clear .goto
  | .spawn k => afterRequest k
  | .resetSafety k a => match a with | .right => .resetSafety k .left | .left => .clear k
  | .clear k => afterRequest k
  | .getLatest a => match a with | .right => .getLatest .left | .left => .nowNs .right
  | .nowNs a => if (s.loop.target a).isSome then .receiveTime a else afterUpdate a
  | .receiveTime a => .update a
  | .update a => afterUpdate a
  | .getState a => match a with | .right => .getState .left | .left => .guardInit
  | .guardInit => if cfg.mock || s.inProgress .init then .linkCheck else .guardRecover
  | .guardRecover => if s.inProgress .recover then .linkCheck else .stream .right
  | .stream a =>
    if tracks (s.loop.st a) then .unilateralStep a
    else if s.loop.st a = .hold then .unilateralStep a
    else if stops (s.loop.st a) then .disableAll a
    else afterStream a
  | .unilateralStep a => afterStream a
  | .disableAll a => afterStream a
  | .linkCheck => if cfg.feedbackEnabled then .fbReceiveTime .right else .head
  | .fbReceiveTime a => .fbFill a
  | .fbFill a => match a with | .right => .fbReceiveTime .left | .left => .head
  | .finish a => if cfg.mock then .exited else match a with | .right => .finish .left | .left => .exited
  | .exited => .exited

section Lemmas

variable [Rounding] (cfg : Config) (s : State) (env : Env)

theorem loopStep_pc : (loopStep cfg s env).1.loop.pc = next cfg s := by
  cases hpc : s.loop.pc <;> simp only [loopStep, next, hpc] <;> (repeat' split) <;>
    simp_all [State.goto]

/-! ## What the control loop writes -/

theorem loopStep_st (a : ArmSide) :
    (loopStep cfg s env).1.loop.st a =
      if s.loop.pc = .getState a then (s.safety a).state else s.loop.st a := by
  cases hpc : s.loop.pc with
  | getState b =>
    simp only [loopStep, hpc, State.goto, Function.update_apply, Pc.getState.injEq, eq_comm]
    split <;> simp_all
  | _ =>
    simp only [loopStep, hpc]
    (repeat' split) <;> simp_all [State.goto] <;> rfl

theorem loopStep_target (a : ArmSide) :
    (loopStep cfg s env).1.loop.target a =
      if s.loop.pc = .getLatest a then (s.buffer a).getLatest else s.loop.target a := by
  cases hpc : s.loop.pc with
  | getLatest b =>
    simp only [loopStep, hpc, State.goto, Function.update_apply, Pc.getLatest.injEq, eq_comm]
    split <;> simp_all
  | _ =>
    simp only [loopStep, hpc]
    (repeat' split) <;> simp_all [State.goto] <;> rfl

theorem loopStep_gap (a : ArmSide) :
    (loopStep cfg s env).1.loop.gap a =
      if s.loop.pc = .receiveTime a then ageMs s.loop.nowNs (s.buffer a).lastReceiveTimeNs
      else s.loop.gap a := by
  cases hpc : s.loop.pc with
  | receiveTime b =>
    simp only [loopStep, hpc, State.goto, Function.update_apply, Pc.receiveTime.injEq, eq_comm]
    split <;> simp_all
  | _ =>
    simp only [loopStep, hpc]
    (repeat' split) <;> simp_all [State.goto] <;> rfl

theorem loopStep_requested (k : MotionKind) :
    (loopStep cfg s env).1.requested k =
      if s.loop.pc = .exchange k then false else s.requested k := by
  cases hpc : s.loop.pc with
  | exchange j =>
    simp only [loopStep, hpc, Pc.exchange.injEq]
    rcases eq_or_ne j k with rfl | hjk
    · split <;> simp_all [State.goto]
    · split <;> simp [State.goto, Function.update_of_ne hjk.symm]
  | _ =>
    simp only [loopStep, hpc]
    (repeat' split) <;> simp_all [State.goto] <;> rfl

theorem loopStep_inProgress (k : MotionKind) :
    (loopStep cfg s env).1.inProgress k =
      if s.loop.pc = .mark k then true
      else if s.loop.pc = .clear k then false
      else s.inProgress k := by
  cases hpc : s.loop.pc with
  | mark j => simp [loopStep, hpc, State.goto, State.setInProgress, Function.update_apply, eq_comm]
  | clear j => simp [loopStep, hpc, State.goto, State.setInProgress, Function.update_apply, eq_comm]
  | _ =>
    simp only [loopStep, hpc]
    (repeat' split) <;> simp_all [State.goto] <;> rfl

theorem loopStep_motions :
    (loopStep cfg s env).1.motions =
      match s.loop.pc with
      | .spawn k => s.motions ++ [Motion.new (some k) s.loop.goal]
      | _ => s.motions := by
  cases hpc : s.loop.pc <;> simp only [loopStep, hpc] <;> (repeat' split) <;> rfl

theorem loopStep_buffer : (loopStep cfg s env).1.buffer = s.buffer := by
  cases hpc : s.loop.pc <;> simp only [loopStep, hpc] <;> (repeat' split) <;> rfl

theorem loopStep_control : (loopStep cfg s env).1.control = s.control := by
  cases hpc : s.loop.pc <;> simp only [loopStep, hpc] <;> (repeat' split) <;> rfl

theorem loopStep_signal : (loopStep cfg s env).1.signal = s.signal := by
  cases hpc : s.loop.pc <;> simp only [loopStep, hpc] <;> (repeat' split) <;> rfl

/-- What the control loop records, and where. -/
inductive Records : Event → Prop
  | iteration : s.loop.pc = .head → Records .iteration
  | taken (k : MotionKind) : s.loop.pc = .exchange k → s.requested k = true → Records (.taken k)
  | enableAll (a : ArmSide) : s.loop.pc = .enable a → Records (.enableAll a)
  | motionReset (k : MotionKind) (a : ArmSide) : s.loop.pc = .resetSafety k a →
      Records (.motionReset a)
  | safetyUpdate (a : ArmSide) (p : TeleopPacket Double) : s.loop.pc = .update a →
      s.loop.target a = some p →
      Records (.safetyUpdate a p (s.loop.gap a) (s.safety a).estopTriggered)
  | applied (a : ArmSide) (p : TeleopPacket Double) : s.loop.pc = .stream a →
      tracks (s.loop.st a) = true → s.loop.target a = some p →
      Records (.applied a (s.robot a).referencePositions
        (applyTarget cfg.rateLimiter (s.robot a) p env.behind).referencePositions)
  | unilateralStep (a : ArmSide) : s.loop.pc = .unilateralStep a → Records (.unilateralStep a)
  | disableAll (a : ArmSide) : s.loop.pc = .disableAll a → Records (.disableAll a)
  | finish (a : ArmSide) : s.loop.pc = .finish a → Records (.disableAll a)
  | feedback (a : ArmSide) : s.loop.pc = .fbFill a →
      Records (.feedback a (fillFeedback a (((s.loop.target a).map (·.mode)).getD 0) (s.loop.st a)
        s.loop.fbLinkOk (s.loop.target a) s.loop.fbReceiveTimeNs env.nowNs (s.loop.responses a).1
        (s.loop.responses a).2 s.loop.fbSeq))

theorem loopStep_records {e : Event} (he : (loopStep cfg s env).2 = some e) :
    Records cfg s env e := by
  unfold loopStep at he
  cases hpc : s.loop.pc <;> simp only [hpc] at he
  case head =>
    split at he <;> cases he
    exact .iteration hpc
  case exchange k =>
    split at he <;> cases he
    exact .taken k hpc (by assumption)
  case enable a =>
    cases he
    exact .enableAll a hpc
  case resetSafety k a =>
    cases he
    exact .motionReset k a hpc
  case update a =>
    split at he <;> cases he
    exact .safetyUpdate a _ hpc (by assumption)
  case stream a =>
    split at he
    · rename_i htracks
      split at he <;> cases he
      exact .applied a _ hpc htracks (by assumption)
    · (repeat' split at he) <;> cases he
  case unilateralStep a =>
    cases he
    exact .unilateralStep a hpc
  case disableAll a =>
    cases he
    exact .disableAll a hpc
  case finish a =>
    split at he <;> cases he
    exact .finish a hpc
  case fbFill a => split at he <;> cases he <;> exact .feedback _ hpc
  all_goals (repeat' split at he) <;> cases he

/-! ## The motion threads -/

inductive MotionStep (i : ℕ) (a : ArmSide) (measured : Measured Double) (m : Motion) :
    State → Option Event → Prop
  | wake : m.phase = .sleeping →
      MotionStep i a measured m (s.setMotion i { m with phase := .moving }) none
  | begin : m.phase = .moving →
      MotionStep i a measured m
        (s.setMotion i (m.setArm a { m.arms a with start := some measured })) none
  | issue (command : Pose Double) : m.phase = .moving → (m.arms a).issued < nstep →
      MotionStep i a measured m
        ((s.setMotion i (m.setArm a { m.arms a with issued := (m.arms a).issued + 1 })).setRobot a
          ((s.robot a).setAllResponses measured.noEffort))
        (some (.interpolate i a (m.arms a).issued command))
  | arrive : m.phase = .moving → ¬ (m.arms a).issued < nstep →
      MotionStep i a measured m
        ((s.setMotion i (m.arrive a)).setRobot a ((s.robot a).settle measured)) none
  | reset (b : ArmSide) : m.phase = .resetting b →
      MotionStep i a measured m
        ((s.setMotion i { m with phase := .afterReset b }).setSafety b (s.safety b).reset)
        (some (.motionReset b))
  | clear : m.phase = .clearing →
      MotionStep i a measured m
        ((s.setMotion i { m with phase := .done }).clearFlag m.kind) none

theorem motionStep_cases (i : ℕ) (a : ArmSide) (measured : Measured Double) (s' : State)
    (e : Option Event) (h : motionStep s i a measured = some (s', e)) :
    ∃ m, s.motions[i]? = some m ∧ MotionStep s i a measured m s' e := by
  unfold motionStep at h
  cases hm : s.motions[i]? with
  | none => simp [hm] at h
  | some m =>
    refine ⟨m, rfl, ?_⟩
    simp only [hm] at h
    cases hphase : m.phase with
    | sleeping =>
      simp only [hphase, Option.some.injEq, Prod.mk.injEq] at h
      obtain ⟨rfl, rfl⟩ := h
      exact .wake hphase
    | moving =>
      simp only [hphase] at h
      split at h
      · obtain ⟨rfl, rfl⟩ := Prod.mk.inj (Option.some.inj h)
        exact .begin hphase
      · split at h
        · rename_i hlt
          obtain ⟨rfl, rfl⟩ := Prod.mk.inj (Option.some.inj h)
          exact .issue _ hphase hlt
        · rename_i hlt
          split at h
          · simp at h
          · obtain ⟨rfl, rfl⟩ := Prod.mk.inj (Option.some.inj h)
            exact .arrive hphase hlt
    | resetting b =>
      simp only [hphase, Option.some.injEq, Prod.mk.injEq] at h
      obtain ⟨rfl, rfl⟩ := h
      exact .reset b hphase
    | clearing =>
      simp only [hphase, Option.some.injEq, Prod.mk.injEq] at h
      obtain ⟨rfl, rfl⟩ := h
      exact .clear hphase
    | done => simp [hphase] at h

/-! ## All steps -/

/-- The ways in which the program can take a step. -/
inductive Step : Action → State → Option Event → Prop
  | receive (c : Command) : s.control = [] →
      Step (.receive c) { s with control := handler c } (some (.received c))
  | control (x : Access) (rest : List Access) : s.control = x :: rest →
      Step .control ({ s with control := rest }.access x).1 ({ s with control := rest }.access x).2
  | sigint : s.signal = [] → Step .sigint { s with signal := signalHandler } none
  | signal (x : Access) (rest : List Access) : s.signal = x :: rest →
      Step .signal ({ s with signal := rest }.access x).1 ({ s with signal := rest }.access x).2
  | packet (a : ArmSide) (p : TeleopPacket UInt64) (nowNs : UInt64) :
      p.decodeAndValidate = true →
      Step (.packet a p nowNs)
        { s with
          buffer := Function.update s.buffer a ((s.buffer a).update (p.map Double.ofBits) nowNs) }
        none
  | drop (a : ArmSide) (p : TeleopPacket UInt64) (nowNs : UInt64) : Step (.packet a p nowNs) s none
  | loop (env : Env) : s.blocked = false →
      Step (.loop env) (loopStep cfg s env).1 (loopStep cfg s env).2
  | motion (i : ℕ) (a : ArmSide) (measured : Measured Double) (m : Motion) (s' : State)
      (e : Option Event) : s.motions[i]? = some m → MotionStep s i a measured m s' e →
      Step (.motion i a measured) s' e

theorem step_cases (act : Action) (s' : State) (e : Option Event)
    (h : (machine cfg).step s act = some (s', e)) : Step cfg s act s' e := by
  change step cfg s act = some (s', e) at h
  cases act with
  | receive c =>
    simp only [step] at h
    split at h
    · rename_i hidle
      obtain ⟨rfl, rfl⟩ := Prod.mk.inj (Option.some.inj h)
      exact .receive c hidle
    · simp at h
  | control =>
    simp only [step] at h
    split at h
    · simp at h
    · rename_i x rest hx
      obtain ⟨rfl, rfl⟩ := Prod.mk.inj (Option.some.inj h)
      exact .control x rest hx
  | sigint =>
    simp only [step] at h
    split at h
    · rename_i hidle
      obtain ⟨rfl, rfl⟩ := Prod.mk.inj (Option.some.inj h)
      exact .sigint hidle
    · simp at h
  | signal =>
    simp only [step] at h
    split at h
    · simp at h
    · rename_i x rest hx
      obtain ⟨rfl, rfl⟩ := Prod.mk.inj (Option.some.inj h)
      exact .signal x rest hx
  | packet a p nowNs =>
    simp only [step] at h
    split at h
    · rename_i hok
      obtain ⟨rfl, rfl⟩ := Prod.mk.inj (Option.some.inj h)
      exact .packet a p nowNs hok
    · obtain ⟨rfl, rfl⟩ := Prod.mk.inj (Option.some.inj h)
      exact .drop a p nowNs
  | loop env =>
    simp only [step] at h
    split at h
    · simp at h
    · rename_i hblocked
      obtain ⟨rfl, rfl⟩ := Prod.mk.inj (Option.some.inj h)
      exact .loop env (by simpa using hblocked)
  | motion i a measured =>
    obtain ⟨m, hm, hstep⟩ := motionStep_cases s i a measured s' e h
    exact .motion i a measured m s' e hm hstep

end Lemmas

/-! ## What leaves the control loop alone -/

section Frame

variable (s : State)

@[simp] theorem access_loop (x : Access) : (s.access x).1.loop = s.loop := by
  cases x <;> rfl

@[simp] theorem access_buffer (x : Access) : (s.access x).1.buffer = s.buffer := by
  cases x <;> rfl

@[simp] theorem access_motions (x : Access) : (s.access x).1.motions = s.motions := by
  cases x <;> rfl

@[simp] theorem access_inProgress (x : Access) : (s.access x).1.inProgress = s.inProgress := by
  cases x <;> rfl

@[simp] theorem access_robot (x : Access) : (s.access x).1.robot = s.robot := by
  cases x <;> rfl

@[simp] theorem access_control (x : Access) : (s.access x).1.control = s.control := by
  cases x <;> rfl

@[simp] theorem access_signal (x : Access) : (s.access x).1.signal = s.signal := by
  cases x <;> rfl

@[simp] theorem clearFlag_loop (k : Option MotionKind) : (s.clearFlag k).loop = s.loop := by
  cases k <;> rfl

@[simp] theorem clearFlag_buffer (k : Option MotionKind) :
    (s.clearFlag k).buffer = s.buffer := by
  cases k <;> rfl

@[simp] theorem clearFlag_safety (k : Option MotionKind) :
    (s.clearFlag k).safety = s.safety := by
  cases k <;> rfl

@[simp] theorem clearFlag_robot (k : Option MotionKind) : (s.clearFlag k).robot = s.robot := by
  cases k <;> rfl

@[simp] theorem clearFlag_motions (k : Option MotionKind) :
    (s.clearFlag k).motions = s.motions := by
  cases k <;> rfl

@[simp] theorem clearFlag_requested (k : Option MotionKind) :
    (s.clearFlag k).requested = s.requested := by
  cases k <;> rfl

@[simp] theorem clearFlag_control (k : Option MotionKind) : (s.clearFlag k).control = s.control := by
  cases k <;> rfl

@[simp] theorem clearFlag_signal (k : Option MotionKind) : (s.clearFlag k).signal = s.signal := by
  cases k <;> rfl

theorem motionStep_handlers {i : ℕ} {a : ArmSide} {measured : Measured Double} {m : Motion}
    {s' : State} {e : Option Event} (h : MotionStep s i a measured m s' e) :
    s'.requested = s.requested ∧ s'.control = s.control ∧ s'.signal = s.signal := by
  cases h with
  | clear => exact ⟨clearFlag_requested _ _, clearFlag_control _ _, clearFlag_signal _ _⟩
  | _ => exact ⟨rfl, rfl, rfl⟩

theorem motionStep_loop {i : ℕ} {a : ArmSide} {measured : Measured Double} {m : Motion}
    {s' : State} {e : Option Event} (h : MotionStep s i a measured m s' e) :
    s'.loop = s.loop ∧ s'.buffer = s.buffer := by
  cases h with
  | clear => exact ⟨clearFlag_loop _ _, clearFlag_buffer _ _⟩
  | _ => exact ⟨rfl, rfl⟩

theorem setSafety_apply (a b : ArmSide) (m : SafetyManager) :
    (s.setSafety b m).safety a = if b = a then m else s.safety a := by
  by_cases h : b = a
  · subst h
    simp [State.setSafety]
  · simp [State.setSafety, h, Function.update_of_ne (Ne.symm h)]

/-! ## Safety managers and events -/

def Event.safety (a : ArmSide) (m : SafetyManager) : Event → SafetyManager
  | .estop b => if b = a then m.triggerEstop else m
  | .commandReset b | .motionReset b => if b = a then m.reset else m
  | .safetyUpdate b p ms _ => if b = a then m.update p ms else m
  | _ => m

theorem access_safety (x : Access) (a : ArmSide) :
    (s.access x).1.safety a =
      ((s.access x).2.map (Event.safety a (s.safety a))).getD (s.safety a) := by
  cases x with
  | reset b =>
    simp only [State.access, setSafety_apply, Option.map_some, Option.getD_some, Event.safety]
    split <;> simp_all
  | triggerEstop b =>
    simp only [State.access, setSafety_apply, Option.map_some, Option.getD_some, Event.safety]
    split <;> simp_all
  | _ => rfl

@[simp] theorem Event.safety_config (a : ArmSide) (m : SafetyManager) (e : Event) :
    (e.safety a m).config = m.config := by
  cases e with
  | estop | commandReset | motionReset | safetyUpdate =>
    simp only [Event.safety]
    split <;> simp
  | _ => rfl

end Frame

section Events

variable [Rounding] (cfg : Config) (s : State)

theorem loopStep_safety (env : Env) (a : ArmSide) :
    (loopStep cfg s env).1.safety a =
      ((loopStep cfg s env).2.map (Event.safety a (s.safety a))).getD (s.safety a) := by
  cases hpc : s.loop.pc with
  | resetSafety k b =>
    simp only [loopStep, hpc, State.goto, setSafety_apply, Option.map_some, Option.getD_some,
      Event.safety]
    split <;> simp_all
  | update b =>
    simp only [loopStep, hpc]
    split
    · rfl
    · simp only [State.goto, setSafety_apply, Option.map_some, Option.getD_some, Event.safety]
      split <;> simp_all
  | _ =>
    simp only [loopStep, hpc]
    (repeat' split) <;> rfl

theorem loopStep_safety_cases (env : Env) (a : ArmSide) :
    (loopStep cfg s env).1.safety a = s.safety a ∨
      (∃ p, s.loop.pc = .update a ∧ s.loop.target a = some p ∧
        (loopStep cfg s env).1.safety a = (s.safety a).update p (s.loop.gap a)) ∨
      ∃ k, s.loop.pc = .resetSafety k a ∧
        (loopStep cfg s env).1.safety a = (s.safety a).reset := by
  cases hpc : s.loop.pc with
  | resetSafety k b =>
    simp only [loopStep, hpc, State.goto, setSafety_apply]
    by_cases hb : b = a
    · subst hb
      exact .inr (.inr ⟨k, rfl, if_pos rfl⟩)
    · exact .inl (if_neg hb)
  | update b =>
    simp only [loopStep, hpc]
    split
    · exact .inl rfl
    · rename_i p hp
      simp only [State.goto, setSafety_apply]
      by_cases hb : b = a
      · subst hb
        exact .inr (.inl ⟨p, rfl, hp, if_pos rfl⟩)
      · exact .inl (if_neg hb)
  | _ =>
    left
    simp only [loopStep, hpc] <;> (repeat' split) <;> rfl

/-- A safety manager changes only by the calls that the events record. -/
theorem step_safety {act : Action} {s' : State} {e : Option Event} (h : Step cfg s act s' e)
    (a : ArmSide) : s'.safety a = (e.map (Event.safety a (s.safety a))).getD (s.safety a) := by
  cases h with
  | receive | sigint | packet | drop => rfl
  | control x rest _ => exact access_safety { s with control := rest } x a
  | signal x rest _ => exact access_safety { s with signal := rest } x a
  | loop env _ => exact loopStep_safety cfg s env a
  | motion i b measured m s' e _ hm =>
    cases hm with
    | reset c _ =>
      simp only [setSafety_apply, Option.map_some, Option.getD_some, Event.safety]
      split <;> simp_all [State.setMotion]
    | clear => simp [State.setMotion]
    | _ => rfl

theorem step_safety_config {act : Action} {s' : State} {e : Option Event}
    (h : Step cfg s act s' e) (a : ArmSide) : (s'.safety a).config = (s.safety a).config := by
  rw [step_safety cfg s h a]
  cases e with
  | none => rfl
  | some x => exact Event.safety_config a _ x

theorem step_hasData {act : Action} {s' : State} {e : Option Event} (h : Step cfg s act s' e)
    (a : ArmSide) (hd : (s.buffer a).hasData = true) : (s'.buffer a).hasData = true := by
  cases h with
  | receive | sigint | drop => exact hd
  | control x rest _ | signal x rest _ => rwa [access_buffer]
  | loop env _ => rwa [loopStep_buffer]
  | motion i b measured m s' e _ hm => rwa [(motionStep_loop s hm).2]
  | packet b p now _ =>
    by_cases hb : a = b
    · subst hb
      simp
    · simpa [Function.update_of_ne hb] using hd

/-- The handler of signals never runs past what it was given. -/
theorem step_signalHandler {act : Action} {s' : State} {e : Option Event} (h : Step cfg s act s' e)
    (hsignal : ∀ x ∈ s.signal, x ∈ signalHandler) : ∀ x ∈ s'.signal, x ∈ signalHandler := by
  cases h with
  | receive | packet | drop => exact hsignal
  | sigint => exact fun _ h => h
  | control x rest _ => rwa [access_signal]
  | signal x rest hx =>
    rw [access_signal]
    exact fun y hy => hsignal y (hx ▸ List.mem_cons_of_mem x hy)
  | loop env _ => rwa [loopStep_signal]
  | motion i b measured m s' e _ hm => rwa [(motionStep_handlers s hm).2.2]

/-! ## Who records what -/

/-- The events of the other threads. -/
def Event.outside : Event → Bool
  | .received _ | .requested _ | .estop _ | .commandReset _ | .motionReset _
  | .interpolate .. => true
  | _ => false

/-- Either the control loop takes the step, or it is left alone. -/
theorem step_split {act : Action} {s' : State} {e : Option Event} (h : Step cfg s act s' e) :
    (s'.loop = s.loop ∧ ∀ x, e = some x → x.outside = true) ∨
      ∃ env, s' = (loopStep cfg s env).1 ∧ e = (loopStep cfg s env).2 := by
  have haccess : ∀ s (x : Access) y, (State.access s x).2 = some y → y.outside = true := by
    intro s x y hy
    cases x <;> cases hy <;> rfl
  cases h with
  | receive => exact .inl ⟨rfl, fun x hx => by obtain rfl := Option.some.inj hx; rfl⟩
  | sigint | packet | drop => exact .inl ⟨rfl, nofun⟩
  | control x rest _ => exact .inl ⟨access_loop _ x, haccess _ x⟩
  | signal x rest _ => exact .inl ⟨access_loop _ x, haccess _ x⟩
  | loop env _ => exact .inr ⟨env, rfl, rfl⟩
  | motion i b measured m s' e _ hm =>
    refine .inl ⟨(motionStep_loop s hm).1, fun x hx => ?_⟩
    cases hm <;> first | (obtain rfl := Option.some.inj hx; rfl) | cases hx

theorem step_recorded {act : Action} {s' : State} {x : Event} (h : Step cfg s act s' (some x)) :
    x.outside = true ∨ ∃ env, act = .loop env ∧ Records cfg s env x := by
  generalize he : some x = e at h
  cases h with
  | loop env _ => exact .inr ⟨env, rfl, loopStep_records cfg s env he.symm⟩
  | control y rest _ | signal y rest _ => exact .inl (by cases y <;> cases he <;> rfl)
  | motion i b measured m s' e _ hm => exact .inl (by cases hm <;> cases he <;> rfl)
  | receive => exact .inl (by cases he; rfl)
  | sigint | packet | drop => cases he

theorem step_iteration {act : Action} {s' : State} (h : Step cfg s act s' (some .iteration)) :
    s.loop.pc = .head := by
  rcases step_recorded cfg s h with hout | ⟨env, -, hrecord⟩
  · cases hout
  · cases hrecord with
    | iteration hpc => exact hpc

theorem step_safetyUpdate {act : Action} {s' : State} {a : ArmSide} {p : TeleopPacket Double}
    {ms : Double} {latched : Bool}
    (h : Step cfg s act s' (some (.safetyUpdate a p ms latched))) :
    s.loop.pc = .update a ∧ s.loop.target a = some p ∧ ms = s.loop.gap a ∧
      latched = (s.safety a).estopTriggered := by
  rcases step_recorded cfg s h with hout | ⟨env, -, hrecord⟩
  · cases hout
  · cases hrecord with
    | safetyUpdate a p hpc ht => exact ⟨hpc, ht, rfl, rfl⟩

theorem step_unilateralStep {act : Action} {s' : State} {a : ArmSide}
    (h : Step cfg s act s' (some (.unilateralStep a))) : s.loop.pc = .unilateralStep a := by
  rcases step_recorded cfg s h with hout | ⟨env, -, hrecord⟩
  · cases hout
  · cases hrecord with
    | unilateralStep a hpc => exact hpc

theorem step_interpolate {act : Action} {s' : State} {i n : ℕ} {a : ArmSide}
    {command : Pose Double} (h : Step cfg s act s' (some (.interpolate i a n command))) :
    ∃ m, s.motions[i]? = some m ∧ m.phase = .moving ∧ (m.arms a).issued < nstep := by
  generalize he : some (Event.interpolate i a n command) = e at h
  cases h with
  | receive | sigint | packet | drop => cases he
  | control x rest _ | signal x rest _ => cases x <;> cases he
  | loop env _ => cases loopStep_records cfg s env he.symm
  | motion j b measured m s' e hget hm =>
    cases hm with
    | issue command hphase hlt =>
      cases he
      exact ⟨m, hget, hphase, hlt⟩
    | _ => cases he

/-- A reset that no command asked for comes from the loop or from a thread. -/
theorem step_motionReset {act : Action} {s' : State} {a : ArmSide}
    (h : Step cfg s act s' (some (.motionReset a))) :
    (∃ k, s.loop.pc = .resetSafety k a) ∨ ∃ m ∈ s.motions, m.phase = .resetting a := by
  generalize he : some (Event.motionReset a) = e at h
  cases h with
  | receive | sigint | packet | drop => cases he
  | control x rest _ | signal x rest _ => cases x <;> cases he
  | loop env _ =>
    cases loopStep_records cfg s env he.symm with
    | motionReset k a hpc => exact .inl ⟨k, hpc⟩
  | motion j b measured m s' e hget hm =>
    cases hm with
    | reset c hphase =>
      cases he
      exact .inr ⟨m, List.mem_of_getElem? hget, hphase⟩
    | _ => cases he

end Events

/-! ## Windows of an iteration -/

/-- The control flow of the loop, with both ways at each branch. -/
def Pc.succs (mock : Bool) : Pc → List Pc
  | .startup => [.head]
  | .head => [.exchange .recover, .finish .right]
  | .exchange k => [.mark k, afterRequest k]
  | .mark .recover => if mock then [.resetSafety .recover .right] else [.enable .right]
  | .mark .init => if mock then [.resetSafety .init .right] else [.spawn .init]
  | .mark .goto => [.copyTarget]
  | .enable .right => [.enable .left]
  | .enable .left => [.spawn .recover]
  | .copyTarget => if mock then [.clear .goto] else [.spawn .goto, .clear .goto]
  | .spawn k => [afterRequest k]
  | .resetSafety k .right => [.resetSafety k .left]
  | .resetSafety k .left => [.clear k]
  | .clear k => [afterRequest k]
  | .getLatest .right => [.getLatest .left]
  | .getLatest .left => [.nowNs .right]
  | .nowNs a => [.receiveTime a, afterUpdate a]
  | .receiveTime a => [.update a]
  | .update a => [afterUpdate a]
  | .getState .right => [.getState .left]
  | .getState .left => [.guardInit]
  | .guardInit => if mock then [.linkCheck] else [.linkCheck, .guardRecover]
  | .guardRecover => [.linkCheck, .stream .right]
  | .stream a => [.unilateralStep a, .disableAll a, afterStream a]
  | .unilateralStep a => [afterStream a]
  | .disableAll a => [afterStream a]
  | .linkCheck => [.fbReceiveTime .right, .head]
  | .fbReceiveTime a => [.fbFill a]
  | .fbFill .right => [.fbReceiveTime .left]
  | .fbFill .left => [.head]
  | .finish .right => [.finish .left, .exited]
  | .finish .left => [.exited]
  | .exited => [.exited]

theorem next_mem_succs (cfg : Config) (s : State) : next cfg s ∈ s.loop.pc.succs cfg.mock := by
  cases hmock : cfg.mock <;> cases hpc : s.loop.pc with
  | mark k =>
    cases k <;> simp only [next, hpc, startRequest, hmock] <;> (repeat' split) <;> simp_all [Pc.succs]
  | getLatest a | getState a | enable a | resetSafety _ a | fbFill a | finish a =>
    cases a <;> simp only [next, hpc] <;> (repeat' split) <;> simp [Pc.succs]
  | _ =>
    simp only [next, hpc, hmock]
    (repeat' split) <;> simp_all [Pc.succs]

/-- What holds of each edge of the control flow. It is checked edge by edge. -/
theorem succs_flow {P : Bool → Pc → Pc → Prop} [∀ mock pc pc', Decidable (P mock pc pc')]
    (h : ∀ mock (pc : Pc), (pc.succs mock).all (P mock pc ·) = true) (mock : Bool) (pc : Pc) :
    ∀ pc' ∈ pc.succs mock, P mock pc pc' :=
  fun pc' hmem => of_decide_eq_true (List.all_eq_true.mp (h mock pc) pc' hmem)

theorem next_flow {P : Bool → Pc → Pc → Prop} [∀ mock pc pc', Decidable (P mock pc pc')]
    (h : ∀ mock (pc : Pc), (pc.succs mock).all (P mock pc ·) = true) (cfg : Config) (s : State) :
    P cfg.mock s.loop.pc (next cfg s) :=
  succs_flow h _ _ _ (next_mem_succs cfg s)

/-- The loop has updated arm `a` in this iteration, and has not read its state yet. -/
def Pc.updated : ArmSide → Pc → Bool
  | .right, .nowNs .left | .right, .receiveTime .left | .right, .update .left => true
  | _, .getState .right => true
  | .left, .getState .left => true
  | _, _ => false

/-- The loop has read the state of arm `a` in this iteration. -/
def Pc.decided : ArmSide → Pc → Bool
  | .right, .getState .left => true
  | _, .guardInit | _, .guardRecover | _, .stream _ | _, .unilateralStep _ | _, .disableAll _ => true
  | _, .linkCheck | _, .fbReceiveTime _ | _, .fbFill _ => true
  | _, _ => false

theorem next_updated (cfg : Config) (s : State) (a : ArmSide)
    (h : (next cfg s).updated a = true) :
    s.loop.pc.updated a = true ∨ s.loop.pc = .update a ∨ s.loop.pc = .nowNs a := by
  have hflow := next_flow (P := fun _ pc pc' => ∀ a, pc'.updated a = true →
    pc.updated a = true ∨ pc = .update a ∨ pc = .nowNs a) (by decide +kernel)
  exact hflow cfg s a h

theorem next_decided (cfg : Config) (s : State) (a : ArmSide)
    (h : (next cfg s).decided a = true) :
    s.loop.pc = .getState a ∨ s.loop.pc ≠ .getState a ∧ s.loop.pc.decided a = true := by
  have hflow := next_flow (P := fun _ pc pc' => ∀ a, pc'.decided a = true →
    pc = .getState a ∨ pc ≠ .getState a ∧ pc.decided a = true) (by decide +kernel)
  exact hflow cfg s a h

theorem next_unilateralStep (cfg : Config) (s : State) (a : ArmSide)
    (h : next cfg s = .unilateralStep a) :
    s.loop.pc = .stream a ∧ SafetyManager.running (s.loop.st a) = true := by
  have hflow := next_flow (P := fun _ pc pc' => ∀ a, pc' = .unilateralStep a → pc = .stream a)
    (by decide +kernel)
  have hpc := hflow cfg s a h
  refine ⟨hpc, ?_⟩
  simp only [next, hpc] at h
  cases hst : s.loop.st a <;> simp [hst, tracks, stops, SafetyManager.running] at h ⊢
  cases a <;> simp [afterStream] at h

theorem next_disableAll (cfg : Config) (s : State) (a : ArmSide)
    (h : next cfg s = .disableAll a) : s.loop.pc = .stream a ∧ stops (s.loop.st a) = true := by
  have hflow := next_flow (P := fun _ pc pc' => ∀ a, pc' = .disableAll a → pc = .stream a)
    (by decide +kernel)
  have hpc := hflow cfg s a h
  refine ⟨hpc, ?_⟩
  simp only [next, hpc] at h
  cases hst : s.loop.st a <;> simp [hst, tracks, stops] at h ⊢
  cases a <;> simp [afterStream] at h

end OpenArmTeleop.Follower
