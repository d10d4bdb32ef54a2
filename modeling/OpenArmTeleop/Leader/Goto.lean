import OpenArmTeleop.Leader.Align

/-!
# The last acknowledged pose wins

`goto_pose` goes from a handler to the control loop in two steps on each side: the handler stores
the target and then sets the flag, the loop takes the flag and then copies the target.
-/

open Num Run OpenArmTeleop.Net OpenArmTeleop.Core OpenArmTeleop.Control OpenArmTeleop.Controller

namespace OpenArmTeleop.Leader

/-! ## What happens to a pose -/

inductive GotoEvent
  | received (values : List Double)
  | stored (pose : List Double)
  /-- The handler has set the flag, and answers. -/
  | acknowledged
  /-- The motions to these goals have returned. -/
  | executed (right left : Pose Double)
  deriving DecidableEq

def GotoEvent.of (s : State) : Action → Option GotoEvent
  | .receive (.gotoPose values) => some (.received values)
  | .control _ =>
    match s.control with
    | .storeTarget pose :: _ => some (.stored pose)
    | .requestGoto :: _ => some .acknowledged
    | _ => none
  | .loop _ =>
    if s.loop.pc = .moveGoto then
      some (.executed (s.moving .right).goal (s.moving .left).goal)
    else none
  | _ => none

/-- The argument of the newest handler. -/
def lastReceived : List GotoEvent → Option (List Double)
  | [] => none
  | .received values :: _ => some values
  | _ :: h => lastReceived h

def lastStored : List GotoEvent → Option (List Double)
  | [] => none
  | .stored pose :: _ => some pose
  | _ :: h => lastStored h

/-- The argument of the newest handler that has answered. -/
def lastAcknowledged : List GotoEvent → Option (List Double)
  | [] => none
  | .acknowledged :: h => lastReceived h
  | _ :: h => lastAcknowledged h

def lastExecuted : List GotoEvent → Option (Pose Double × Pose Double)
  | [] => none
  | .executed right left :: _ => some (right, left)
  | _ :: h => lastExecuted h

/-- The poses of the two arms in the values of a command. -/
def arms (values : List Double) : Pose Double × Pose Double :=
  (posePart values .right, posePart values .left)

/-- A handler stores its argument, and what is executed was stored so. -/
def StoredWhole : GotoEvent → List GotoEvent → Prop
  | .stored pose, h => lastReceived h = some pose
  | .executed right left, h => ∃ pose, .stored pose ∈ h ∧ (right, left) = arms pose
  | _, _ => True

def Access.isGoto : Access → Bool
  | .storeTarget _ | .requestGoto => true
  | _ => false

/-- The flag is clear and neither side is in the middle of its sequence. -/
def GotoSettled (s : State) : Prop :=
  s.gotoRequested = false ∧ s.control.head? ≠ some .requestGoto ∧
    s.loop.pc ∉ [.markGoto, .copyTarget, .moveGoto]

instance (s : State) : Decidable (GotoSettled s) := inferInstanceAs (Decidable (_ ∧ _ ∧ _))

/-! ## Steps -/

/-- A handler of another command. -/
theorem access_other (cfg : Config) (s : State) (gateOk : Bool) {x : Access}
    (hx : x.isGoto = false) :
    ((s.access cfg gateOk x).control = s.control ∨ (s.access cfg gateOk x).control = []) ∧
      (s.access cfg gateOk x).gotoTarget = s.gotoTarget ∧
      (s.access cfg gateOk x).gotoRequested = s.gotoRequested ∧
      (s.access cfg gateOk x).loop = s.loop ∧ (s.access cfg gateOk x).moving = s.moving := by
  cases x with
  | storeTarget | requestGoto => cases hx
  | checkEnabled | checkGate =>
    simp only [State.access]
    split <;> simp
  | setEnabled | setBilateral | requestInit | stop => simp [State.access]

section Steps

variable [Rounding]

theorem goalPose_posePart {values : List Double} (hlen : values.length = 16) (a : ArmSide) :
    goalPose (posePart values a) = posePart values a := by
  match values, hlen with
  | [_, _, _, _, _, _, _, _, _, _, _, _, _, _, _, _], _ => cases a <;> rfl

theorem loopStep_goto (cfg : Config) (s : State) (env : Env) :
    (loopStep cfg s env).1.control = s.control ∧
      (loopStep cfg s env).1.gotoTarget = s.gotoTarget ∧
      (loopStep cfg s env).1.gotoRequested =
        (decide (s.loop.pc ≠ .exchangeGoto) && s.gotoRequested) := by
  cases hpc : s.loop.pc <;> simp only [loopStep, hpc] <;> (repeat' split) <;>
    simp_all [State.goto, State.setRobot]

/-- How the loop gets into the middle of its sequence. -/
theorem loopStep_gotoPc {cfg : Config} (hmock : cfg.mock = false) (s : State) (env : Env) :
    ((loopStep cfg s env).1.loop.pc = .markGoto ↔
        s.loop.pc = .exchangeGoto ∧ s.gotoRequested = true) ∧
      ((loopStep cfg s env).1.loop.pc = .copyTarget ↔ s.loop.pc = .markGoto) ∧
      ((loopStep cfg s env).1.loop.pc = .moveGoto ↔
        s.loop.pc = .copyTarget ∧ s.gotoTarget.length = 16) := by
  cases hpc : s.loop.pc <;> simp only [loopStep, hpc, afterGoto] <;> (repeat' split) <;>
    simp_all [State.goto, State.setRobot]

theorem loopStep_copyTarget (cfg : Config) {s : State} (hpc : s.loop.pc = .copyTarget) (env : Env) :
    (loopStep cfg s env).1.moving = fun a => .new (posePart s.gotoTarget a) := by
  simp [loopStep, hpc, State.goto]

theorem motionStep_goal {s : State} {a : ArmSide} {measured : Measured Double} {s' : State}
    {e : Option Event} (h : s.motionStep a measured = some (s', e)) :
    s'.control = s.control ∧ s'.gotoTarget = s.gotoTarget ∧
      s'.gotoRequested = s.gotoRequested ∧ s'.loop = s.loop ∧
      ∀ b, (s'.moving b).goal = (s.moving b).goal := by
  simp only [State.motionStep] at h
  (repeat' split at h) <;> cases h <;> refine ⟨rfl, rfl, rfl, rfl, fun b => ?_⟩ <;>
    by_cases hb : b = a <;> simp [State.setMoving, State.setRobot, hb]

end Steps

/-! ## The invariant -/

/-- Where the handler is. `goto_pose` has its whole argument in each of its accesses. -/
inductive HandlerAt (s : State) (h : List GotoEvent) : Prop
  | other (hother : ∀ x ∈ s.control, x.isGoto = false)
  | store (pose : List Double) (hlen : pose.length = 16) (hreceived : lastReceived h = some pose)
      (hcontrol : s.control = [.storeTarget pose, .requestGoto])
  | request (pose : List Double) (hreceived : lastReceived h = some pose)
      (hstored : lastStored h = some pose) (hcontrol : s.control = [.requestGoto])

/-- The last stored pose is the target of the state, and on its way to the arms unless it has been
executed. -/
structure GotoInv [Rounding] (s : State) (h : List GotoEvent) : Prop where
  handler : HandlerAt s h
  target : ∀ pose, lastStored h = some pose →
    s.gotoTarget = pose ∧ pose.length = 16 ∧ .stored pose ∈ h
  acknowledged : s.control.head? ≠ some .requestGoto → lastAcknowledged h = lastStored h
  pending : s.gotoRequested = true ∨ s.loop.pc = .markGoto ∨ s.loop.pc = .copyTarget →
    lastStored h = some s.gotoTarget
  moving : s.loop.pc = .moveGoto →
    ∃ pose, .stored pose ∈ h ∧ ((s.moving .right).goal, (s.moving .left).goal) = arms pose ∧
      (s.gotoRequested = false → s.control.head? ≠ some .requestGoto → lastStored h = some pose)
  executed : GotoSettled s → lastExecuted h = (lastStored h).map arms

theorem HandlerAt.append {s s' : State} {h : List GotoEvent} (hh : HandlerAt s h)
    (new : List GotoEvent) (hcontrol : s'.control = s.control)
    (hreceived : lastReceived (new ++ h) = lastReceived h)
    (hstored : lastStored (new ++ h) = lastStored h) : HandlerAt s' (new ++ h) := by
  cases hh with
  | other hother => exact .other (hcontrol ▸ hother)
  | store pose hlen hr hc => exact .store pose hlen (hreceived.trans hr) (hcontrol.trans hc)
  | request pose hr hs hc =>
    exact .request pose (hreceived.trans hr) (hstored.trans hs) (hcontrol.trans hc)

section Invariant

variable [Rounding] {cfg : Config} {s s' : State} {h : List GotoEvent}

theorem gotoInv_start (cfg : Config) : GotoInv (State.start cfg) [] where
  handler := .other nofun
  target := nofun
  acknowledged _ := rfl
  pending := by rintro (h | h | h) <;> cases h
  moving := nofun
  executed _ := rfl

/-- The target stays while nothing is stored. -/
theorem GotoInv.target_append (hI : GotoInv s h) (new : List GotoEvent)
    (hstored : lastStored (new ++ h) = lastStored h) (htarget : s'.gotoTarget = s.gotoTarget)
    {pose : List Double} (hpose : lastStored (new ++ h) = some pose) :
    s'.gotoTarget = pose ∧ pose.length = 16 ∧ .stored pose ∈ new ++ h := by
  obtain ⟨hsame, hlen, hmem⟩ := hI.target pose (hstored.symm.trans hpose)
  exact ⟨htarget.trans hsame, hlen, List.mem_append_right new hmem⟩

/-- A step that changes nothing of the handover, though a handler may have come or gone on. -/
theorem GotoInv.keep (hI : GotoInv s h) (e : Option GotoEvent)
    (he : ∀ x, e = some x → ∃ values, x = .received values) (hhandler : HandlerAt s' (e.toList ++ h))
    (hhead : s'.control.head? ≠ some .requestGoto → s.control.head? ≠ some .requestGoto)
    (htarget : s'.gotoTarget = s.gotoTarget) (hflag : s'.gotoRequested = s.gotoRequested)
    (hloop : s'.loop = s.loop) (hgoal : ∀ a, (s'.moving a).goal = (s.moving a).goal) :
    GotoInv s' (e.toList ++ h) := by
  have hevent : lastStored (e.toList ++ h) = lastStored h ∧
      lastAcknowledged (e.toList ++ h) = lastAcknowledged h ∧
      lastExecuted (e.toList ++ h) = lastExecuted h := by
    cases e with
    | none => exact ⟨rfl, rfl, rfl⟩
    | some x =>
      obtain ⟨values, rfl⟩ := he x rfl
      exact ⟨rfl, rfl, rfl⟩
  obtain ⟨hstored, hacknowledged, hexecuted⟩ := hevent
  refine ⟨hhandler, ?_, ?_, ?_, ?_, ?_⟩
  · exact fun pose hpose => hI.target_append _ hstored htarget hpose
  · rw [hstored, hacknowledged]
    exact fun hnext => hI.acknowledged (hhead hnext)
  · rw [hstored, hflag, hloop, htarget]
    exact hI.pending
  · rw [hstored, hflag, hloop, hgoal, hgoal]
    intro hpc
    obtain ⟨pose, hmem, hpose, hlast⟩ := hI.moving hpc
    exact ⟨pose, List.mem_append_right _ hmem, hpose, fun hclear hnext => hlast hclear (hhead hnext)⟩
  · rw [hstored, hexecuted]
    rintro ⟨hclear, hnext, hpc⟩
    exact hI.executed ⟨hflag ▸ hclear, hhead hnext, hloop ▸ hpc⟩

/-- A step that neither side of the handover takes. -/
theorem GotoInv.same (hI : GotoInv s h) (hcontrol : s'.control = s.control)
    (htarget : s'.gotoTarget = s.gotoTarget) (hflag : s'.gotoRequested = s.gotoRequested)
    (hloop : s'.loop = s.loop) (hgoal : ∀ a, (s'.moving a).goal = (s.moving a).goal) :
    GotoInv s' h :=
  hI.keep none nofun (hI.handler.append [] hcontrol rfl rfl) (hcontrol ▸ id) htarget hflag hloop
    hgoal

theorem gotoInv_receive (hI : GotoInv s h) (hidle : s.control = []) (c : Command) :
    GotoInv { s with control := handler c } ((GotoEvent.of s (.receive c)).toList ++ h) := by
  have hhead : s.control.head? ≠ some .requestGoto := by simp [hidle]
  by_cases hgoto : ∃ values, c = .gotoPose values
  · obtain ⟨values, rfl⟩ := hgoto
    refine hI.keep (some (.received values)) (fun x hx => ⟨values, (Option.some.inj hx).symm⟩) ?_
      (fun _ => hhead) rfl rfl rfl fun _ => rfl
    by_cases hlen : values.length = 16
    · exact .store values hlen rfl (by simp [handler, hlen])
    · exact .other (by simp [handler, hlen])
  · have hevent : GotoEvent.of s (.receive c) = none := by
      cases c with
      | gotoPose values => exact absurd ⟨values, rfl⟩ hgoto
      | _ => rfl
    rw [hevent]
    refine hI.keep none nofun ?_ (fun _ => hhead) rfl rfl rfl fun _ => rfl
    cases c with
    | gotoPose values => exact absurd ⟨values, rfl⟩ hgoto
    | _ => exact .other (by simp [handler, Access.isGoto])

/-- One access of a handler. -/
theorem gotoInv_control (cfg : Config) (hI : GotoInv s h) {x : Access} {rest : List Access}
    (hc : s.control = x :: rest) (gateOk : Bool) :
    GotoInv ({ s with control := rest }.access cfg gateOk x)
      ((GotoEvent.of s (.control gateOk)).toList ++ h) := by
  cases hI.handler with
  | other hother =>
    have hx : x.isGoto = false := hother x (by simp [hc])
    obtain ⟨hcontrol, htarget, hflag, hloop, hmoving⟩ :=
      access_other cfg { s with control := rest } gateOk hx
    have hevent : GotoEvent.of s (.control gateOk) = none := by
      simp only [GotoEvent.of, hc]
      cases x <;> first | rfl | cases hx
    rw [hevent]
    refine hI.keep none nofun (.other fun y hy => ?_) (fun _ => ?_) htarget hflag hloop
      fun a => by rw [hmoving]
    · rcases hcontrol with hcontrol | hcontrol
      · rw [hcontrol] at hy
        exact hother y (hc ▸ List.mem_cons_of_mem x hy)
      · simp [hcontrol] at hy
    · rw [hc]
      rintro heq
      obtain rfl : x = .requestGoto := Option.some.inj heq
      cases hx
  | store pose hlen hreceived hcontrol =>
    obtain ⟨rfl, rfl⟩ := List.cons.inj (hc.symm.trans hcontrol)
    have hevent : GotoEvent.of s (.control gateOk) = some (.stored pose) := by
      simp [GotoEvent.of, hc]
    rw [hevent]
    -- the flag is still to come, so the old pose may stay the one executed
    refine ⟨.request pose hreceived rfl rfl, ?_, ?_, fun _ => rfl, ?_, ?_⟩
    · rintro _ ⟨⟩
      exact ⟨rfl, hlen, .head _⟩
    · exact fun hnext => absurd rfl hnext
    · intro hpc
      obtain ⟨old, hmem, hgoal, -⟩ := hI.moving hpc
      exact ⟨old, .tail _ hmem, hgoal, fun _ hnext => absurd rfl hnext⟩
    · exact fun hsettled => absurd rfl hsettled.2.1
  | request pose hreceived hstored hcontrol =>
    obtain ⟨rfl, rfl⟩ := List.cons.inj (hc.symm.trans hcontrol)
    have hevent : GotoEvent.of s (.control gateOk) = some .acknowledged := by
      simp [GotoEvent.of, hc]
    rw [hevent]
    obtain ⟨htarget, hlen, hmem⟩ := hI.target pose hstored
    refine ⟨.other nofun, ?_, fun _ => hreceived.trans hstored.symm, fun _ => ?_, ?_, ?_⟩
    · exact fun other hother => hI.target_append [.acknowledged] rfl rfl hother
    · exact hstored.trans (congrArg some htarget.symm)
    · intro hpc
      obtain ⟨old, hmem, hgoal, -⟩ := hI.moving hpc
      exact ⟨old, .tail _ hmem, hgoal, nofun⟩
    · exact fun hsettled => absurd hsettled.1 nofun

/-- The motions to a pose have returned. -/
theorem gotoInv_moveGoto (hmock : cfg.mock = false) (hI : GotoInv s h)
    (hpc : s.loop.pc = .moveGoto) (env : Env) :
    GotoInv (loopStep cfg s env).1 ((GotoEvent.of s (.loop env)).toList ++ h) := by
  obtain ⟨hcontrol, htarget, hflag⟩ := loopStep_goto cfg s env
  obtain ⟨hmark, hcopy, hmove⟩ := loopStep_gotoPc hmock s env
  obtain ⟨pose, -, hgoal, hlast⟩ := hI.moving hpc
  have hevent : GotoEvent.of s (.loop env) =
      some (.executed (s.moving .right).goal (s.moving .left).goal) := by
    simp [GotoEvent.of, hpc]
  have hclear : (loopStep cfg s env).1.gotoRequested = s.gotoRequested := by simp [hflag, hpc]
  rw [hevent]
  refine ⟨?_, ?_, ?_, ?_, ?_, ?_⟩
  · exact hI.handler.append _ hcontrol rfl rfl
  · exact fun pose hstored => hI.target_append [.executed _ _] rfl htarget hstored
  · exact fun hnext => hI.acknowledged (hcontrol ▸ hnext)
  · rw [hclear, hmark, hcopy, htarget, hpc]
    rintro (hpending | ⟨hpc', -⟩ | hpc')
    · exact hI.pending (.inl hpending)
    · cases hpc'
    · cases hpc'
  · rw [hmove, hpc]
    rintro ⟨hpc', -⟩
    cases hpc'
  · rintro ⟨hflag', hnext, -⟩
    have hstored : lastStored h = some pose := hlast (hclear ▸ hflag') (hcontrol ▸ hnext)
    change some _ = (lastStored h).map arms
    rw [hstored, hgoal]
    rfl

/-- The loop goes on, into its sequence or elsewhere. -/
theorem gotoInv_loop (hmock : cfg.mock = false) (hI : GotoInv s h) (hpc : s.loop.pc ≠ .moveGoto)
    (env : Env) : GotoInv (loopStep cfg s env).1 ((GotoEvent.of s (.loop env)).toList ++ h) := by
  obtain ⟨hcontrol, htarget, hflag⟩ := loopStep_goto cfg s env
  obtain ⟨hmark, hcopy, hmove⟩ := loopStep_gotoPc hmock s env
  have hevent : GotoEvent.of s (.loop env) = none := by simp [GotoEvent.of, hpc]
  rw [hevent]
  refine ⟨?_, ?_, ?_, ?_, ?_, ?_⟩
  · exact hI.handler.append _ hcontrol rfl rfl
  · rw [htarget]
    exact hI.target
  · rw [hcontrol]
    exact hI.acknowledged
  · rw [hflag, hmark, hcopy, htarget, Bool.and_eq_true]
    rintro (⟨-, hpending⟩ | ⟨-, hpending⟩ | hmarked)
    · exact hI.pending (.inl hpending)
    · exact hI.pending (.inl hpending)
    · exact hI.pending (.inr (.inl hmarked))
  -- the target is copied
  · rw [hmove]
    rintro ⟨hcopied, hlen⟩
    have hstored := hI.pending (.inr (.inr hcopied))
    refine ⟨s.gotoTarget, (hI.target _ hstored).2.2, ?_, fun _ _ => hstored⟩
    rw [loopStep_copyTarget cfg hcopied]
    simp only [ArmMotion.new, goalPose_posePart hlen, arms]
  -- a sequence that has begun goes on, so it has not
  · rintro ⟨hclear, hnext, hout⟩
    simp only [List.mem_cons, List.not_mem_nil, or_false, not_or] at hout
    rw [hmark, hcopy, hmove] at hout
    obtain ⟨hnotMarked, hnotCopied, hnotMoved⟩ := hout
    refine hI.executed ⟨?_, hcontrol ▸ hnext, ?_⟩
    · rw [hflag] at hclear
      by_contra hset
      rw [Bool.not_eq_false] at hset
      exact hnotMarked ⟨by simpa [hset] using hclear, hset⟩
    · simp only [List.mem_cons, List.not_mem_nil, or_false, not_or]
      refine ⟨hnotCopied, fun hcopied => hnotMoved ⟨hcopied, ?_⟩, hpc⟩
      exact (hI.target _ (hI.pending (.inr (.inr hcopied)))).2.1

theorem gotoInv_step (hmock : cfg.mock = false) (hI : GotoInv s h) {act : Action}
    {e : Option Event} (hs : (machine cfg).step s act = some (s', e)) :
    GotoInv s' ((GotoEvent.of s act).toList ++ h) := by
  cases step_cases cfg s hs with
  | receive c hidle => exact gotoInv_receive hI hidle c
  | control gateOk x rest hc => exact gotoInv_control cfg hI hc gateOk
  | sigint | feedback | drop => exact hI.same rfl rfl rfl rfl fun _ => rfl
  | motion a measured _ _ hm =>
    obtain ⟨hcontrol, htarget, hflag, hloop, hgoal⟩ := motionStep_goal hm
    exact hI.same hcontrol htarget hflag hloop hgoal
  | loop env =>
    by_cases hpc : s.loop.pc = .moveGoto
    · exact gotoInv_moveGoto hmock hI hpc env
    · exact gotoInv_loop hmock hI hpc env

/-- Only the handler stores, and only what it got; the loop executes what was stored. -/
theorem GotoInv.storedWhole (hI : GotoInv s h) {act : Action} {x : GotoEvent}
    (hx : GotoEvent.of s act = some x) : StoredWhole x h := by
  cases act with
  | receive c =>
    cases c <;> cases hx
    trivial
  | control gateOk =>
    simp only [GotoEvent.of] at hx
    split at hx <;> cases hx
    · rename_i pose rest hc
      cases hI.handler with
      | other hother => exact absurd (hother (.storeTarget pose) (by simp [hc])) nofun
      | store other hlen hreceived hcontrol =>
        obtain ⟨heq, -⟩ := List.cons.inj (hc.symm.trans hcontrol)
        cases heq
        exact hreceived
      | request other hreceived hstored hcontrol =>
        obtain ⟨heq, -⟩ := List.cons.inj (hc.symm.trans hcontrol)
        cases heq
    · trivial
  | loop env =>
    simp only [GotoEvent.of] at hx
    split at hx <;> cases hx
    rename_i hpc
    obtain ⟨pose, hmem, hgoal, -⟩ := hI.moving hpc
    exact ⟨pose, hmem, hgoal⟩
  | sigint | feedback | motion => cases hx

end Invariant

/-! ## Runs -/

def gotos [Rounding] (cfg : Config) : Machine State Action GotoEvent :=
  (machine cfg).relabel GotoEvent.of

/-- **The last acknowledged pose wins.** When the flag is clear and neither the handler nor the
loop is in the middle of its sequence, the newest pose executed is the newest acknowledged; and
each pose executed is one that a single handler stored whole. -/
theorem last_pose_wins [Rounding] (cfg : Config) (hmock : cfg.mock = false) (s : State)
    (h : List GotoEvent) (hr : (gotos cfg).Runs s h) :
    (GotoSettled s → lastExecuted h = (lastAcknowledged h).map arms) ∧ Always StoredWhole h := by
  have hrun := hr.always (I := GotoInv) (P := StoredWhole) (gotoInv_start cfg) ?_ ?_
  · obtain ⟨hI, hstored⟩ := hrun
    refine ⟨fun hsettled => ?_, hstored⟩
    rw [hI.executed hsettled, hI.acknowledged hsettled.2.1]
  · rintro s h act s' x hI - hs
    obtain ⟨⟨e, hstep⟩, rfl⟩ := Machine.relabel_step hs
    exact gotoInv_step hmock hI hstep
  · rintro s h act s' x hI - hs
    obtain ⟨-, hx⟩ := Machine.relabel_step hs
    exact hI.storedWhole hx.symm

section Witness

attribute [local instance] Rounding.exact

/-- A second pose comes between the exchange of the flag and the copy of the target. -/
def twoPoses : List Action :=
  moveBoth 0 ++ .receive (.gotoPose (List.replicate 16 0)) :: List.replicate 2 (.control true) ++
    loops 4 0 0 ++ .receive (.gotoPose (List.replicate 16 1)) :: List.replicate 2 (.control true) ++
    loops 2 0 0 ++ moveBoth 1 ++ loops 18 0 1 ++ moveBoth 1 ++ loops 2 0 1

theorem last_pose_wins_two :
    ∃ s h, (gotos leader).Runs s h ∧
      (GotoSettled s ∧ lastExecuted h = some (arms (List.replicate 16 1))) ∧
      lastExecuted h = (lastAcknowledged h).map arms ∧ Always StoredWhole h := by
  obtain ⟨s, h, hr, hq⟩ := (gotos leader).exists_runWhere (fun _ _ _ => True) twoPoses
    (fun s h => GotoSettled s ∧ lastExecuted h = some (arms (List.replicate 16 1)))
    (by decide +kernel)
  obtain ⟨hwins, hstored⟩ := last_pose_wins leader rfl s h hr
  exact ⟨s, h, hr, hq, hwins hq.1, hstored⟩

end Witness

end OpenArmTeleop.Leader
