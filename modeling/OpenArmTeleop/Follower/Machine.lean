import OpenArmTeleop.Core.TeleopBuffer
import OpenArmTeleop.Follower.References
import OpenArmTeleop.Lib.Run
import OpenArmTeleop.Net.Codec
import OpenArmTeleop.Safety.Manager

/-!
# The bimanual follower

`wifi_bimanual_follower.cpp`: the control loop, the command handlers, the signal handler, the
receive threads and the detached motion threads. One action is one access to what they share.
-/

open Num Run OpenArmTeleop.Net OpenArmTeleop.Core OpenArmTeleop.Control OpenArmTeleop.Safety

namespace OpenArmTeleop.Follower

/-! ## Commands and signals -/

inductive MotionKind
  | recover
  | init
  | goto
  deriving DecidableEq

instance : Fintype MotionKind := ⟨{.recover, .init, .goto}, fun k => by cases k <;> decide⟩

inductive Command
  | initPosition
  | gotoPose (values : List Double)
  | resetSafety
  | estop
  | recoverEstop
  | shutdown
  deriving DecidableEq

/-- One access of a handler. -/
inductive Access
  | request (k : MotionKind)
  | storeTarget (pose : List Double)
  | reset (a : ArmSide)
  | triggerEstop (a : ArmSide)
  | stop
  deriving DecidableEq

def handler : Command → List Access
  | .initPosition => [.request .init]
  | .gotoPose values =>
    if values.length = 16 then [.storeTarget values, .request .goto] else []
  | .resetSafety => [.reset .right, .reset .left]
  | .estop => [.triggerEstop .right, .triggerEstop .left]
  | .recoverEstop => [.request .recover]
  | .shutdown => [.stop]

def signalHandler : List Access := [.triggerEstop .right, .triggerEstop .left, .stop]

/-! ## Motions -/

/-- Where a detached thread is. A recovery first waits for the motors. -/
inductive Phase
  | sleeping
  | moving
  | resetting (a : ArmSide)
  | clearing
  | done
  deriving DecidableEq

/-- A motion on behalf of a request. The one at start-up has none, and the program waits for
it. -/
structure Motion where
  kind : Option MotionKind
  phase : Phase
  arms : ArmSide → ArmMotion

section Machine

variable [Rounding]

def Motion.new (kind : Option MotionKind) (target : List Double) : Motion where
  kind := kind
  phase := if kind = some .recover then .sleeping else .moving
  arms a := .new (if kind = some .goto then posePart target a else homePose)

/-! ## The state -/

structure Config where
  mock : Bool
  rateHz : Double
  safety : SafetyConfig
  feedbackEnabled : Bool
  linkOk : Bool

def Config.rateLimiter (cfg : Config) : RateLimiter Double :=
  ⟨cfg.safety.maxTargetDeltaRadPerCycle, cfg.safety.maxJointVelocityRadS, 1 / cfg.rateHz⟩

/-- The next thing the control loop does. -/
inductive Pc
  | startup
  | head
  | exchange (k : MotionKind)
  | mark (k : MotionKind)
  | enable (a : ArmSide)
  | copyTarget
  | spawn (k : MotionKind)
  | resetSafety (k : MotionKind) (a : ArmSide)
  | clear (k : MotionKind)
  | getLatest (a : ArmSide)
  | nowNs (a : ArmSide)
  | receiveTime (a : ArmSide)
  | update (a : ArmSide)
  | getState (a : ArmSide)
  | guardInit
  | guardRecover
  | stream (a : ArmSide)
  | unilateralStep (a : ArmSide)
  | disableAll (a : ArmSide)
  | linkCheck
  | fbReceiveTime (a : ArmSide)
  | fbFill (a : ArmSide)
  | finish (a : ArmSide)
  | exited
  deriving DecidableEq, Fintype

/-- The local variables of the control loop. -/
structure Loop where
  pc : Pc
  goal : List Double
  target : ArmSide → Option (TeleopPacket Double)
  nowNs : UInt64
  gap : ArmSide → Double
  st : ArmSide → SafetyState
  responses : ArmSide → List (JointState Double) × List (JointState Double)
  fbReceiveTimeNs : UInt64
  fbSeq : UInt32
  fbLinkOk : Bool

structure State where
  buffer : ArmSide → TeleopStateBuffer Double
  safety : ArmSide → SafetyManager
  robot : ArmSide → RobotSystemState Double
  keepRunning : Bool
  requested : MotionKind → Bool
  inProgress : MotionKind → Bool
  gotoTarget : List Double
  motions : List Motion
  /-- What is left of the running command handler. -/
  control : List Access
  /-- What is left of the signal handler. -/
  signal : List Access
  loop : Loop

inductive Event
  | received (c : Command)
  | requested (k : MotionKind)
  | taken (k : MotionKind)
  | estop (a : ArmSide)
  | commandReset (a : ArmSide)
  | motionReset (a : ArmSide)
  | iteration
  | enableAll (a : ArmSide)
  | disableAll (a : ArmSide)
  | safetyUpdate (a : ArmSide) (p : TeleopPacket Double) (ageMs : Double) (latched : Bool)
  | applied (a : ArmSide) (before after : List Double)
  | unilateralStep (a : ArmSide)
  | interpolate (thread : ℕ) (a : ArmSide) (step : ℕ) (command : Pose Double)
  | feedback (a : ArmSide) (fb : FeedbackPacket Double)
  deriving DecidableEq

/-- What the control loop reads from outside: the clock, a link check when one is due, the
motors, and the memory behind the arrays of a packet. -/
structure Env where
  nowNs : UInt64
  linkCheck : Option Bool
  measured : Measured Double
  behind : Overread Double

inductive Action
  | receive (c : Command)
  | control
  | sigint
  | signal
  | packet (a : ArmSide) (p : TeleopPacket UInt64) (nowNs : UInt64)
  | loop (env : Env)
  | motion (i : ℕ) (a : ArmSide) (measured : Measured Double)

def State.start (cfg : Config) : State where
  buffer _ := .new .zero
  safety _ := .new cfg.safety
  robot _ := .new
  keepRunning := true
  requested _ := false
  inProgress _ := false
  gotoTarget := []
  motions := if cfg.mock then [] else [Motion.new none []]
  control := []
  signal := []
  loop :=
    { pc := .startup
      goal := []
      target := fun _ => none
      nowNs := 0
      gap := fun _ => 0
      st := fun _ => .disabled
      responses := fun _ => ([], [])
      fbReceiveTimeNs := 0
      fbSeq := 0
      fbLinkOk := cfg.linkOk }

/-! ## The handlers -/

namespace State

def goto (s : State) (pc : Pc) : State := { s with loop := { s.loop with pc := pc } }

def setSafety (s : State) (a : ArmSide) (m : SafetyManager) : State :=
  { s with safety := Function.update s.safety a m }

def setRobot (s : State) (a : ArmSide) (r : RobotSystemState Double) : State :=
  { s with robot := Function.update s.robot a r }

def setInProgress (s : State) (k : MotionKind) (b : Bool) : State :=
  { s with inProgress := Function.update s.inProgress k b }

def clearFlag (s : State) : Option MotionKind → State
  | some k => s.setInProgress k false
  | none => s

def access (s : State) : Access → State × Option Event
  | .request k =>
    ({ s with requested := Function.update s.requested k true }, some (.requested k))
  | .storeTarget pose => ({ s with gotoTarget := pose }, none)
  | .reset a => (s.setSafety a (s.safety a).reset, some (.commandReset a))
  | .triggerEstop a => (s.setSafety a (s.safety a).triggerEstop, some (.estop a))
  | .stop => ({ s with keepRunning := false }, none)

/-! ## The motion threads -/

def setMotion (s : State) (i : ℕ) (m : Motion) : State :=
  { s with motions := s.motions.set i m }

end State

def Motion.setArm (m : Motion) (a : ArmSide) (arm : ArmMotion) : Motion :=
  { m with arms := Function.update m.arms a arm }

/-- `MoveToPose` of one arm returns. With the second one the thread goes on. -/
def Motion.arrive (m : Motion) (a : ArmSide) : Motion :=
  let m := m.setArm a { m.arms a with returned := true }
  if (m.arms .right).returned && (m.arms .left).returned then
    { m with phase := if m.kind.isSome then .resetting .right else .done }
  else m

def Phase.afterReset : ArmSide → Phase
  | .right => .resetting .left
  | .left => .clearing

/-- The thread joins both arms, resets both safety managers and clears its flag. -/
def motionStep (s : State) (i : ℕ) (a : ArmSide) (measured : Measured Double) :
    Option (State × Option Event) :=
  match s.motions[i]? with
  | none => none
  | some m =>
    match m.phase with
    | .sleeping => some (s.setMotion i { m with phase := .moving }, none)
    | .moving =>
      let arm := m.arms a
      match arm.start with
      | none => some (s.setMotion i (m.setArm a { arm with start := some measured }), none)
      | some start =>
        if arm.issued < nstep then
          some ((s.setMotion i (m.setArm a { arm with issued := arm.issued + 1 })).setRobot a
              ((s.robot a).setAllResponses measured.noEffort),
            some (.interpolate i a arm.issued
              (interpolate arm.goal start (fraction arm.issued))))
        else if arm.returned then none
        else
          some ((s.setMotion i (m.arrive a)).setRobot a ((s.robot a).settle measured), none)
    | .resetting a =>
      some ((s.setMotion i { m with phase := .afterReset a }).setSafety a (s.safety a).reset,
        some (.motionReset a))
    | .clearing =>
      some ((s.setMotion i { m with phase := .done }).clearFlag m.kind, none)
    | .done => none

/-! ## Feedback -/

/-- The joints that `fill_feedback` copies into an array of its packet. -/
def fillArray (n : ℕ) (dof : UInt8) (joints : List (JointState Double))
    (field : JointState Double → Double) : Vector Double n :=
  .ofFn fun i => if i.val < dof.toNat then (joints[i.val]?.map field).getD 0 else 0

def fillFeedback (side : ArmSide) (mode : UInt8) (st : SafetyState) (linkOk : Bool)
    (cmd : Option (TeleopPacket Double)) (cmdRecvTimeNs nowNs : UInt64)
    (arm hand : List (JointState Double)) (seq : UInt32) : FeedbackPacket Double :=
  let armDof := UInt8.ofNat (min arm.length 8)
  let handDof := UInt8.ofNat (min hand.length 4)
  { (FeedbackPacket.zero : FeedbackPacket Double) with
    seq := seq
    armSide := side.toUInt8
    mode := mode
    enabled := if st = .active then 1 else 0
    estop := if st = .estop then 1 else 0
    safetyState := st.toUInt8
    linkOk := if linkOk then 1 else 0
    echoCmdSeq := (cmd.map (·.seq)).getD 0
    echoCmdSendTimeNs := (cmd.map (·.sendTimeNs)).getD 0
    cmdHoldNs :=
      if cmd.isSome then if cmdRecvTimeNs ≤ nowNs then nowNs - cmdRecvTimeNs else 0 else 0
    armDof := armDof
    handDof := handDof
    armPos := fillArray 8 armDof arm JointState.position
    armVel := fillArray 8 armDof arm JointState.velocity
    armTau := fillArray 8 armDof arm JointState.effort
    handPos := fillArray 4 handDof hand JointState.position
    handVel := fillArray 4 handDof hand JointState.velocity
    handTau := fillArray 4 handDof hand JointState.effort }

/-- Without motors the command is echoed, as far as its arrays go. -/
def echo {n : ℕ} (dof : UInt8) (pos vel : Vector Double n) : List (JointState Double) :=
  (List.range dof.toNat).map fun i => ⟨pos[i]?.getD 0, vel[i]?.getD 0, 0⟩

def feedbackJoints (cfg : Config) (s : State) (a : ArmSide) :
    List (JointState Double) × List (JointState Double) :=
  if cfg.mock then
    match s.loop.target a with
    | some t => (echo t.armDof t.armPos t.armVel, echo t.handDof t.handPos t.handVel)
    | none => ([], [])
  else ((s.robot a).armState.response, (s.robot a).handState.response)

/-! ## The control loop -/

/-- The age of a packet, zero when it came in after the clock was read. -/
def ageMs (nowNs lastNs : UInt64) : Double :=
  if lastNs ≤ nowNs then Double.ofUnsigned (nowNs - lastNs).toNat / 1e6 else 0.0

/-- The states in which the loop follows the command. -/
def tracks : SafetyState → Bool
  | .active | .ready | .warningTimeout => true
  | _ => false

/-- The states in which the loop switches the motors off. -/
def stops : SafetyState → Bool
  | .estop | .fault | .disabled => true
  | _ => false

def afterRequest : MotionKind → Pc
  | .recover => .exchange .init
  | .init => .exchange .goto
  | .goto => .getLatest .right

def startRequest (cfg : Config) : MotionKind → Pc
  | .recover => if cfg.mock then .resetSafety .recover .right else .enable .right
  | .init => if cfg.mock then .resetSafety .init .right else .spawn .init
  | .goto => .copyTarget

def afterUpdate : ArmSide → Pc
  | .right => .nowNs .left
  | .left => .getState .right

def afterStream : ArmSide → Pc
  | .right => .stream .left
  | .left => .linkCheck

def loopStep (cfg : Config) (s : State) (env : Env) : State × Option Event :=
  match s.loop.pc with
  | .startup => (s.goto .head, none)
  | .head =>
    if s.keepRunning then (s.goto (.exchange .recover), some .iteration)
    else (s.goto (.finish .right), none)
  | .exchange k =>
    if s.requested k then
      ({ s with requested := Function.update s.requested k false }.goto (.mark k),
        some (.taken k))
    else (s.goto (afterRequest k), none)
  | .mark k => ((s.setInProgress k true).goto (startRequest cfg k), none)
  | .enable a =>
    (s.goto (match a with | .right => .enable .left | .left => .spawn .recover),
      some (.enableAll a))
  | .copyTarget =>
    ({ s with loop := { s.loop with goal := s.gotoTarget } }.goto
      (if !cfg.mock && s.gotoTarget.length == 16 then .spawn .goto else .clear .goto), none)
  | .spawn k =>
    ({ s with motions := s.motions ++ [Motion.new (some k) s.loop.goal] }.goto (afterRequest k), none)
  | .resetSafety k a =>
    ((s.setSafety a (s.safety a).reset).goto
      (match a with | .right => .resetSafety k .left | .left => .clear k), some (.motionReset a))
  | .clear k => ((s.setInProgress k false).goto (afterRequest k), none)
  | .getLatest a =>
    let target := Function.update s.loop.target a (s.buffer a).getLatest
    ({ s with loop := { s.loop with target := target } }.goto
      (match a with | .right => .getLatest .left | .left => .nowNs .right), none)
  | .nowNs a =>
    match s.loop.target a with
    | none => (s.goto (afterUpdate a), none)
    | some _ => ({ s with loop := { s.loop with nowNs := env.nowNs } }.goto (.receiveTime a), none)
  | .receiveTime a =>
    let gap := ageMs s.loop.nowNs (s.buffer a).lastReceiveTimeNs
    ({ s with loop := { s.loop with gap := Function.update s.loop.gap a gap } }.goto
      (.update a), none)
  | .update a =>
    match s.loop.target a with
    | none => (s.goto (afterUpdate a), none)
    | some p =>
      ((s.setSafety a ((s.safety a).update p (s.loop.gap a))).goto (afterUpdate a),
        some (.safetyUpdate a p (s.loop.gap a) (s.safety a).estopTriggered))
  | .getState a =>
    ({ s with loop := { s.loop with st := Function.update s.loop.st a (s.safety a).state } }.goto
      (match a with | .right => .getState .left | .left => .guardInit), none)
  | .guardInit =>
    (s.goto (if cfg.mock || s.inProgress .init then .linkCheck else .guardRecover), none)
  | .guardRecover => (s.goto (if s.inProgress .recover then .linkCheck else .stream .right), none)
  | .stream a =>
    if tracks (s.loop.st a) then
      match s.loop.target a with
      | none => (s.goto (.unilateralStep a), none)
      | some p =>
        let robot := applyTarget cfg.rateLimiter (s.robot a) p env.behind
        ((s.setRobot a robot).goto (.unilateralStep a),
          some (.applied a (s.robot a).referencePositions robot.referencePositions))
    else if s.loop.st a = .hold then (s.goto (.unilateralStep a), none)
    else if stops (s.loop.st a) then (s.goto (.disableAll a), none)
    else (s.goto (afterStream a), none)
  | .unilateralStep a =>
    ((s.setRobot a ((s.robot a).setAllResponses env.measured)).goto (afterStream a),
      some (.unilateralStep a))
  | .disableAll a => (s.goto (afterStream a), some (.disableAll a))
  | .linkCheck =>
    if cfg.feedbackEnabled then
      ({ s with
          loop := { s.loop with
            fbLinkOk := env.linkCheck.getD s.loop.fbLinkOk
            responses := feedbackJoints cfg s } }.goto (.fbReceiveTime .right), none)
    else (s.goto .head, none)
  | .fbReceiveTime a =>
    ({ s with loop := { s.loop with fbReceiveTimeNs := (s.buffer a).lastReceiveTimeNs } }.goto
      (.fbFill a), none)
  | .fbFill a =>
    let cmd := s.loop.target a
    let fb := fillFeedback a ((cmd.map (·.mode)).getD 0) (s.loop.st a) s.loop.fbLinkOk cmd
      s.loop.fbReceiveTimeNs env.nowNs (s.loop.responses a).1 (s.loop.responses a).2 s.loop.fbSeq
    match a with
    | .right => (s.goto (.fbReceiveTime .left), some (.feedback a fb))
    | .left =>
      ({ s with loop := { s.loop with fbSeq := s.loop.fbSeq + 1 } }.goto .head,
        some (.feedback a fb))
  | .finish a =>
    if cfg.mock then (s.goto .exited, none)
    else (s.goto (match a with | .right => .finish .left | .left => .exited),
      some (.disableAll a))
  | .exited => (s, none)

/-! ## The whole program -/

/-- The loop waits for the motion at start-up, and is over once it has left. -/
def State.blocked (s : State) : Bool :=
  match s.loop.pc with
  | .startup => s.motions.any fun m => m.phase ≠ .done
  | .exited => true
  | _ => false

def step (cfg : Config) (s : State) : Action → Option (State × Option Event)
  | .receive c =>
    if s.control = [] then some ({ s with control := handler c }, some (.received c)) else none
  | .control =>
    match s.control with
    | [] => none
    | x :: rest => some ({ s with control := rest }.access x)
  | .sigint => if s.signal = [] then some ({ s with signal := signalHandler }, none) else none
  | .signal =>
    match s.signal with
    | [] => none
    | x :: rest => some ({ s with signal := rest }.access x)
  | .packet a p nowNs =>
    if p.decodeAndValidate then
      let buffer := (s.buffer a).update (p.map Double.ofBits) nowNs
      some ({ s with buffer := Function.update s.buffer a buffer }, none)
    else some (s, none)
  | .loop env => if s.blocked then none else some (loopStep cfg s env)
  | .motion i a measured => motionStep s i a measured

def machine (cfg : Config) : Machine State Action Event where
  init := .start cfg
  step s a := step cfg s a

end Machine

/-! ## Pieces of runs -/

def still : Measured Double := atRest 0

def moveBoth (i : ℕ) : List Action :=
  List.replicate (nstep + 2) (.motion i .right still) ++
    List.replicate (nstep + 2) (.motion i .left still)

def loops (n : ℕ) (nowNs : UInt64) : List Action :=
  List.replicate n (.loop ⟨nowNs, none, still, ⟨fun _ => 0, fun _ => 0, fun _ => 0, fun _ => 0⟩⟩)

def datagram (seq : UInt32) (enable : UInt8) : TeleopPacket UInt64 :=
  { TeleopPacket.zero with seq := seq, enable := enable, armDof := 7, handDof := 1 }.encode 0

/-- The follower as it comes, at 500 Hz. -/
def follower (safety : SafetyConfig) : Config := ⟨false, .fin 500, safety, true, true⟩

end OpenArmTeleop.Follower
