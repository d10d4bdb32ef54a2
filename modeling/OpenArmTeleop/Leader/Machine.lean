import OpenArmTeleop.Control.Engager
import OpenArmTeleop.Controller.Cycle
import OpenArmTeleop.Core.FeedbackBuffer
import OpenArmTeleop.Lib.Run
import OpenArmTeleop.Net.Codec

/-!
# The bimanual leader

`wifi_bimanual_leader.cpp`: the control loop with its blocking motions, the command handlers and
the receivers of feedback. One action is one access to what they share.
-/

open Num Run OpenArmTeleop.Net OpenArmTeleop.Core OpenArmTeleop.Control OpenArmTeleop.Controller

namespace OpenArmTeleop.Leader

/-! ## Commands -/

inductive Command
  | enable
  | disable
  | bilateralEnable
  | bilateralDisable
  | initPosition
  | gotoPose (values : List Double)
  | estop
  | shutdown
  deriving DecidableEq

/-- One access of a handler. A check that fails ends the handler. -/
inductive Access
  | checkEnabled
  | checkGate
  | setEnabled (b : Bool)
  | setBilateral (b : Bool)
  | requestInit
  | storeTarget (pose : List Double)
  | requestGoto
  | stop
  deriving DecidableEq

def handler : Command → List Access
  | .enable => [.setEnabled true]
  | .disable => [.setEnabled false, .setBilateral false]
  | .bilateralEnable => [.checkEnabled, .checkGate, .setBilateral true]
  | .bilateralDisable => [.setBilateral false]
  | .initPosition => [.requestInit]
  | .gotoPose values => if values.length = 16 then [.storeTarget values, .requestGoto] else []
  | .estop => [.setEnabled false, .setBilateral false, .stop]
  | .shutdown => [.setEnabled false, .stop]

/-! ## The state -/

structure BilateralSettings where
  feedbackEnabled : Bool
  windowNs : UInt64
  maxFeedbackAgeMs : Double
  renderEnabled : Bool
  engageMaxErrorRad : Double
  engageMaxErrorGripper : Double
  engager : EngagerConfig Double

structure Config where
  mock : Bool
  rateHz : Double
  initialEnable : Bool
  bi : BilateralSettings

/-- The next thing the control loop does. -/
inductive Pc
  | startup
  | head
  | exchangeInit
  | markInit
  | moveInit
  | clearInit
  | exchangeGoto
  | markGoto
  | copyTarget
  | moveGoto
  | clearGoto
  | getLatest (a : ArmSide)
  | snapshot (a : ArmSide)
  | want (a : ArmSide)
  | update (a : ArmSide)
  | leaderStep (a : ArmSide)
  | readBilateral
  | checkGate
  | dropBilateral
  | exited
  deriving DecidableEq, Fintype

structure Loop where
  pc : Pc
  goal : List Double
  fb : Option (FeedbackPacket Double)
  fresh : Bool
  aligned : Bool
  want : Bool

structure State where
  buffer : ArmSide → FeedbackStateBuffer Double
  engager : ArmSide → BilateralEngager Double
  bcmd : ArmSide → LeaderBilateralCommand
  robot : ArmSide → RobotSystemState Double
  moving : ArmSide → ArmMotion
  keepRunning : Bool
  commandEnabled : Bool
  bilateralRequested : Bool
  initRequested : Bool
  initInProgress : Bool
  gotoRequested : Bool
  gotoInProgress : Bool
  gotoTarget : List Double
  /-- What is left of the running command handler. -/
  control : List Access
  loop : Loop

inductive Event
  | received (c : Command)
  | interpolate (a : ArmSide) (step : ℕ) (command : Pose Double)
  | moved (a : ArmSide)
  | updated (a : ArmSide) (fresh aligned : Bool) (before : Double)
  | leaderStep (a : ArmSide) (cmd : Option LeaderBilateralCommand)
  deriving DecidableEq

/-- What a read behind the end of each array of a feedback packet returns. -/
structure Overread where
  armPos : ℕ → Double
  armTau : ℕ → Double
  handPos : ℕ → Double
  handTau : ℕ → Double

/-- What the control loop reads from outside: the clock, the motors, the memory behind the arrays
of a packet, and whether a gate check is due and fails. -/
structure Env where
  nowNs : UInt64
  measured : Measured Double
  behind : Overread
  gateFails : Bool

inductive Action
  | receive (c : Command)
  | control (gateOk : Bool)
  | sigint
  | feedback (a : ArmSide) (p : FeedbackPacket UInt64) (systemNowNs nowNs : UInt64)
  | motion (a : ArmSide) (measured : Measured Double)
  | loop (env : Env)

section Machine

variable [Rounding]

def State.start (cfg : Config) : State where
  buffer _ := .new cfg.bi.windowNs
  engager _ := .new cfg.bi.engager
  bcmd _ := ⟨[], [], [], [], 0⟩
  robot _ := .new
  moving _ := { ArmMotion.new homePose with returned := cfg.mock }
  keepRunning := true
  commandEnabled := cfg.initialEnable
  bilateralRequested := false
  initRequested := false
  initInProgress := false
  gotoRequested := false
  gotoInProgress := false
  gotoTarget := []
  control := []
  loop :=
    { pc := .startup
      goal := []
      fb := none
      fresh := false
      aligned := false
      want := false }

namespace State

def goto (s : State) (pc : Pc) : State := { s with loop := { s.loop with pc := pc } }

def setMoving (s : State) (a : ArmSide) (arm : ArmMotion) : State :=
  { s with moving := Function.update s.moving a arm }

def setRobot (s : State) (a : ArmSide) (r : RobotSystemState Double) : State :=
  { s with robot := Function.update s.robot a r }

/-! ## The handlers -/

def access (cfg : Config) (s : State) (gateOk : Bool) : Access → State
  | .checkEnabled => if s.commandEnabled then s else { s with control := [] }
  | .checkGate => if cfg.bi.feedbackEnabled && gateOk then s else { s with control := [] }
  | .setEnabled b => { s with commandEnabled := b }
  | .setBilateral b => { s with bilateralRequested := b }
  | .requestInit => { s with initRequested := true }
  | .storeTarget pose => { s with gotoTarget := pose }
  | .requestGoto => { s with gotoRequested := true }
  | .stop => { s with keepRunning := false }

/-! ## Motions -/

def isMoving (s : State) : Bool :=
  match s.loop.pc with
  | .startup | .moveInit | .moveGoto => true
  | _ => false

def arriving (s : State) (a : ArmSide) : Bool :=
  s.isMoving && (s.moving a).start.isSome && decide (nstep ≤ (s.moving a).issued) &&
    !(s.moving a).returned

def motionStep (s : State) (a : ArmSide) (measured : Measured Double) :
    Option (State × Option Event) :=
  let arm := s.moving a
  if !s.isMoving || arm.returned then none
  else
    match arm.start with
    | none => some (s.setMoving a { arm with start := some measured }, none)
    | some start =>
      if arm.issued < nstep then
        some ((s.setMoving a { arm with issued := arm.issued + 1 }).setRobot a
            ((s.robot a).setAllResponses measured.noEffort),
          some (.interpolate a arm.issued (interpolate arm.goal start (fraction arm.issued))))
      else
        some ((s.setMoving a { arm with returned := true }).setRobot a ((s.robot a).settle measured),
          some (.moved a))

end State

/-! ## The side of an arm -/

/-- All joints are close enough to the feedback. -/
def aligned (bi : BilateralSettings) (robot : RobotSystemState Double) (fb : FeedbackPacket Double)
    (behind : Overread) : Bool :=
  let arm := robot.armState.response
  let hand := robot.handState.response
  decide (arm.length ≤ fb.armDof.toNat) && decide (hand.length ≤ fb.handDof.toNat) &&
    arm.zipIdx.all (fun (joint, i) =>
      decide ((joint.position - readAt fb.armPos behind.armPos i).abs ≤ bi.engageMaxErrorRad)) &&
    hand.zipIdx.all (fun (joint, i) =>
      decide ((joint.position - readAt fb.handPos behind.handPos i).abs ≤ bi.engageMaxErrorGripper))

/-- The command takes over the feedback, and keeps its scale. -/
def render (cmd : LeaderBilateralCommand) (fb : FeedbackPacket Double) (behind : Overread) :
    LeaderBilateralCommand :=
  { cmd with
    armPosRef := (List.range fb.armDof.toNat).map (readAt fb.armPos behind.armPos)
    handPosRef := (List.range fb.handDof.toNat).map (readAt fb.handPos behind.handPos)
    armTauF := (List.range fb.armDof.toNat).map (readAt fb.armTau behind.armTau)
    handTauF := (List.range fb.handDof.toNat).map (readAt fb.handTau behind.handTau) }

def fresh (cfg : Config) (s : State) (a : ArmSide) (nowNs : UInt64) : Bool :=
  let ageMs := (s.buffer a).ageMs nowNs
  s.loop.fb.isSome && decide (0 ≤ ageMs) && decide (ageMs ≤ cfg.bi.maxFeedbackAgeMs)

/-- The feedback comes from an active follower. -/
def usable (fb : Option (FeedbackPacket Double)) : Bool :=
  fb.any fun fb => decide (fb.enabled ≠ 0) && decide (fb.estop = 0)

def Config.dtS (cfg : Config) : Double := 1 / cfg.rateHz

/-! ## The control loop -/

def afterGoto (cfg : Config) : Pc := if cfg.mock then .readBilateral else .getLatest .right

def loopStep (cfg : Config) (s : State) (env : Env) : State × Option Event :=
  match s.loop.pc with
  | .startup => (s.goto .head, none)
  | .head => (s.goto (if s.keepRunning then .exchangeInit else .exited), none)
  | .exchangeInit =>
    if s.initRequested then ({ s with initRequested := false }.goto .markInit, none)
    else (s.goto .exchangeGoto, none)
  | .markInit =>
    ({ s with initInProgress := true, moving := fun _ => .new homePose }.goto
      (if cfg.mock then .clearInit else .moveInit), none)
  | .moveInit => (s.goto .clearInit, none)
  | .clearInit => ({ s with initInProgress := false }.goto .exchangeGoto, none)
  | .exchangeGoto =>
    if s.gotoRequested then ({ s with gotoRequested := false }.goto .markGoto, none)
    else (s.goto (afterGoto cfg), none)
  | .markGoto => ({ s with gotoInProgress := true }.goto .copyTarget, none)
  | .copyTarget =>
    ({ s with
        moving := fun a => .new (posePart s.gotoTarget a)
        loop := { s.loop with goal := s.gotoTarget } }.goto
      (if !cfg.mock && s.gotoTarget.length == 16 then .moveGoto else .clearGoto), none)
  | .moveGoto => (s.goto .clearGoto, none)
  | .clearGoto => ({ s with gotoInProgress := false }.goto (afterGoto cfg), none)
  | .getLatest a =>
    ({ s with loop := { s.loop with fb := (s.buffer a).getLatest } }.goto (.snapshot a), none)
  | .snapshot a =>
    let fresh := fresh cfg s a env.nowNs
    match s.loop.fb.filter fun _ => fresh with
    | some fb =>
      ({ s with
          bcmd := Function.update s.bcmd a (render (s.bcmd a) fb env.behind)
          loop := { s.loop with
            fresh := fresh
            aligned := aligned cfg.bi (s.robot a) fb env.behind } }.goto (.want a), none)
    | none => ({ s with loop := { s.loop with fresh := fresh, aligned := false } }.goto (.want a), none)
  | .want a =>
    let want := cfg.bi.renderEnabled && s.bilateralRequested && s.loop.fresh && usable s.loop.fb
    ({ s with loop := { s.loop with want := want } }.goto (.update a), none)
  | .update a =>
    let engager := (s.engager a).update s.loop.want s.loop.aligned cfg.dtS
    ({ s with
        engager := Function.update s.engager a engager
        bcmd := Function.update s.bcmd a { s.bcmd a with scale := engager.scale } }.goto
      (.leaderStep a), some (.updated a s.loop.fresh s.loop.aligned (s.engager a).scale))
  | .leaderStep a =>
    ((s.setRobot a ((s.robot a).setAllResponses env.measured)).goto
      (match a with | .right => .getLatest .left | .left => .readBilateral),
      some (.leaderStep a (if (s.engager a).active then some (s.bcmd a) else none)))
  | .readBilateral => (s.goto (if s.bilateralRequested then .checkGate else .head), none)
  | .checkGate =>
    (s.goto (if env.gateFails then .dropBilateral else .head), none)
  | .dropBilateral => ({ s with bilateralRequested := false }.goto .head, none)
  | .exited => (s, none)

/-! ## The whole program -/

/-- The loop waits for its motion, and is over once it has left. -/
def State.blocked (s : State) : Bool :=
  s.isMoving && !((s.moving .right).returned && (s.moving .left).returned) ||
    decide (s.loop.pc = .exited)

/-- `make_feedback_callback` measures the round trip with the system clock. -/
def roundTripNs (p : FeedbackPacket UInt64) (systemNowNs : UInt64) : UInt64 :=
  if p.echoCmdSendTimeNs ≠ 0 ∧ p.echoCmdSendTimeNs < systemNowNs then
    systemNowNs - p.echoCmdSendTimeNs
  else 0

def step (cfg : Config) (s : State) : Action → Option (State × Option Event)
  | .receive c =>
    if s.control = [] then some ({ s with control := handler c }, some (.received c)) else none
  | .control gateOk =>
    match s.control with
    | [] => none
    | x :: rest => some ({ s with control := rest }.access cfg gateOk x, none)
  | .sigint => some ({ s with keepRunning := false }, none)
  | .feedback a p systemNowNs nowNs =>
    if !cfg.bi.feedbackEnabled then none
    else if p.decodeAndValidate then
      let buffer := (s.buffer a).update (p.map Double.ofBits) (roundTripNs p systemNowNs) nowNs
      some ({ s with buffer := Function.update s.buffer a buffer }, none)
    else some (s, none)
  | .motion a measured => s.motionStep a measured
  | .loop env => if s.blocked then none else some (loopStep cfg s env)

def machine (cfg : Config) : Machine State Action Event where
  init := .start cfg
  step s a := step cfg s a

end Machine

end OpenArmTeleop.Leader
