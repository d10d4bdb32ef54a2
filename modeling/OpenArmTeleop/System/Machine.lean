import OpenArmTeleop.Follower.Machine
import OpenArmTeleop.Leader.Machine
import OpenArmTeleop.Lib.Clock
import OpenArmTeleop.System.Network

/-!
# Leader, network and follower

The two bimanual programs on their hosts, with what `wifi_bimanual_leader.cpp` does at the end of
each iteration, and the datagrams between them. The network may lose, repeat, delay and reorder
them, and damage four bytes in a row. One action is one action of either program, or one arrival.
-/

open Num Run Clock OpenArmTeleop.Net OpenArmTeleop.Control

namespace OpenArmTeleop.System

/-! ## The hosts -/

/-- What the clocks of the hosts show at time zero. -/
structure Clocks where
  leaderSystemNs : ℕ
  leaderSteadyNs : ℕ
  followerSystemNs : ℕ
  followerSteadyNs : ℕ

structure Config where
  leader : Leader.Config
  follower : Follower.Config
  clocks : Clocks
  sin : Double → Double
  cos : Double → Double

/-- Where a loop is with the packets of its iteration. -/
inductive Stage
  | loop
  | assemble
  | header (a : ArmSide)
  | encode (a : ArmSide)
  | send (a : ArmSide)
  deriving DecidableEq

def Stage.afterEncode : ArmSide → Stage
  | .right => .encode .left
  | .left => .send .right

def Stage.afterSend : ArmSide → Stage
  | .right => .send .left
  | .left => .loop

structure LeaderNode where
  state : Leader.State
  stage : Stage
  seq : UInt32
  cmdMode : ControlMode
  pkt : ArmSide → TeleopPacket Double
  wire : ArmSide → Option (TeleopPacket UInt64)

structure FollowerNode where
  state : Follower.State
  stage : Stage
  fb : ArmSide → FeedbackPacket Double
  wire : ArmSide → Option (FeedbackPacket UInt64)

structure State where
  nowNs : ℕ
  leader : LeaderNode
  follower : FollowerNode
  /-- The datagrams that were sent to each port, in the order of sending. -/
  commands : ArmSide → List (List UInt8)
  feedback : ArmSide → List (List UInt8)

inductive Event
  | leader (timeNs : ℕ) (e : Leader.Event)
  | follower (timeNs : ℕ) (e : Follower.Event)
  | commandSent (a : ArmSide) (i timeNs : ℕ) (p : TeleopPacket UInt64)
  | commandReceived (a : ArmSide) (i timeNs : ℕ) (p : TeleopPacket UInt64)
  | feedbackSent (a : ArmSide) (i timeNs : ℕ) (fb : FeedbackPacket UInt64)
  | feedbackReceived (a : ArmSide) (i timeNs : ℕ) (fb : FeedbackPacket UInt64) (rttNs : UInt64)
  deriving DecidableEq

inductive Action
  | leader (x : Leader.Action)
  | assemble (systemNowNs : UInt64)
  | header
  /-- The numbers of the packet as the host has them in memory. -/
  | encodeCommand (bits : TeleopPacket UInt64)
  | sendCommand
  | follower (x : Follower.Action)
  | encodeFeedback (bits : FeedbackPacket UInt64)
  | sendFeedback
  /-- Datagram `i` arrives, with some bytes replaced. -/
  | deliverCommand (a : ArmSide) (i position : ℕ) (burst : List UInt8)
  | deliverFeedback (a : ArmSide) (i position : ℕ) (burst : List UInt8)

structure Timed where
  timeNs : ℕ
  action : Action

section Machine

variable [Rounding]

def State.start (cfg : Config) : State where
  nowNs := 0
  leader :=
    { state := .start cfg.leader
      stage := .loop
      seq := 0
      cmdMode := .unilateral
      pkt := fun _ => .zero
      wire := fun _ => none }
  follower :=
    { state := .start cfg.follower
      stage := .loop
      fb := fun _ => .zero
      wire := fun _ => none }
  commands _ := []
  feedback _ := []

/-! ## The leader -/

/-- An action of the leader program at a time of its clocks. Feedback comes from the network. -/
def Config.leaderAt (cfg : Config) (nowNs : ℕ) : Leader.Action → Option Leader.Action
  | .loop env => some (.loop { env with nowNs := reading cfg.clocks.leaderSteadyNs nowNs })
  | .feedback .. => none
  | x => some x

def isLoop : Leader.Action → Bool
  | .loop _ => true
  | _ => false

/-- The loop has come round, and sends its commands first. -/
def cameRound (before after : Leader.State) : Bool :=
  decide (before.loop.pc ≠ .startup) && decide (after.loop.pc = .head)

def stepLeader (cfg : Config) (s : State) (x : Leader.Action) : Option (State × Option Event) :=
  if isLoop x && decide (s.leader.stage ≠ .loop) then none
  else
    (Leader.step cfg.leader s.leader.state x).map fun (st, e) =>
      ({ s with
          leader := { s.leader with
            state := st
            stage := if isLoop x && cameRound s.leader.state st then .assemble else s.leader.stage } },
        e.map (.leader s.nowNs))

/-- The joints that an iteration sends: the measured ones, or a wave without motors. -/
def joints (cfg : Config) (robot : RobotSystemState Double) (systemNowNs : UInt64) (a : ArmSide) :
    TeleopPacket Double :=
  if cfg.leader.mock then
    let t := Double.ofUnsigned systemNowNs.toNat / 1e9
    let wave := match a with | .right => cfg.sin | .left => cfg.cos
    { (TeleopPacket.zero : TeleopPacket Double) with
      armDof := 7
      handDof := 1
      armPos := .ofFn fun i =>
        if i.val < 7 then wave (t * 2.0 + Double.ofUnsigned i.val) else 0 }
  else
    let arm := robot.armState.response
    let hand := robot.handState.response
    let armDof := UInt8.ofNat arm.length
    let handDof := UInt8.ofNat hand.length
    { (TeleopPacket.zero : TeleopPacket Double) with
      armDof := armDof
      handDof := handDof
      armPos := Follower.fillArray 8 armDof arm JointState.position
      armVel := Follower.fillArray 8 armDof arm JointState.velocity
      handPos := Follower.fillArray 4 handDof hand JointState.position
      handVel := Follower.fillArray 4 handDof hand JointState.velocity }

def assemble (cfg : Config) (n : LeaderNode) (systemNowNs : UInt64) : Option LeaderNode :=
  match n.stage with
  | .assemble =>
    some { n with
      stage := .header .right
      cmdMode := if n.state.bilateralRequested then .bilateral else .unilateral
      pkt := fun a => joints cfg (n.state.robot a) systemNowNs a }
  | _ => none

/-- The rest of a packet. Both arms share the number. -/
def LeaderNode.fillHeader (n : LeaderNode) (a : ArmSide) : LeaderNode :=
  { n with
    stage := match a with | .right => .header .left | .left => .encode .right
    seq := match a with | .right => n.seq | .left => n.seq + 1
    pkt := Function.update n.pkt a { n.pkt a with
      seq := n.seq
      armSide := a.toUInt8
      mode := n.cmdMode.toUInt8
      enable := if n.state.commandEnabled then 1 else 0
      estop := 0 } }

def header (n : LeaderNode) : Option LeaderNode :=
  match n.stage with
  | .header a => some (n.fillHeader a)
  | _ => none

def encodeCommand (cfg : Config) (n : LeaderNode) (nowNs : ℕ) (bits : TeleopPacket UInt64) :
    Option LeaderNode :=
  match n.stage with
  | .encode a =>
    if bits.map Double.ofBits = n.pkt a then
      some { n with
        stage := .afterEncode a
        wire := Function.update n.wire a
          (some (bits.encode (reading cfg.clocks.leaderSystemNs nowNs))) }
    else none
  | _ => none

def sendCommand (s : State) : Option (State × Option Event) :=
  match s.leader.stage with
  | .send a =>
    let leader := { s.leader with
      stage := .afterSend a
      wire := Function.update s.leader.wire a none }
    match s.leader.wire a with
    | some p =>
      some ({ s with
          leader := leader
          commands := Function.update s.commands a
            (s.commands a ++ [TeleopPacket.layout.put p]) },
        some (.commandSent a (s.commands a).length s.nowNs p))
    | none => some ({ s with leader := leader }, none)
  | _ => none

/-! ## The follower -/

def Config.followerAt (cfg : Config) (nowNs : ℕ) : Follower.Action → Option Follower.Action
  | .loop env => some (.loop { env with nowNs := reading cfg.clocks.followerSteadyNs nowNs })
  | .packet .. => none
  | x => some x

def isControlLoop : Follower.Action → Bool
  | .loop _ => true
  | _ => false

/-- The packets of both arms are sent once both are filled. -/
def FollowerNode.record (n : FollowerNode) : Option Follower.Event → FollowerNode
  | some (.feedback a fb) =>
    { n with
      fb := Function.update n.fb a fb
      stage := match a with | .right => n.stage | .left => .encode .right }
  | _ => n

def stepFollower (cfg : Config) (s : State) (x : Follower.Action) : Option (State × Option Event) :=
  if isControlLoop x && decide (s.follower.stage ≠ .loop) then none
  else
    (Follower.step cfg.follower s.follower.state x).map fun (st, e) =>
      ({ s with follower := { s.follower.record e with state := st } }, e.map (.follower s.nowNs))

def encodeFeedback (cfg : Config) (n : FollowerNode) (nowNs : ℕ) (bits : FeedbackPacket UInt64) :
    Option FollowerNode :=
  match n.stage with
  | .encode a =>
    if bits.map Double.ofBits = n.fb a then
      some { n with
        stage := .afterEncode a
        wire := Function.update n.wire a
          (some (bits.encode (reading cfg.clocks.followerSystemNs nowNs))) }
    else none
  | _ => none

def sendFeedback (s : State) : Option (State × Option Event) :=
  match s.follower.stage with
  | .send a =>
    let follower := { s.follower with
      stage := .afterSend a
      wire := Function.update s.follower.wire a none }
    match s.follower.wire a with
    | some fb =>
      some ({ s with
          follower := follower
          feedback := Function.update s.feedback a
            (s.feedback a ++ [FeedbackPacket.layout.put fb]) },
        some (.feedbackSent a (s.feedback a).length s.nowNs fb))
    | none => some ({ s with follower := follower }, none)
  | _ => none

/-! ## Arrivals -/

/-- A datagram that was sent, with a burst of at most four bytes damaged. -/
def arrival (sent : List (List UInt8)) (i position : ℕ) (burst : List UInt8) :
    Option (List UInt8) :=
  match sent[i]? with
  | some d =>
    if burst.length ≤ 4 ∧ position + burst.length ≤ d.length then some (overwrite d position burst)
    else none
  | none => none

def deliverCommand (cfg : Config) (s : State) (a : ArmSide) (i : ℕ) (datagram : List UInt8) :
    Option (State × Option Event) :=
  match receiveTeleop datagram with
  | some p =>
    (Follower.step cfg.follower s.follower.state
        (.packet a p (reading cfg.clocks.followerSteadyNs s.nowNs))).map fun (st, _) =>
      ({ s with follower := { s.follower with state := st } },
        some (.commandReceived a i s.nowNs p))
  | none => some (s, none)

def deliverFeedback (cfg : Config) (s : State) (a : ArmSide) (i : ℕ) (datagram : List UInt8) :
    Option (State × Option Event) :=
  match receiveFeedback datagram with
  | some fb =>
    let systemNowNs := reading cfg.clocks.leaderSystemNs s.nowNs
    (Leader.step cfg.leader s.leader.state
        (.feedback a fb systemNowNs (reading cfg.clocks.leaderSteadyNs s.nowNs))).map fun (st, _) =>
      ({ s with leader := { s.leader with state := st } },
        some (.feedbackReceived a i s.nowNs fb (Leader.roundTripNs fb systemNowNs)))
  | none => some (s, none)

/-! ## The whole system -/

def act (cfg : Config) (s : State) : Action → Option (State × Option Event)
  | .leader x => (cfg.leaderAt s.nowNs x).bind (stepLeader cfg s)
  | .assemble systemNowNs =>
    (assemble cfg s.leader systemNowNs).map fun n => ({ s with leader := n }, none)
  | .header => (header s.leader).map fun n => ({ s with leader := n }, none)
  | .encodeCommand bits =>
    (encodeCommand cfg s.leader s.nowNs bits).map fun n => ({ s with leader := n }, none)
  | .sendCommand => sendCommand s
  | .follower x => (cfg.followerAt s.nowNs x).bind (stepFollower cfg s)
  | .encodeFeedback bits =>
    (encodeFeedback cfg s.follower s.nowNs bits).map fun n => ({ s with follower := n }, none)
  | .sendFeedback => sendFeedback s
  | .deliverCommand a i position burst =>
    (arrival (s.commands a) i position burst).bind (deliverCommand cfg s a i)
  | .deliverFeedback a i position burst =>
    (arrival (s.feedback a) i position burst).bind (deliverFeedback cfg s a i)

/-- Time never goes back. -/
def step (cfg : Config) (s : State) (x : Timed) : Option (State × Option Event) :=
  if x.timeNs < s.nowNs then none else act cfg { s with nowNs := x.timeNs } x.action

def machine (cfg : Config) : Machine State Timed Event where
  init := .start cfg
  step s x := step cfg s x

end Machine

/-! ## Pieces of runs -/

section Runs

attribute [local instance] Rounding.exact

def during (timeNs : ℕ) (xs : List Action) : List Timed := xs.map (⟨timeNs, ·⟩)

/-- Both programs without motors, with clocks that do not agree. -/
def simulated : Config where
  leader :=
    { mock := true
      rateHz := .fin 500
      initialEnable := true
      bi :=
        { feedbackEnabled := true
          windowNs := 1000000000
          maxFeedbackAgeMs := .fin 20
          renderEnabled := true
          engageMaxErrorRad := .fin (1 / 10)
          engageMaxErrorGripper := .fin (1 / 100)
          engager := BilateralEngager.defaultConfig } }
  follower := ⟨true, .fin 500, {}, true, true⟩
  clocks := ⟨1000, 2000, 300, 400⟩
  sin _ := 0
  cos _ := 0

def leaderLoops (n : ℕ) : List Action :=
  List.replicate n
    (.leader (.loop ⟨0, atRest 0, ⟨fun _ => 0, fun _ => 0, fun _ => 0, fun _ => 0⟩, false⟩))

def followerLoops (n : ℕ) : List Action :=
  List.replicate n
    (.follower (.loop ⟨0, none, atRest 0, ⟨fun _ => 0, fun _ => 0, fun _ => 0, fun _ => 0⟩⟩))

def commandBits (seq : UInt32) (a : ArmSide) : TeleopPacket UInt64 :=
  { (TeleopPacket.zero : TeleopPacket UInt64) with
    seq := seq
    armSide := a.toUInt8
    enable := 1
    armDof := 7
    handDof := 1 }

def sendCommands (seq : UInt32) : List Action :=
  [.assemble 0, .header, .header, .encodeCommand (commandBits seq .right),
    .encodeCommand (commandBits seq .left), .sendCommand, .sendCommand]

def sendBoth (right left : FeedbackPacket UInt64) : List Action :=
  [.encodeFeedback right, .encodeFeedback left, .sendFeedback, .sendFeedback]

/-- Feedback of an arm that follows its command, and of one that waits for a first one. -/
def following (a : ArmSide) (echoCmdSendTimeNs cmdHoldNs : UInt64) : FeedbackPacket UInt64 :=
  { (FeedbackPacket.zero : FeedbackPacket UInt64) with
    armSide := a.toUInt8
    enabled := 1
    safetyState := 3
    linkOk := 1
    echoCmdSendTimeNs := echoCmdSendTimeNs
    cmdHoldNs := cmdHoldNs
    armDof := 7
    handDof := 1 }

def waiting (a : ArmSide) : FeedbackPacket UInt64 :=
  { (FeedbackPacket.zero : FeedbackPacket UInt64) with
    armSide := a.toUInt8
    safetyState := 1
    linkOk := 1 }

/-- A command for the right arm arrives, in a network that damages the other one, and the feedback
to it comes back. -/
def exchange : List Timed :=
  during 5 (leaderLoops 5 ++ sendCommands 0) ++
    during 9 [.deliverCommand .left 0 20 [1, 2, 3], .deliverCommand .right 0 0 []] ++
    during 10 (followerLoops 19) ++
    during 11 (sendBoth (following .right 1005 1) (waiting .left)) ++
    during 14 [.deliverFeedback .right 0 0 []]

end Runs

end OpenArmTeleop.System
