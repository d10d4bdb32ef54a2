import OpenArmTeleop.Follower.Machine

/-!
# The single follower

`wifi_single_follower.cpp`: the control loop, the receive thread and the signal handler. One action
is one access to what they share, at a time of the steady clock.
-/

open Num Run OpenArmTeleop.Net OpenArmTeleop.Core OpenArmTeleop.Control OpenArmTeleop.Safety

namespace OpenArmTeleop.Follower.Single

inductive Access
  | triggerEstop
  | stop
  deriving DecidableEq

def signalHandler : List Access := [.triggerEstop, .stop]

section Machine

variable [Rounding]

/-! ## The state -/

structure Config where
  mock : Bool
  rateHz : Double
  safety : SafetyConfig

def Config.rateLimiter (cfg : Config) : RateLimiter Double :=
  ⟨cfg.safety.maxTargetDeltaRadPerCycle, cfg.safety.maxJointVelocityRadS, 1 / cfg.rateHz⟩

/-- The next thing the control loop does. -/
inductive Pc
  | startup
  | head
  | getLatest
  | nowNs
  | receiveTime
  | update
  | getState
  | stream
  | unilateralStep
  | disableAll
  | finish
  | exited
  deriving DecidableEq

structure Loop where
  pc : Pc
  target : Option (TeleopPacket Double)
  nowNs : UInt64
  gapMs : Double
  st : SafetyState

structure State where
  clockNs : UInt64
  buffer : TeleopStateBuffer Double
  safety : SafetyManager
  robot : RobotSystemState Double
  keepRunning : Bool
  /-- What is left of the signal handler. -/
  signal : List Access
  loop : Loop

inductive Event
  /-- A packet is stored. -/
  | packet (p : TeleopPacket Double) (nowNs : UInt64)
  | getLatest
  | safetyUpdate (p : TeleopPacket Double) (nowNs : UInt64) (gapMs : Double)
      (before after : SafetyState)
  | applied (before after : List Double)
  | unilateralStep
  | disableAll
  deriving DecidableEq

/-- What the control loop reads from outside: the clock, the motors, and the memory behind the
arrays of a packet. -/
structure Env where
  nowNs : UInt64
  measured : Measured Double
  behind : Overread Double

inductive Action
  | packet (p : TeleopPacket UInt64) (nowNs : UInt64)
  | sigint
  | signal
  | loop (env : Env)

def State.start (cfg : Config) : State where
  clockNs := 0
  buffer := .new .zero
  safety := .new cfg.safety
  robot := .new
  keepRunning := true
  signal := []
  loop := ⟨.startup, none, 0, 0, .disabled⟩

def State.goto (s : State) (pc : Pc) : State := { s with loop := { s.loop with pc := pc } }

def State.access (s : State) : Access → State
  | .triggerEstop => { s with safety := s.safety.triggerEstop }
  | .stop => { s with keepRunning := false }

/-! ## The control loop -/

/-- The age of a packet, in unsigned arithmetic. -/
def gapMs (nowNs lastRx : UInt64) : Double := Double.ofUnsigned (nowNs - lastRx).toNat / 1e6

def loopStep (cfg : Config) (s : State) (env : Env) : State × Option Event :=
  match s.loop.pc with
  | .startup =>
    -- `AdjustPosition` runs in the thread of the loop
    ({ s with robot := if cfg.mock then s.robot else s.robot.settle env.measured }.goto .head, none)
  | .head => (s.goto (if s.keepRunning then .getLatest else .finish), none)
  | .getLatest =>
    ({ s with loop := { s.loop with target := s.buffer.getLatest } }.goto
      (if s.buffer.getLatest.isSome then .nowNs else .getState), some .getLatest)
  | .nowNs => ({ s with loop := { s.loop with nowNs := env.nowNs } }.goto .receiveTime, none)
  | .receiveTime =>
    let gap := gapMs s.loop.nowNs s.buffer.lastReceiveTimeNs
    ({ s with loop := { s.loop with gapMs := gap } }.goto .update, none)
  | .update =>
    match s.loop.target with
    | none => (s.goto .getState, none)
    | some p =>
      let safety := s.safety.update p s.loop.gapMs
      ({ s with safety := safety }.goto .getState,
        some (.safetyUpdate p s.loop.nowNs s.loop.gapMs s.safety.state safety.state))
  | .getState =>
    ({ s with loop := { s.loop with st := s.safety.state } }.goto
      (if cfg.mock then .head else .stream), none)
  | .stream =>
    if tracks s.loop.st then
      match s.loop.target with
      | none => (s.goto .unilateralStep, none)
      | some p =>
        let robot := applyTarget cfg.rateLimiter s.robot p env.behind
        ({ s with robot := robot }.goto .unilateralStep,
          some (.applied s.robot.referencePositions robot.referencePositions))
    else if s.loop.st = .hold then (s.goto .unilateralStep, none)
    else if stops s.loop.st then (s.goto .disableAll, none)
    else (s.goto .head, none)
  | .unilateralStep =>
    ({ s with robot := s.robot.setAllResponses env.measured }.goto .head, some .unilateralStep)
  | .disableAll => (s.goto .head, some .disableAll)
  | .finish => (s.goto .exited, if cfg.mock then none else some .disableAll)
  | .exited => (s, none)

/-! ## The whole program -/

/-- The clock never goes back. -/
def State.advance (s : State) (nowNs : UInt64) : Option State :=
  if s.clockNs ≤ nowNs then some { s with clockNs := nowNs } else none

def receive (s : State) (p : TeleopPacket UInt64) (nowNs : UInt64) : State × Option Event :=
  if p.decodeAndValidate then
    ({ s with buffer := s.buffer.update (p.map Double.ofBits) nowNs },
      some (.packet (p.map Double.ofBits) nowNs))
  else (s, none)

def step (cfg : Config) (s : State) : Action → Option (State × Option Event)
  | .packet p nowNs => (s.advance nowNs).map fun s => receive s p nowNs
  | .sigint => if s.signal = [] then some ({ s with signal := signalHandler }, none) else none
  | .signal =>
    match s.signal with
    | [] => none
    | x :: rest => some ({ s with signal := rest }.access x, none)
  | .loop env => (s.advance env.nowNs).map fun s => loopStep cfg s env

def machine (cfg : Config) : Machine State Action Event where
  init := .start cfg
  step s a := step cfg s a

end Machine

/-! ## Steps -/

section Frame

variable (s : State)

@[simp] theorem access_loop (x : Access) : (s.access x).loop = s.loop := by
  cases x <;> rfl

@[simp] theorem access_robot (x : Access) : (s.access x).robot = s.robot := by
  cases x <;> rfl

@[simp] theorem access_buffer (x : Access) : (s.access x).buffer = s.buffer := by
  cases x <;> rfl

@[simp] theorem access_clockNs (x : Access) : (s.access x).clockNs = s.clockNs := by
  cases x <;> rfl

theorem advance_eq_some {nowNs : UInt64} {t : State} (h : s.advance nowNs = some t) :
    s.clockNs ≤ nowNs ∧ t = { s with clockNs := nowNs } := by
  unfold State.advance at h
  split at h
  · exact ⟨by assumption, (Option.some.inj h).symm⟩
  · cases h

end Frame

section Steps

variable [Rounding] (cfg : Config) (s : State)

/-- The ways in which the program can take a step. -/
inductive Step : Action → State → Option Event → Prop
  | packet (p : TeleopPacket UInt64) (nowNs : UInt64) : s.clockNs ≤ nowNs →
      p.decodeAndValidate = true →
      Step (.packet p nowNs)
        { s with clockNs := nowNs, buffer := s.buffer.update (p.map Double.ofBits) nowNs }
        (some (.packet (p.map Double.ofBits) nowNs))
  | drop (p : TeleopPacket UInt64) (nowNs : UInt64) : s.clockNs ≤ nowNs →
      Step (.packet p nowNs) { s with clockNs := nowNs } none
  | sigint : Step .sigint { s with signal := signalHandler } none
  | signal (x : Access) (rest : List Access) : s.signal = x :: rest →
      Step .signal ({ s with signal := rest }.access x) none
  | loop (env : Env) : s.clockNs ≤ env.nowNs →
      Step (.loop env) (loopStep cfg { s with clockNs := env.nowNs } env).1
        (loopStep cfg { s with clockNs := env.nowNs } env).2

theorem step_cases (act : Action) (s' : State) (e : Option Event)
    (h : (machine cfg).step s act = some (s', e)) : Step cfg s act s' e := by
  change step cfg s act = some (s', e) at h
  cases act with
  | packet p nowNs =>
    obtain ⟨t, ht, hs⟩ := Option.map_eq_some_iff.mp h
    obtain ⟨hle, rfl⟩ := advance_eq_some s ht
    simp only [receive] at hs
    split at hs
    · rename_i hok
      obtain ⟨rfl, rfl⟩ := Prod.mk.inj hs
      exact .packet p nowNs hle hok
    · obtain ⟨rfl, rfl⟩ := Prod.mk.inj hs
      exact .drop p nowNs hle
  | sigint =>
    simp only [step] at h
    split at h
    · obtain ⟨rfl, rfl⟩ := Prod.mk.inj (Option.some.inj h)
      exact .sigint
    · cases h
  | signal =>
    simp only [step] at h
    split at h
    · cases h
    · rename_i x rest hx
      obtain ⟨rfl, rfl⟩ := Prod.mk.inj (Option.some.inj h)
      exact .signal x rest hx
  | loop env =>
    obtain ⟨t, ht, hs⟩ := Option.map_eq_some_iff.mp h
    obtain ⟨hle, rfl⟩ := advance_eq_some s ht
    obtain ⟨rfl, rfl⟩ := Prod.mk.inj hs
    exact .loop env hle

end Steps

/-! ## Pieces of runs -/

def loops (n : ℕ) (nowNs : UInt64) : List Action :=
  List.replicate n (.loop ⟨nowNs, still, ⟨fun _ => 0, fun _ => 0, fun _ => 0, fun _ => 0⟩⟩)

def follower : Config := ⟨false, .fin 500, {}⟩

end OpenArmTeleop.Follower.Single
