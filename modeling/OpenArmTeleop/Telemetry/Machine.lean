import OpenArmTeleop.Lib.Run
import OpenArmTeleop.Safety.Manager
import OpenArmTeleop.Telemetry.Packet
import OpenArmTeleop.VrLeader.Machine

/-!
# Telemetry from the follower to the VR leader

The telemetry of `wifi_bimanual_follower.cpp`, relays of `telemetry_fanout.cpp` on the way, and
the program of `wifi_vr_bimanual_leader.cpp`. The joints of the follower are written by any of its
threads at any time. The network may lose, repeat, delay and reorder datagrams.
-/

open Bytes Num Run OpenArmTeleop.Net OpenArmTeleop.Control OpenArmTeleop.Safety

namespace OpenArmTeleop.Telemetry

structure Config where
  mock : Bool
  /-- How many relays there are between the two programs. -/
  relays : ℕ
  /-- The conversion of a `double` to a `float`. -/
  toFloat : Double → UInt32
  leader : VrLeader.Config
  lib : VrLeader.Library

/-! ## The publisher -/

structure Publisher where
  /-- What is still to be read for the packet at hand. -/
  reads : Option (List (ArmSide × Field))
  pkt : OpenArmTelemetryPacketV1
  seen : ArmSide → Robot
  seq : UInt32

/-- Each vector is copied under its own lock. Without robots there is none. -/
def Config.reads (cfg : Config) : List (ArmSide × Field) :=
  if cfg.mock then []
  else
    [(.right, .armResponse), (.right, .handResponse), (.left, .armResponse), (.left, .handResponse),
      (.right, .armReference), (.right, .handReference), (.left, .armReference),
      (.left, .handReference)]

/-- The packet before the joints are filled in. -/
def Config.header (cfg : Config) (timeNs : UInt64) (st : ArmSide → SafetyState) :
    OpenArmTelemetryPacketV1 :=
  { OpenArmTelemetryPacketV1.zero with
    monotonicTimeNs := timeNs
    robotType := 1
    controlMode := 1
    enabled := if !cfg.mock && (st .right = .active || st .left = .active) then 1 else 0
    estop := if st .right = .estop || st .left = .estop then 1 else 0
    stateDim := 16
    actionDim := 16
    velocityDim := 16
    watchdogState := (st .right).toUInt8
    safetyState := (st .left).toUInt8 }

def Config.datagram (cfg : Config) (p : Publisher) : List UInt8 :=
  let pkt := if cfg.mock then p.pkt else fillJoints cfg.toFloat p.seen p.pkt
  OpenArmTelemetryPacketV1.layout.put (pkt.publish p.seq)

/-! ## The receivers -/

/-- `telemetry_fanout.cpp` forwards what `recv` puts into its buffer of 4096 bytes. -/
def relay (datagram : List UInt8) : List UInt8 := recvfrom datagram

/-- The check of the size in the callback of the VR leader. -/
def received (datagram : List UInt8) : Option VrLeader.OpenArmTelemetryPacketV1 :=
  let buffer := recvfrom datagram
  if buffer.length = OpenArmTelemetryPacketV1.layout.size then
    let pkt := OpenArmTelemetryPacketV1.layout.get buffer
    some ⟨pkt.magic, pkt.observationState⟩
  else none

/-! ## The system -/

structure State where
  robot : ArmSide → Robot
  publisher : Publisher
  /-- The datagrams sent to each relay in turn and, past the last one, to the VR leader, in the
  order of sending. -/
  pools : ℕ → List (List UInt8)
  leader : VrLeader.State

inductive Event
  | set (a : ArmSide) (f : Field) (r : Robot)
  | published (datagram : List UInt8) (seen : ArmSide → Robot)
  | forwarded (k i : ℕ)
  | received (i : ℕ) (datagram : List UInt8) (timeNs : ℕ)
  | leader (e : VrLeader.Event)

inductive Action
  /-- A thread of the follower writes one vector. -/
  | set (a : ArmSide) (f : Field) (r : Robot)
  | due (timeNs : UInt64) (st : ArmSide → SafetyState)
  | read
  | publish
  /-- Datagram `i` reaches relay `k`. -/
  | forward (k i : ℕ)
  | deliver (timeNs i : ℕ)
  | leader (x : VrLeader.Action)

def State.start : State where
  robot _ := .new
  publisher := ⟨none, .zero, fun _ => .new, 0⟩
  pools _ := []
  leader := .start

def State.send (s : State) (k : ℕ) (datagram : List UInt8) : State :=
  { s with pools := Function.update s.pools k (s.pools k ++ [datagram]) }

@[simp] theorem State.send_self (s : State) (k : ℕ) (d : List UInt8) :
    (s.send k d).pools k = s.pools k ++ [d] :=
  Function.update_self ..

theorem State.send_of_ne (s : State) {k j : ℕ} (d : List UInt8) (hne : j ≠ k) :
    (s.send k d).pools j = s.pools j :=
  Function.update_of_ne hne ..

section Machine

variable [Rounding]

/-- Telemetry comes from the network only. -/
def stepLeader (cfg : Config) (s : State) : VrLeader.Action → Option (State × Option Event)
  | .telemetry .. => none
  | x => (VrLeader.step cfg.leader cfg.lib s.leader x).map fun (st, e) =>
      ({ s with leader := st }, e.map .leader)

def step (cfg : Config) (s : State) : Action → Option (State × Option Event)
  | .set a f r =>
    some ({ s with robot := Function.update s.robot a ((s.robot a).take r f) }, some (.set a f r))
  | .due timeNs st =>
    if s.publisher.reads.isSome then none
    else
      some ({ s with
        publisher := { s.publisher with
          reads := some cfg.reads
          pkt := cfg.header timeNs st } }, none)
  | .read =>
    match s.publisher.reads with
    | some ((a, f) :: rest) =>
      some ({ s with
        publisher := { s.publisher with
          reads := some rest
          seen := Function.update s.publisher.seen a ((s.publisher.seen a).take (s.robot a) f) } },
        none)
    | _ => none
  | .publish =>
    match s.publisher.reads with
    | some [] =>
      let datagram := cfg.datagram s.publisher
      some ({ s.send 0 datagram with
        publisher := { s.publisher with reads := none, seq := s.publisher.seq + 1 } },
        some (.published datagram s.publisher.seen))
    | _ => none
  | .forward k i =>
    if k < cfg.relays then
      (s.pools k)[i]?.map fun datagram => (s.send (k + 1) (relay datagram), some (.forwarded k i))
    else none
  | .deliver timeNs i =>
    (s.pools cfg.relays)[i]?.bind fun datagram =>
      match received datagram with
      | none => some (s, none)
      | some pkt =>
        (VrLeader.step cfg.leader cfg.lib s.leader (.telemetry timeNs pkt)).map fun (st, e) =>
          ({ s with leader := st }, e.map fun _ => .received i datagram timeNs)
  | .leader x => stepLeader cfg s x

def machine (cfg : Config) : Machine State Action Event where
  init := .start
  step s a := step cfg s a

end Machine

end OpenArmTeleop.Telemetry
