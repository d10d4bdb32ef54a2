import OpenArmTeleop.Lib.Sampling
import OpenArmTeleop.Telemetry.Steps

/-!
# What the VR leader sees of the robot
-/

open Bytes Num Run Sampling OpenArmTeleop.Net OpenArmTeleop.Control

namespace OpenArmTeleop.Telemetry

/-! ## Histories -/

def Event.measured? (a : ArmSide) : Event → Option (Vector (JointState Double) 7)
  | .set b .armResponse r => if b = a then some r.armResponse else none
  | _ => none

/-- What the follower has measured of an arm, newest first. -/
def measured (a : ArmSide) (h : List Event) : List (Vector (JointState Double) 7) :=
  h.filterMap (Event.measured? a) ++ [Robot.new.armResponse]

/-- The positions as the VR leader gets to see them. -/
def Config.joints (cfg : Config) (arm : Vector (JointState Double) 7) : VrLeader.Joints :=
  arm.map fun j => .ofFloat (cfg.toFloat j.position)

def Event.followed? (a : ArmSide) : Event → Option VrLeader.Joints
  | .leader (.cycle c) => if c.connected then some (c.fb a) else none
  | _ => none

/-- The joints of an arm that the cycles of the VR leader worked with, newest first. -/
def followed (a : ArmSide) (h : List Event) : List VrLeader.Joints :=
  h.filterMap (Event.followed? a)

theorem measured_append {a : ArmSide} (e : Option Event) (h : List Event)
    (he : ∀ x, e = some x → x.measured? a = none) : measured a (e.toList ++ h) = measured a h :=
  append_eq_of_cons e fun x hx => by simp [measured, he x hx]

theorem measured_set (a b : ArmSide) (f : Field) (r : Robot) (h : List Event) :
    measured a (.set b f r :: h) =
      if b = a ∧ f = .armResponse then r.armResponse :: measured a h else measured a h := by
  by_cases hb : b = a <;> cases f <;>
    simp [measured, Event.measured?, List.filterMap_cons, hb]

/-! ## Datagrams -/

theorem received_put (pkt : OpenArmTelemetryPacketV1) :
    received (OpenArmTelemetryPacketV1.layout.put pkt) =
      some ⟨pkt.magic, pkt.observationState⟩ := by
  have hlen := OpenArmTelemetryPacketV1.layout.length_put pkt
  have hall : recvfrom (OpenArmTelemetryPacketV1.layout.put pkt) =
      OpenArmTelemetryPacketV1.layout.put pkt :=
    List.take_of_length_le (by rw [hlen]; decide)
  unfold received
  rw [hall, if_pos hlen, OpenArmTelemetryPacketV1.layout.get_put]

theorem relay_put (pkt : OpenArmTelemetryPacketV1) :
    relay (OpenArmTelemetryPacketV1.layout.put pkt) = OpenArmTelemetryPacketV1.layout.put pkt :=
  List.take_of_length_le (by
    rw [OpenArmTelemetryPacketV1.layout.length_put]
    decide)

/-- The datagram shows these joints. -/
structure Shows (cfg : Config) (d : List UInt8) (seen : ArmSide → Robot) : Prop where
  relayed : relay d = d
  observed : ∃ pkt, received d = some pkt ∧
    ∀ a, VrLeader.observed pkt a = cfg.joints (seen a).armResponse

theorem observed_get (pkt : VrLeader.OpenArmTelemetryPacketV1) (a : ArmSide) (i : ℕ) (hi : i < 7) :
    ∃ bits, pkt.observationState[armOffset a + i]? = some bits ∧
      (VrLeader.observed pkt a)[i] = .ofFloat bits := by
  cases a with
  | right => exact ⟨pkt.observationState[i], by simp [armOffset], by simp [VrLeader.observed]⟩
  | left =>
    exact ⟨pkt.observationState[i + 8], by simp [armOffset, Nat.add_comm 8],
      by simp [VrLeader.observed]⟩

theorem shows_datagram (cfg : Config) (hmock : cfg.mock = false) (p : Publisher) :
    Shows cfg (cfg.datagram p) p.seen := by
  unfold Config.datagram
  rw [hmock]
  refine ⟨relay_put _, _, received_put _, fun a => ?_⟩
  ext i hi
  obtain ⟨bits, hbits, hobserved⟩ := observed_get
    ⟨((fillJoints cfg.toFloat p.seen p.pkt).publish p.seq).magic,
      ((fillJoints cfg.toFloat p.seen p.pkt).publish p.seq).observationState⟩ a i hi
  have hfill := fillJoints_arm cfg.toFloat p.seen p.pkt a i hi
  rw [OpenArmTelemetryPacketV1.publish_observationState, hfill] at hbits
  obtain rfl := Option.some.inj hbits
  rw [Config.joints, Vector.getElem_map]
  exact hobserved

/-! ## Authentic joints -/

section Runs

variable (cfg : Config)

/-- The joints of an arm are already in the packet at hand. -/
def State.holds (s : State) (a : ArmSide) : Prop :=
  ∃ rest, s.publisher.reads = some rest ∧ (a, .armResponse) ∉ rest

/-- The datagram was published, with these joints. -/
def Published (h : List Event) (d : List UInt8) : Prop :=
  ∃ seen, .published d seen ∈ h ∧ Shows cfg d seen

theorem Published.mono {cfg : Config} {h h' : List Event} {d : List UInt8}
    (hd : Published cfg h d) (hsub : h ⊆ h') : Published cfg h' d := by
  obtain ⟨seen, hmem, hshows⟩ := hd
  exact ⟨seen, hsub hmem, hshows⟩

structure ViewInv (s : State) (h : List Event) : Prop where
  robot : ∀ a, (s.robot a).armResponse ∈ measured a h
  seen : ∀ a, s.holds a → (s.publisher.seen a).armResponse ∈ measured a h
  pools : ∀ k, ∀ d ∈ s.pools k, Published cfg h d
  leader : s.leader.telConnected = true →
    ∃ d seen, .published d seen ∈ h ∧ ∀ a, s.leader.robotQ a = cfg.joints (seen a).armResponse

theorem take_update (robot : ArmSide → Robot) (a b : ArmSide) (r : Robot) (f : Field) :
    (Function.update robot b ((robot b).take r f) a).armResponse =
      if b = a ∧ f = .armResponse then r.armResponse else (robot a).armResponse := by
  rcases eq_or_ne b a with rfl | hne
  · rw [Function.update_self, Robot.take_armResponse]
    simp
  · rw [Function.update_of_ne hne.symm, if_neg fun h => hne h.1]

theorem measured_mono (a : ArmSide) {h h' : List Event} (hsub : h <:+ h') :
    measured a h ⊆ measured a h' := by
  obtain ⟨t, rfl⟩ := hsub
  intro v hv
  rw [measured, List.filterMap_append, List.append_assoc]
  exact List.mem_append_right _ hv

theorem mem_reads (hmock : cfg.mock = false) (a : ArmSide) : (a, .armResponse) ∈ cfg.reads := by
  unfold Config.reads
  rw [hmock]
  cases a <;> decide

variable {cfg}

theorem viewInv_start : ViewInv cfg .start [] := by
  refine ⟨fun a => by simp [State.start, measured], ?_, fun k d hd => ?_, nofun⟩
  · rintro a ⟨rest, hreads, -⟩
    cases hreads
  · cases hd

theorem pools_send {s : State} {k j : ℕ} {d d' : List UInt8} (hd : d' ∈ (s.send k d).pools j) :
    d' ∈ s.pools j ∨ d' = d := by
  rcases eq_or_ne j k with rfl | hne
  · rw [State.send_self] at hd
    simpa using hd
  · rw [State.send_of_ne s d hne] at hd
    exact .inl hd

variable [Rounding]

theorem ViewInv.step (hmock : cfg.mock = false) {s : State} {h : List Event} (hI : ViewInv cfg s h)
    {act : Action} {s' : State} {e : Option Event} (hs : Step cfg s act s' e) :
    ViewInv cfg s' (e.toList ++ h) := by
  have hsuffix : h <:+ e.toList ++ h := List.suffix_append _ _
  have hkept : ∀ a, measured a h ⊆ measured a (e.toList ++ h) := fun a => measured_mono a hsuffix
  have hpools : ∀ k, ∀ d ∈ s.pools k, Published cfg (e.toList ++ h) d :=
    fun k d hd => (hI.pools k d hd).mono hsuffix.subset
  have hleader : s.leader.telConnected = true → ∃ d seen, .published d seen ∈ e.toList ++ h ∧
      ∀ a, s.leader.robotQ a = cfg.joints (seen a).armResponse := by
    intro hconn
    obtain ⟨d, seen, hmem, hq⟩ := hI.leader hconn
    exact ⟨d, seen, hsuffix.subset hmem, hq⟩
  have hrobot : ∀ a, (s.robot a).armResponse ∈ measured a (e.toList ++ h) :=
    fun a => hkept a (hI.robot a)
  have hseen : ∀ a, s.holds a → (s.publisher.seen a).armResponse ∈ measured a (e.toList ++ h) :=
    fun a ha => hkept a (hI.seen a ha)
  cases hs with
  | set b f r =>
    refine ⟨fun a => ?_, hseen, hpools, hleader⟩
    dsimp only
    rw [take_update]
    split
    · rename_i hset
      rw [Option.toList_some, List.singleton_append, measured_set, if_pos hset]
      exact List.mem_cons_self
    · exact hrobot a
  | due timeNs st hidle =>
    refine ⟨hrobot, ?_, hpools, hleader⟩
    rintro a ⟨rest, hreads, hnot⟩
    cases hreads
    exact absurd (mem_reads cfg hmock a) hnot
  | read b f rest hreads =>
    refine ⟨hrobot, ?_, hpools, hleader⟩
    rintro a ⟨rest', hrest, hnot⟩
    cases hrest
    dsimp only
    rw [take_update]
    split
    · rename_i hread
      exact hread.1 ▸ hrobot b
    · rename_i hother
      refine hseen a ⟨_, hreads, ?_⟩
      simp only [List.mem_cons, Prod.mk.injEq, not_or]
      exact ⟨fun heq => hother ⟨heq.1.symm, heq.2.symm⟩, hnot⟩
  | publish hreads =>
    refine ⟨hrobot, ?_, fun k d hd => ?_, hleader⟩
    · rintro a ⟨rest, hnone, -⟩
      cases hnone
    · rcases pools_send hd with hold | rfl
      · exact hpools k d hold
      · exact ⟨_, List.mem_cons_self, shows_datagram cfg hmock s.publisher⟩
  | forward k i d hk hd =>
    refine ⟨hrobot, hseen, fun j d' hd' => ?_, hleader⟩
    rcases pools_send hd' with hold | rfl
    · exact hpools j d' hold
    · have hpublished := hpools k d (List.mem_of_getElem? hd)
      obtain ⟨seen, -, hshows⟩ := hpublished
      rw [hshows.relayed]
      exact hpools k d (List.mem_of_getElem? hd)
  | deliver timeNs i d pkt st hd hpkt hq hstep =>
    refine ⟨hrobot, hseen, hpools, fun _ => ?_⟩
    obtain ⟨seen, hmem, hshows⟩ := hpools _ d (List.mem_of_getElem? hd)
    obtain ⟨pkt', hpkt', hobserved⟩ := hshows.observed
    obtain rfl := Option.some.inj (hpkt.symm.trans hpkt')
    exact ⟨d, seen, hmem, fun a => (congrFun hq a).trans (hobserved a)⟩
  | ignore => exact hI
  | leader act x st e hstep hq htel _ =>
    refine ⟨hrobot, hseen, hpools, fun hconn => ?_⟩
    dsimp only at hconn ⊢
    rw [hq]
    exact hleader (htel ▸ hconn)

/-- What a packet carries was measured, and what a cycle works with was in one packet. -/
def Authentic (cfg : Config) : Event → List Event → Prop
  | .published _ seen, h => ∀ a, (seen a).armResponse ∈ measured a h
  | .leader (.cycle c), h => c.connected = true → ∃ d seen, .published d seen ∈ h ∧
      ∀ a, c.fb a = cfg.joints (seen a).armResponse
  | _, _ => True

end Runs

section Example

attribute [local instance] Rounding.exact

/-- One relay, and a conversion that is exact at zero and one. -/
def relayed : Config where
  mock := false
  relays := 1
  toFloat x := if x = 1 then 0x3F800000 else 0
  leader := {}
  lib := VrLeader.axis

/-- The follower moves its right arm away from zero, and one packet goes through the relay. -/
def onePacket : List Action :=
  let idle : VrLeader.Env := ⟨0, false, VrLeader.zeroJoints⟩
  [.set .right .armResponse { Robot.new with armResponse := .replicate 7 ⟨1, 0, 0⟩ },
    .due 0 fun _ => .active] ++ List.replicate 8 .read ++
  [.publish, .forward 0 0, .deliver 0 0, .leader (.loop idle), .leader (.loop idle),
    .leader (.loop idle)]

end Example

end OpenArmTeleop.Telemetry
