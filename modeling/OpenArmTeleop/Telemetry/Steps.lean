import OpenArmTeleop.Lib.Trace
import OpenArmTeleop.Telemetry.Machine
import OpenArmTeleop.VrLeader.Steps

/-!
# What one step of the telemetry can do
-/

open Bytes Num Run OpenArmTeleop.Net

namespace OpenArmTeleop.Telemetry

variable (cfg : Config) (s : State)

section Steps

variable [Rounding]

inductive Step : Action → State → Option Event → Prop
  | set (a : ArmSide) (f : Field) (r : Robot) :
      Step (.set a f r)
        { s with robot := Function.update s.robot a ((s.robot a).take r f) } (some (.set a f r))
  | due (timeNs : UInt64) (st : ArmSide → Safety.SafetyState) : s.publisher.reads = none →
      Step (.due timeNs st)
        { s with
          publisher := { s.publisher with reads := some cfg.reads, pkt := cfg.header timeNs st } }
        none
  | read (a : ArmSide) (f : Field) (rest : List (ArmSide × Field)) :
      s.publisher.reads = some ((a, f) :: rest) →
      Step .read
        { s with
          publisher := { s.publisher with
            reads := some rest
            seen := Function.update s.publisher.seen a ((s.publisher.seen a).take (s.robot a) f) } }
        none
  | publish : s.publisher.reads = some [] →
      Step .publish
        { s.send 0 (cfg.datagram s.publisher) with
          publisher := { s.publisher with reads := none, seq := s.publisher.seq + 1 } }
        (some (.published (cfg.datagram s.publisher) s.publisher.seen))
  | forward (k i : ℕ) (d : List UInt8) : k < cfg.relays → (s.pools k)[i]? = some d →
      Step (.forward k i) (s.send (k + 1) (relay d)) (some (.forwarded k i))
  | deliver (timeNs i : ℕ) (d : List UInt8) (pkt : VrLeader.OpenArmTelemetryPacketV1)
      (st : VrLeader.State) : (s.pools cfg.relays)[i]? = some d → received d = some pkt →
      st.robotQ = VrLeader.observed pkt →
      VrLeader.step cfg.leader cfg.lib s.leader (.telemetry timeNs pkt) =
        some (st, some (.telemetry timeNs)) →
      Step (.deliver timeNs i) { s with leader := st } (some (.received i d timeNs))
  | ignore (timeNs i : ℕ) : Step (.deliver timeNs i) s none
  | leader (act : Action) (x : VrLeader.Action) (st : VrLeader.State) (e : Option VrLeader.Event) :
      VrLeader.step cfg.leader cfg.lib s.leader x = some (st, e) →
      st.robotQ = s.leader.robotQ → st.telConnected = s.leader.telConnected →
      (∀ c, e = some (.cycle c) → c.fb = s.leader.robotQ ∧ c.connected = s.leader.telConnected) →
      Step act { s with leader := st } (e.map .leader)

variable {cfg s}

/-- What the control loop leaves alone, and what a cycle says about it. -/
theorem loopStep_robotQ (lcfg : VrLeader.Config) (lib : VrLeader.Library) (s : VrLeader.State)
    (env : VrLeader.Env) :
    (VrLeader.loopStep lcfg lib s env).1.robotQ = s.robotQ ∧
      (VrLeader.loopStep lcfg lib s env).1.telConnected = s.telConnected ∧
      ∀ c, (VrLeader.loopStep lcfg lib s env).2 = some (.cycle c) →
        c.fb = s.robotQ ∧ c.connected = s.telConnected := by
  have hprocess : ∀ a solved q, (s.process lcfg lib a solved q).1.robotQ = s.robotQ := by
    intro a solved q
    unfold VrLeader.State.process
    split
    · rfl
    · dsimp only
      split
      · unfold VrLeader.State.follow
        dsimp only
        split <;> rfl
      · rfl
  unfold VrLeader.loopStep
  cases hpc : s.loop.pc with
  | process a =>
    refine ⟨hprocess a _ _, (s.process_kept lcfg lib a _ _).telConnected, fun c hc => ?_⟩
    exact absurd (s.process_cycle? lcfg lib a _ _ _ hc) (by simp [VrLeader.Event.cycle?])
  | snapshotTel =>
    refine ⟨rfl, rfl, fun c hc => ?_⟩
    cases hc
    exact ⟨rfl, rfl⟩
  | _ => exact ⟨rfl, rfl, nofun⟩

theorem leader_step {x : VrLeader.Action} {st : VrLeader.State} {e : Option VrLeader.Event}
    (hx : ∀ timeNs p, x ≠ .telemetry timeNs p)
    (h : VrLeader.step cfg.leader cfg.lib s.leader x = some (st, e)) (act : Action) :
    Step cfg s act { s with leader := st } (e.map .leader) := by
  rcases VrLeader.step_cases cfg.leader cfg.lib h with ⟨timeNs, p, rfl, -, hr⟩ |
    ⟨timeNs, p, rfl, -, -⟩ | ⟨rfl, rfl, rfl⟩ | ⟨env, rfl, -, hr⟩
  · refine .leader act _ st e h ?_ ?_ ?_ <;> unfold VrLeader.receiveVr at hr <;>
      split at hr <;> cases hr
    · rfl
    · rfl
    · rfl
    · rfl
    · nofun
    · nofun
  · exact absurd rfl (hx timeNs p)
  · exact .leader act _ _ _ h rfl rfl nofun
  · obtain ⟨hq, htel, hcycle⟩ := loopStep_robotQ cfg.leader cfg.lib
      { s.leader with nowNs := env.timeNs } env
    rw [← hr] at hq htel hcycle
    exact .leader act _ st e h hq htel hcycle

theorem telemetry_step {timeNs i : ℕ} {d : List UInt8} {pkt : VrLeader.OpenArmTelemetryPacketV1}
    {st : VrLeader.State} {e : Option VrLeader.Event} (hd : (s.pools cfg.relays)[i]? = some d)
    (hpkt : received d = some pkt)
    (h : VrLeader.step cfg.leader cfg.lib s.leader (.telemetry timeNs pkt) = some (st, e)) :
    Step cfg s (.deliver timeNs i) { s with leader := st }
      (e.map fun _ => .received i d timeNs) := by
  have hstep : (VrLeader.machine cfg.leader cfg.lib).step s.leader (.telemetry timeNs pkt) =
      some (st, e) := h
  rcases VrLeader.step_cases cfg.leader cfg.lib hstep with ⟨_, _, hx, -, -⟩ | ⟨_, _, hx, -, hr⟩ |
    ⟨hx, -, -⟩ | ⟨_, hx, -, -⟩
  · cases hx
  · cases hx
    unfold VrLeader.receiveTelemetry at hr
    split at hr
    · cases hr
      exact .deliver timeNs i d pkt _ hd hpkt rfl h
    · cases hr
      exact .leader _ _ _ none h rfl rfl nofun
  · cases hx
  · cases hx

theorem step_cases {act : Action} {s' : State} {e : Option Event}
    (h : (machine cfg).step s act = some (s', e)) : Step cfg s act s' e := by
  change step cfg s act = some (s', e) at h
  cases act with
  | set a f r => cases h; exact .set a f r
  | due timeNs st =>
    simp only [step] at h
    split at h <;> cases h
    exact .due timeNs st (Option.not_isSome_iff_eq_none.mp (by assumption))
  | read =>
    simp only [step] at h
    split at h <;> cases h
    exact .read _ _ _ (by assumption)
  | publish =>
    simp only [step] at h
    split at h <;> cases h
    exact .publish (by assumption)
  | forward k i =>
    simp only [step] at h
    split at h
    · obtain ⟨d, hd, heq⟩ := Option.map_eq_some_iff.mp h
      cases heq
      exact .forward k i d (by assumption) hd
    · cases h
  | deliver timeNs i =>
    obtain ⟨d, hd, hr⟩ := Option.bind_eq_some_iff.mp h
    split at hr
    · cases hr
      exact .ignore timeNs i
    · obtain ⟨⟨st, e'⟩, hs, heq⟩ := Option.map_eq_some_iff.mp hr
      cases heq
      exact telemetry_step hd (by assumption) hs
  | leader x =>
    simp only [step, stepLeader] at h
    split at h
    · cases h
    · rename_i hx
      obtain ⟨⟨st, e'⟩, hs, heq⟩ := Option.map_eq_some_iff.mp h
      cases heq
      exact leader_step (fun timeNs p hp => hx timeNs p hp) hs _

end Steps

end OpenArmTeleop.Telemetry
