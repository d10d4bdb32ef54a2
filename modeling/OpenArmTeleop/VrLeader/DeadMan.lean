import OpenArmTeleop.VrLeader.Steps

/-!
# The dead man's switch of the VR leader

The loop goes on with the last VR packet however old it is, so that a held grip stays held when the
packets stop.
-/

open Num Run OpenArmTeleop.Net

namespace OpenArmTeleop.VrLeader

/-- A VR packet with the grip held, not longer ago than the bound. -/
def HeldWithin (boundNs : ℕ) (a : ArmSide) (timeNs : ℕ) : Event → Prop
  | .vr vrNs grip => 0.5 < grip a ∧ timeNs ≤ vrNs + boundNs
  | _ => False

/-- An enabled packet comes soon after the last VR packet with the grip held. -/
def DeadMan (boundNs : ℕ) : Event → List Event → Prop
  | .sent a timeNs pkt, h => pkt.enable = 1 → ∃ e ∈ h, HeldWithin boundNs a timeNs e
  | _, _ => True

theorem zeroJoints_no_nan : zeroJoints.any Double.isNan = false := by decide +kernel

section Runs

variable [Rounding] {cfg : Config} {lib : Library} {s : State} {h : List Event}

theorem loop_run (hr : (machine cfg lib).Runs s h) (env : Env) (hle : s.nowNs ≤ env.timeNs) :
    (machine cfg lib).Runs (loopStep cfg lib { s with nowNs := env.timeNs } env).1
      ((loopStep cfg lib { s with nowNs := env.timeNs } env).2.toList ++ h) := by
  refine hr.next (a := .loop env) trivial ?_
  change (s.advance env.timeNs).map _ = _
  rw [State.advance, if_neg (not_lt.mpr hle)]
  rfl

theorem telemetry_run (hr : (machine cfg lib).Runs s h) (timeNs : ℕ) (p : OpenArmTelemetryPacketV1)
    (hle : s.nowNs ≤ timeNs) :
    (machine cfg lib).Runs (receiveTelemetry { s with nowNs := timeNs } timeNs p).1
      ((receiveTelemetry { s with nowNs := timeNs } timeNs p).2.toList ++ h) := by
  refine hr.next (a := .telemetry timeNs p) trivial ?_
  change (s.advance timeNs).map _ = _
  rw [State.advance, if_neg (not_lt.mpr hle)]
  rfl

/-- An arm stays ready while another one is processed, or when the solver fails. -/
theorem ready_process {a b : ArmSide} {q : Joints} (hr : s.ready cfg b = true) :
    (s.process cfg lib a false q).1.ready cfg b = true := by
  have hk := s.process_kept cfg lib a false q
  have htarget : (s.process cfg lib a false q).1.targetQ b = s.targetQ b := by
    by_cases hab : b = a
    · subst hab
      obtain ⟨-, -, -, hstale, -, -⟩ := (State.ready_iff cfg s b).mp hr
      rw [State.process_targetQ, hstale, State.follows_of_ready hr]
      rfl
    · exact hk.targetQ b hab
  rw [State.ready_keep hk.vrPkt hk.stale hk.telConnected htarget]
  exact hr

/-- A packet sent for a ready arm, however late, is enabled. -/
theorem send_run (hr : (machine cfg lib).Runs s h) (hpc : s.loop.pc = .send .right)
    (hready : s.ready cfg .right = true) :
    ∃ s' pkt, (machine cfg lib).Runs s' (.sent .right s.nowNs pkt :: h) ∧ pkt.enable = 1 := by
  have hnext := loop_run hr ⟨s.nowNs, false, zeroJoints⟩ le_rfl
  simp only [loopStep, hpc] at hnext
  exact ⟨_, _, hnext, (State.sendPkt_enable cfg s .right).mpr hready⟩

/-- A step of the loop that processes an arm while the solver fails. -/
theorem process_step (hr : (machine cfg lib).Runs s h) {a : ArmSide} (hpc : s.loop.pc = .process a)
    {b : ArmSide} (hready : s.ready cfg b = true) :
    ∃ s' h', (machine cfg lib).Runs s' h' ∧ s'.nowNs = s.nowNs ∧ s'.loop.pc = .afterProcess a ∧
      s'.ready cfg b = true ∧ ∀ e ∈ h', e ∈ h ∨ ∃ m, e = .attempt a m := by
  have hnext := loop_run hr ⟨s.nowNs, false, zeroJoints⟩ le_rfl
  simp only [loopStep, hpc] at hnext
  have hk := s.process_kept cfg lib a false zeroJoints
  refine ⟨_, _, hnext, hk.nowNs, rfl, ready_process hready, fun e he => ?_⟩
  rcases List.mem_append.mp he with he | he
  · have hevent : (s.process cfg lib a false zeroJoints).2 = some e := Option.mem_toList.mp he
    rw [State.process_event] at hevent
    split at hevent
    · exact .inr ⟨_, (Option.some.inj hevent).symm⟩
    · cases hevent
  · exact .inl he

/-- From a ready arm to its packet, while the solver fails for both arms. -/
theorem process_run (hr : (machine cfg lib).Runs s h) (hpc : s.loop.pc = .process .right)
    (hready : s.ready cfg .right = true) :
    ∃ s' h' pkt, (machine cfg lib).Runs s' (.sent .right s.nowNs pkt :: h') ∧ pkt.enable = 1 ∧
      ∀ e ∈ h', e ∈ h ∨ ∃ a m, e = .attempt a m := by
  obtain ⟨s₁, h₁, hr₁, hnow₁, hpc₁, hready₁, hmem₁⟩ := process_step hr hpc hready
  obtain ⟨s₂, h₂, hr₂, hnow₂, hpc₂, hready₂, hmem₂⟩ := process_step hr₁ hpc₁ hready₁
  obtain ⟨s₃, pkt, hr₃, hen⟩ := send_run hr₂ hpc₂ hready₂
  rw [hnow₂, hnow₁] at hr₃
  refine ⟨s₃, h₂, pkt, hr₃, hen, fun e he => ?_⟩
  rcases hmem₂ e he with he | ⟨m, rfl⟩
  · rcases hmem₁ e he with he | ⟨m, rfl⟩
    · exact .inl he
    · exact .inr ⟨_, _, rfl⟩
  · exact .inr ⟨_, _, rfl⟩

/-- An arm that is ready when no held packet is recent breaks the bound. -/
theorem bound_broken (hr : (machine cfg lib).Runs s h) (hpc : s.loop.pc = .process .right)
    (hready : s.ready cfg .right = true) {boundNs : ℕ}
    (hold : ∀ vrNs grip, .vr vrNs grip ∈ h → vrNs + boundNs < s.nowNs) :
    ∃ s h, (machine cfg lib).Runs s h ∧ ¬ Always (DeadMan boundNs) h := by
  obtain ⟨s', h', pkt, hr', hen, hevents⟩ := process_run hr hpc hready
  refine ⟨s', _, hr', fun hall => ?_⟩
  obtain ⟨e, he, hwithin⟩ := hall.1 hen
  rcases hevents e he with he | ⟨a, m, rfl⟩
  · cases e with
    | vr vrNs grip => exact (hold vrNs grip he).not_ge hwithin.2
    | _ => exact hwithin
  · exact hwithin

/-- The right grip is held in a VR packet at time zero, and no other comes. -/
def firstGrip (cfg : Config) (a : ArmSide) : Double :=
  (fillArm cfg a ((vrPacket (hand 0x3F800000 0 0)).arm a)).grip

theorem firstGrip_held (cfg : Config) : (0.5 : Double) < firstGrip cfg .right := by
  have hgrip : (0.5 : Double) < .ofFloat 0x3F800000 := by decide +kernel
  exact hgrip

theorem first_vr_run (cfg : Config) (lib : Library) :
    ∃ s, (machine cfg lib).Runs s [.vr 0 (firstGrip cfg)] ∧
      s = (receiveVr cfg .start 0 (vrPacket (hand 0x3F800000 0 0))).1 :=
  ⟨_, Machine.RunWhere.next (M := machine cfg lib) (a := .vr 0 (vrPacket (hand 0x3F800000 0 0)))
    (e := some (.vr 0 (firstGrip cfg))) .start trivial rfl, rfl⟩

/-- The first cycle comes at any time after it, and the telemetry just after the cycle has looked at
its age. -/
theorem waiting_run (cfg : Config) (lib : Library) (timeNs : ℕ) :
    ∃ s c, (machine cfg lib).Runs s [.telemetry timeNs, .cycle c, .vr 0 (firstGrip cfg)] ∧
      s.nowNs = timeNs ∧ s.loop.pc = .process .right ∧
      (cfg.dryRun = false → s.ready cfg .right = true) := by
  obtain ⟨s, hvr, rfl⟩ := first_vr_run cfg lib
  have hhead := loop_run hvr ⟨timeNs, false, zeroJoints⟩ (Nat.zero_le _)
  have hsnapshot := loop_run hhead ⟨timeNs, false, zeroJoints⟩ le_rfl
  have hcycle := loop_run hsnapshot ⟨timeNs, false, zeroJoints⟩ le_rfl
  have htelemetry := telemetry_run hcycle timeNs (telemetryPacket 0) le_rfl
  refine ⟨_, _, htelemetry, rfl, rfl, fun hwet => (State.ready_iff _ _ _).mpr ?_⟩
  exact ⟨decide_eq_true (firstGrip_held cfg), rfl, rfl, rfl, hwet, zeroJoints_no_nan⟩

/-- Without `--dry-run` no bound holds. -/
theorem dead_man_fails (cfg : Config) (lib : Library) (hwet : cfg.dryRun = false) (boundNs : ℕ) :
    ∃ s h, (machine cfg lib).Runs s h ∧ ¬ Always (DeadMan boundNs) h := by
  obtain ⟨s, c, hr, hnow, hpc, hready⟩ := waiting_run cfg lib (boundNs + 1)
  refine bound_broken hr hpc (hready hwet) fun vrNs grip hmem => ?_
  obtain ⟨rfl, -⟩ : vrNs = 0 ∧ grip = firstGrip cfg := by simpa using hmem
  omega

/-- The first cycle comes at any time after it, with telemetry of that time. -/
theorem stopped_run (cfg : Config) (lib : Library) (htimeout : 0 ≤ cfg.staleTimeoutMs)
    (timeNs : ℕ) :
    ∃ s c, (machine cfg lib).Runs s [.cycle c, .telemetry timeNs, .vr 0 (firstGrip cfg)] ∧
      s.nowNs = timeNs ∧ s.loop.pc = .process .right ∧
      (cfg.dryRun = false → s.ready cfg .right = true) := by
  obtain ⟨s, hvr, rfl⟩ := first_vr_run cfg lib
  have htelemetry := telemetry_run hvr timeNs (telemetryPacket 0) (Nat.zero_le _)
  have hhead := loop_run htelemetry ⟨timeNs, false, zeroJoints⟩ le_rfl
  have hsnapshot := loop_run hhead ⟨timeNs, false, zeroJoints⟩ le_rfl
  have hcycle := loop_run hsnapshot ⟨timeNs, false, zeroJoints⟩ le_rfl
  have hage : ageMs timeNs timeNs = 0 := by simp [ageMs]
  have hfresh : decide (cfg.staleTimeoutMs < ageMs timeNs timeNs) = false := by
    rw [hage]
    exact decide_eq_false (not_lt.mpr htimeout)
  refine ⟨_, _, hcycle, rfl, rfl, fun hwet => (State.ready_iff _ _ _).mpr ?_⟩
  exact ⟨decide_eq_true (firstGrip_held cfg), rfl, rfl, hfresh, hwet, zeroJoints_no_nan⟩

end Runs

end OpenArmTeleop.VrLeader
