import OpenArmTeleop.VrLeader.Steps

/-!
# When the VR leader enables an arm

An enabled packet needs a held grip, fresh telemetry and a solution of the current cycle.
-/

open Num Run OpenArmTeleop.Net

namespace OpenArmTeleop.VrLeader

/-! ## The documented conditions -/

/-- The solver has succeeded for the arm. -/
def Solved (a : ArmSide) : Event → Bool
  | .attempt b m => decide (b = a) && m.solved
  | _ => false

/-- Telemetry that is not too old for the cycle. -/
def FreshFor (cfg : Config) (c : Cycle) : Event → Bool
  | .telemetry timeNs => decide (ageMs c.nowNs timeNs ≤ cfg.staleTimeoutMs)
  | _ => false

@[mk_iff]
structure Documented (cfg : Config) (a : ArmSide) (c : Cycle) (h : List Event) : Prop where
  held : 0.5 < c.grip a
  fresh : ∃ e ∈ h, FreshFor cfg c e = true
  solved : Since (Solved a ·) (·.isCycle) h
  estop : c.estop = false
  wet : cfg.dryRun = false

/-- An enabled packet meets the documented conditions in its own cycle. -/
def EnablesDocumented (cfg : Config) : Event → List Event → Prop
  | .sent a _ pkt, h => pkt.enable = 1 → ∃ c ∈ (cycles h).take 1, Documented cfg a c h
  | _, _ => True

section Decide

variable (cfg : Config)

instance (a : ArmSide) (c : Cycle) (h : List Event) : Decidable (Documented cfg a c h) :=
  decidable_of_iff _ (documented_iff cfg a c h).symm

instance : ∀ e h, Decidable (EnablesDocumented cfg e h)
  | .sent _ _ pkt, _ => inferInstanceAs (Decidable (pkt.enable = 1 → _))
  | .vr .., _ | .telemetry _, _ | .cycle _, _ | .attempt .., _ => isTrue trivial

end Decide

/-- The solver succeeds for each arm that could be enabled, and the first telemetry does not come
between the processing of such an arm and its packet. -/
def SolvesReady (cfg : Config) (s : State) (_ : List Event) : Action → Prop
  | .loop env => ∀ a, s.loop.pc = .process a → s.ready cfg a = true → env.solved = true
  | .telemetry _ p => p.magic = telemetryMagic → s.telConnected = false → ∀ a,
      (s.loop.pc.processed a = true → { s with telConnected := true }.ready cfg a = false) ∧
      (s.loop.pc.waiting a = true → s.held a = true → cfg.dryRun = false → 0 ≤ cfg.staleTimeoutMs)
  | _ => True

instance (cfg : Config) (s : State) (h : List Event) (act : Action) :
    Decidable (SolvesReady cfg s h act) :=
  match act with
  | .loop _ => inferInstanceAs (Decidable (∀ _, _ → _ → _))
  | .telemetry .. => inferInstanceAs (Decidable (_ → _ → ∀ _, _ ∧ _))
  | .vr .. | .sigint => isTrue trivial

/-! ## The invariant -/

/-- What an arm of the cycle `c` has when it is ready. -/
structure ArmInv (cfg : Config) (c : Cycle) (s : State) (h : List Event) (a : ArmSide) : Prop where
  waiting : s.loop.pc.waiting a = true → s.held a = true → cfg.dryRun = false →
    s.telConnected = true → s.loop.stale = false → ∃ e ∈ h, FreshFor cfg c e = true
  processed : s.loop.pc.processed a = true → s.ready cfg a = true →
    (∃ e ∈ h, FreshFor cfg c e = true) ∧ Since (Solved a ·) (·.isCycle) h

structure EnableInv (cfg : Config) (s : State) (h : List Event) : Prop where
  telemetry : s.telConnected = true → .telemetry s.lastTelNs ∈ h
  cycle : s.loop.pc.working = true → ∃ c old, cycles h = c :: old ∧ Matches c s ∧ c.nowNs ≤ s.nowNs ∧
    ∀ a, ArmInv cfg c s h a

theorem enableInv_start (cfg : Config) : EnableInv cfg .start [] := ⟨nofun, nofun⟩

theorem fresh_append {cfg : Config} {c : Cycle} {h : List Event}
    (hf : ∃ e ∈ h, FreshFor cfg c e = true) (e : Option Event) :
    ∃ x ∈ e.toList ++ h, FreshFor cfg c x = true := by
  obtain ⟨x, hx, hfresh⟩ := hf
  exact ⟨x, List.mem_append_right _ hx, hfresh⟩

theorem not_isCycle {e : Option Event} (he : ∀ x, e = some x → x.cycle? = none) (x : Event)
    (hx : e = some x) : ¬ x.isCycle = true := by
  simp [Event.isCycle, he x hx]

/-- An arm that does not come closer to its packet keeps what it has. -/
theorem ArmInv.append {cfg : Config} {c : Cycle} {s s' : State} {h : List Event} {a : ArmSide}
    (hA : ArmInv cfg c s h a) (e : Option Event) (he : ∀ x, e = some x → x.cycle? = none)
    (hwaiting : s'.loop.pc.waiting a = true → s.loop.pc.waiting a = true)
    (hprocessed : s'.loop.pc.processed a = true → s.loop.pc.processed a = true)
    (htel : s'.telConnected = s.telConnected) (htarget : s'.targetQ a = s.targetQ a)
    (hvr : s'.loop.vrPkt = s.loop.vrPkt) (hstale : s'.loop.stale = s.loop.stale) :
    ArmInv cfg c s' (e.toList ++ h) a := by
  have hheld : s'.held a = s.held a := by simp only [State.held, hvr]
  have hready : s'.ready cfg a = s.ready cfg a := State.ready_keep hvr hstale htel htarget
  refine ⟨fun hw hh hwet hconn hfresh => ?_, fun hp hr => ?_⟩
  · exact fresh_append (hA.waiting (hwaiting hw) (hheld ▸ hh) hwet (htel ▸ hconn) (hstale ▸ hfresh)) e
  · obtain ⟨hfresh, hsolved⟩ := hA.processed (hprocessed hp) (hready ▸ hr)
    exact ⟨fresh_append hfresh e, hsolved.append e (not_isCycle he)⟩

theorem EnableInv.append {cfg : Config} {s s' : State} {h : List Event} (hI : EnableInv cfg s h)
    (e : Option Event) (he : ∀ x, e = some x → x.cycle? = none) (hnow : s.nowNs ≤ s'.nowNs)
    (htel : s'.telConnected = s.telConnected) (hlast : s'.lastTelNs = s.lastTelNs)
    (htarget : s'.targetQ = s.targetQ) (hloop : s'.loop = s.loop) :
    EnableInv cfg s' (e.toList ++ h) := by
  refine ⟨fun hconn => ?_, fun hworking => ?_⟩
  · rw [hlast]
    exact List.mem_append_right _ (hI.telemetry (htel ▸ hconn))
  · rw [hloop] at hworking
    obtain ⟨c, old, hc, hm, hle, harm⟩ := hI.cycle hworking
    refine ⟨c, old, (cycles_append e h he).trans hc, ?_, hle.trans hnow, fun a => ?_⟩
    · apply hm.keep <;> rw [hloop]
    · apply (harm a).append e he
      · rw [hloop]
        exact id
      · rw [hloop]
        exact id
      · exact htel
      · rw [htarget]
      · rw [hloop]
      · rw [hloop]

/-- Telemetry that comes after the clock was read has no age in the cycle. -/
theorem freshFor_later {cfg : Config} {c : Cycle} {timeNs : ℕ} (hle : c.nowNs ≤ timeNs)
    (htimeout : 0 ≤ cfg.staleTimeoutMs) : FreshFor cfg c (.telemetry timeNs) = true := by
  have hage : ageMs c.nowNs timeNs = 0 := by simp [ageMs, Nat.sub_eq_zero_of_le hle]
  simp [FreshFor, hage, htimeout]

section Steps

variable {cfg : Config} {s : State} {h : List Event}

theorem enableInv_telemetry (hI : EnableInv cfg s h) (timeNs : ℕ) (p : OpenArmTelemetryPacketV1)
    (hle : s.nowNs ≤ timeNs) (hok : SolvesReady cfg s h (.telemetry timeNs p)) :
    EnableInv cfg (receiveTelemetry { s with nowNs := timeNs } timeNs p).1
      ((receiveTelemetry { s with nowNs := timeNs } timeNs p).2.toList ++ h) := by
  unfold receiveTelemetry
  split
  · rename_i hmagic
    refine ⟨fun _ => List.mem_cons_self, fun hworking => ?_⟩
    obtain ⟨c, old, hc, hm, hnow, harm⟩ := hI.cycle hworking
    refine ⟨c, old, hc, hm.keep rfl rfl rfl, hnow.trans hle, fun a => ?_⟩
    cases hconn : s.telConnected with
    | true =>
      refine (harm a).append (some (.telemetry timeNs)) (cycle?_some rfl) ?_ ?_ hconn.symm rfl rfl rfl
      · exact id
      · exact id
    | false =>
      obtain ⟨hprocessed, hwaiting⟩ := hok hmagic hconn a
      refine ⟨fun hw hh hwet _ _ => ?_, fun hp hr => ?_⟩
      · exact ⟨_, List.mem_cons_self, freshFor_later (hnow.trans hle) (hwaiting hw hh hwet)⟩
      · have hnot : State.ready cfg { s with telConnected := true } a = true := hr
        rw [hprocessed hp] at hnot
        cases hnot
  · exact hI.append none cycle?_none hle rfl rfl rfl rfl

theorem enableInv_send (hI : EnableInv cfg s h) {a : ArmSide} (hpc : s.loop.pc = .send a) (e : Event)
    (he : e.cycle? = none) : EnableInv cfg (s.goto (.afterSend a)) (e :: h) := by
  refine ⟨fun htel => List.mem_cons_of_mem _ (hI.telemetry htel), fun _ => ?_⟩
  obtain ⟨c, old, hc, hm, hle, harm⟩ := hI.cycle (by rw [hpc]; rfl)
  refine ⟨c, old, (cycles_append (some e) h (cycle?_some he)).trans hc,
    hm.keep rfl rfl rfl, hle, fun b => ?_⟩
  refine (harm b).append (some e) (cycle?_some he) (by simp) ?_ rfl rfl rfl rfl
  by_cases hab : b = a
  · simp [hab]
  · rw [hpc, State.goto_pc, Pc.processed_afterSend_of_ne hab]
    exact id

/-- What a sent packet says when the arm is ready. -/
theorem EnableInv.documented (hI : EnableInv cfg s h) {a : ArmSide} (hpc : s.loop.pc = .send a)
    (hr : s.ready cfg a = true) : ∃ c ∈ (cycles h).take 1, Documented cfg a c h := by
  obtain ⟨hheld, -, hestop, -, hwet, -⟩ := (State.ready_iff _ _ _).mp hr
  obtain ⟨c, old, hc, hm, -, harm⟩ := hI.cycle (by rw [hpc]; rfl)
  have hprocessed : s.loop.pc.processed a = true := by simp [hpc]
  obtain ⟨hfresh, hsolved⟩ := (harm a).processed hprocessed hr
  refine ⟨c, by simp [hc], ?_, hfresh, hsolved, hm.estop.trans hestop, hwet⟩
  rw [hm.grip]
  simpa [State.held] using hheld

/-- A cycle begins with the age of the telemetry. -/
theorem enableInv_snapshotTel (hI : EnableInv cfg s h) (timeNs : ℕ) (hle : timeNs ≤ s.nowNs) :
    EnableInv cfg ((snapshotTel cfg s timeNs).goto (.process .right))
      (.cycle ((snapshotTel cfg s timeNs).cycle timeNs) :: h) := by
  refine ⟨fun htel => List.mem_cons_of_mem _ (hI.telemetry htel), fun _ => ⟨_, _, rfl, ?_, hle, ?_⟩⟩
  · exact ⟨rfl, rfl, fun _ => rfl, rfl⟩
  · intro a
    refine ⟨fun _ _ _ htel hstale => ?_, fun hp => ?_⟩
    · refine ⟨_, List.mem_cons_of_mem _ (hI.telemetry htel), ?_⟩
      have hage : (s.telConnected &&
          decide (cfg.staleTimeoutMs < ageMs timeNs s.lastTelNs)) = false := hstale
      have hconn : s.telConnected = true := htel
      rw [hconn, Bool.true_and, decide_eq_false_iff_not, not_lt] at hage
      exact decide_eq_true hage
    · simp at hp

variable [Rounding] {lib : Library}

theorem enableInv_vr (hI : EnableInv cfg s h) (timeNs : ℕ) (p : VrRelativeTeleopPacketV2)
    (hle : s.nowNs ≤ timeNs) :
    EnableInv cfg (receiveVr cfg { s with nowNs := timeNs } timeNs p).1
      ((receiveVr cfg { s with nowNs := timeNs } timeNs p).2.toList ++ h) := by
  unfold receiveVr
  split
  · exact hI.append (some _) (cycle?_some rfl) hle rfl rfl rfl rfl
  · exact hI.append none cycle?_none hle rfl rfl rfl rfl

/-- Without a solution the arm was ready before. -/
theorem process_ready_unsolved {a : ArmSide} {qIk : Joints}
    (hr : (s.process cfg lib a false qIk).1.ready cfg a = true) : s.ready cfg a = true := by
  obtain ⟨hheld, htel, hestop, hstale, hwet, hfollows⟩ := State.process_ready hr
  obtain ⟨-, -, -, -, -, hnan⟩ := (State.ready_iff _ _ _).mp hr
  rw [State.process_targetQ, hstale, hfollows] at hnan
  exact (State.ready_iff _ _ _).mpr ⟨hheld, htel, hestop, hstale, hwet, hnan⟩

/-- The arm that is processed is ready only after the solver has succeeded. -/
theorem armInv_process {c : Cycle} {a : ArmSide} (hA : ArmInv cfg c s h a)
    (hw : s.loop.pc.waiting a = true) {solved : Bool} {qIk : Joints}
    (hok : s.ready cfg a = true → solved = true) (pc : Pc) (hpc : pc.waiting a = false) :
    ArmInv cfg c ((s.process cfg lib a solved qIk).1.goto pc)
      ((s.process cfg lib a solved qIk).2.toList ++ h) a := by
  refine ⟨fun hw' => ?_, fun _ hr => ?_⟩
  · simp [State.goto, hpc] at hw'
  · obtain ⟨hheld, htel, -, hstale, hwet, hfollows⟩ := State.process_ready hr
    have hsolved : solved = true := by
      cases solved with
      | true => rfl
      | false => exact hok (process_ready_unsolved hr)
    refine ⟨fresh_append (hA.waiting hw hheld hwet htel hstale) _, ?_⟩
    rw [State.process_event, if_pos hfollows]
    exact .inl (by simp [Solved, hsolved])

theorem armInv_other {c : Cycle} {a b : ArmSide} (hA : ArmInv cfg c s h b) (hne : b ≠ a)
    {solved : Bool} {qIk : Joints} (pc : Pc)
    (hwaiting : pc.waiting b = true → s.loop.pc.waiting b = true)
    (hprocessed : pc.processed b = true → s.loop.pc.processed b = true) :
    ArmInv cfg c ((s.process cfg lib a solved qIk).1.goto pc)
      ((s.process cfg lib a solved qIk).2.toList ++ h) b := by
  have hk := s.process_kept cfg lib a solved qIk
  exact hA.append _ (s.process_cycle? cfg lib a solved qIk) hwaiting hprocessed hk.telConnected
    (hk.targetQ b hne) hk.vrPkt hk.stale

theorem enableInv_process (hI : EnableInv cfg s h) {a : ArmSide} (hpc : s.loop.pc = .process a)
    {solved : Bool} {qIk : Joints} (hok : s.ready cfg a = true → solved = true) :
    EnableInv cfg ((s.process cfg lib a solved qIk).1.goto (.afterProcess a))
      ((s.process cfg lib a solved qIk).2.toList ++ h) := by
  have hk := s.process_kept cfg lib a solved qIk
  obtain ⟨c, old, hc, hm, hle, harm⟩ := hI.cycle (by rw [hpc]; rfl)
  have hcycles := cycles_append _ h (s.process_cycle? cfg lib a solved qIk)
  refine ⟨fun htel => ?_, fun _ => ⟨c, old, hcycles.trans hc, ?_, ?_, ?_⟩⟩
  · have hmem := hI.telemetry (hk.telConnected ▸ htel)
    change Event.telemetry (s.process cfg lib a solved qIk).1.lastTelNs ∈ _
    rw [hk.lastTelNs]
    exact List.mem_append_right _ hmem
  · exact hm.keep hk.vrPkt hk.stale hk.fb
  · exact hle.trans hk.nowNs.ge
  · intro b
    by_cases hab : b = a
    · subst hab
      exact armInv_process (harm b) (by simp [hpc]) hok _ (Pc.waiting_afterProcess b)
    · refine armInv_other (harm b) hab _ ?_ ?_ <;> rw [hpc]
      · rw [Pc.waiting_afterProcess_of_ne hab]
        exact id
      · rw [Pc.processed_afterProcess_of_ne hab]
        exact id

theorem enableInv_loop (hI : EnableInv cfg s h) (env : Env) (hnow : env.timeNs = s.nowNs)
    (hok : ∀ a, s.loop.pc = .process a → s.ready cfg a = true → env.solved = true) :
    EnableInv cfg (loopStep cfg lib s env).1 ((loopStep cfg lib s env).2.toList ++ h) := by
  unfold loopStep
  cases hpc : s.loop.pc with
  | head =>
    refine ⟨hI.telemetry, fun hworking => ?_⟩
    cases hrun : s.keepRunning <;> simp [State.goto, hrun, Pc.working] at hworking
  | snapshotVr => exact ⟨hI.telemetry, fun hworking => by simp [State.goto, Pc.working] at hworking⟩
  | snapshotTel => exact enableInv_snapshotTel hI env.timeNs hnow.le
  | process a => exact enableInv_process hI hpc (hok a hpc)
  | send a => exact enableInv_send hI hpc (.sent a env.timeNs (s.sendPkt cfg a)) rfl
  | tail => exact ⟨hI.telemetry, fun hworking => by simp [State.goto, Pc.working] at hworking⟩
  | exited => exact ⟨hI.telemetry, fun hworking => by simp [hpc, Pc.working] at hworking⟩

theorem enableInv_step (hI : EnableInv cfg s h) {act : Action} {s' : State} {e : Option Event}
    (hok : SolvesReady cfg s h act) (hs : (machine cfg lib).step s act = some (s', e)) :
    EnableInv cfg s' (e.toList ++ h) := by
  rcases step_cases cfg lib hs with ⟨timeNs, p, rfl, hle, heq⟩ | ⟨timeNs, p, rfl, hle, heq⟩ |
    ⟨rfl, rfl, rfl⟩ | ⟨env, rfl, hle, heq⟩
  · obtain ⟨rfl, rfl⟩ := Prod.mk.inj heq
    exact enableInv_vr hI timeNs p hle
  · obtain ⟨rfl, rfl⟩ := Prod.mk.inj heq
    exact enableInv_telemetry hI timeNs p hle hok
  · exact hI.append none cycle?_none le_rfl rfl rfl rfl rfl
  · obtain ⟨rfl, rfl⟩ := Prod.mk.inj heq
    have hadvanced : EnableInv cfg { s with nowNs := env.timeNs } h :=
      hI.append none cycle?_none hle rfl rfl rfl rfl
    exact enableInv_loop hadvanced env rfl hok

end Steps

section Runs

attribute [local instance] Rounding.exact

end Runs

end OpenArmTeleop.VrLeader
