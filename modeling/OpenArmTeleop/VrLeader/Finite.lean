import OpenArmTeleop.VrLeader.Steps

/-!
# What the VR leader sends to an enabled arm

`send_pkt` refuses a NaN in the joints, and nothing else.
-/

open Num Run OpenArmTeleop.Net

namespace OpenArmTeleop.VrLeader

section Conditions

variable [Rounding]

/-- The rate limiter cuts the step. -/
def Limits (limited : Bool) (maxStep target qIk : Double) : Prop :=
  limited = true ∧ maxStep < (qIk - target).abs

/-- The next target of a joint is a number: nothing is infinite and nothing overflows. -/
def StepFits (limited : Bool) (maxStep target qIk : Double) : Prop :=
  (Limits limited maxStep target qIk →
    Double.Adds target ((if 0 < qIk - target then 1 else -1) * maxStep)) ∧
  (¬ Limits limited maxStep target qIk →
    Double.Adds qIk (-target) ∧ Double.Adds target (qIk - target))

/-- The next target of a joint is a NaN, which is refused. -/
def StepNan (limited : Bool) (maxStep target qIk : Double) : Prop :=
  target = .nan ∨ qIk = .nan ∨ target.isFinite = false ∧ ¬ Limits limited maxStep target qIk

/-- The trigger and the limits of the gripper are finite, and nothing overflows. -/
def GripFits (cfg : Config) (trigger : Double) : Prop :=
  Double.Adds cfg.gripperMaxLimit (-cfg.gripperMinLimit) ∧
  Double.Multiplies trigger (cfg.gripperMaxLimit - cfg.gripperMinLimit) ∧
  Double.Adds cfg.gripperMinLimit (trigger * (cfg.gripperMaxLimit - cfg.gripperMinLimit))

/-- A solution, or the target that is kept without one, is refused or fits. -/
def TargetFits (cfg : Config) (a : ArmSide) (target : Joints) (trigger : Double) (env : Env) :
    Prop :=
  (env.solved = true →
    (∃ i, StepNan cfg.rateLimited (cfg.maxStep a i) (target.get i) (env.q.get i)) ∨
      GripFits cfg trigger ∧
        ∀ i, StepFits cfg.rateLimited (cfg.maxStep a i) (target.get i) (env.q.get i)) ∧
  (env.solved = false →
    (∃ i, target.get i = .nan) ∨
      GripFits cfg trigger ∧ ∀ i, (target.get i).isFinite = true)

/-- The numbers fit wherever an arm follows, and where the first telemetry comes between the
processing of a held arm and its packet. -/
def ReceivesFinite (cfg : Config) (s : State) (_ : List Event) : Action → Prop
  | .loop env => cfg.dryRun = false → ∀ a, s.loop.pc = .process a → s.follows cfg a = true →
      TargetFits cfg a (s.targetQ a) (s.loop.vrPkt.arm a).trigger env
  | .telemetry _ p => cfg.dryRun = false → p.magic = telemetryMagic → s.telConnected = false → ∀ a,
      s.loop.pc.processed a = true → s.held a = true → GripFits cfg (s.loop.vrPkt.arm a).trigger
  | _ => True

end Conditions

/-- An enabled packet has only finite targets. -/
def SentFinite : Event → List Event → Prop
  | .sent _ _ pkt, _ => pkt.enable = 1 →
      (∀ i : Fin 7, (pkt.armPos.get i.castSucc).isFinite = true) ∧ (pkt.handPos.get 0).isFinite = true
  | _, _ => True

section Decide

variable [Rounding] (cfg : Config)

instance : ∀ e h, Decidable (SentFinite e h)
  | .sent .., _ => inferInstanceAs (Decidable (_ → _))
  | .vr .., _ | .telemetry _, _ | .cycle _, _ | .attempt .., _ => isTrue trivial

instance (l : Bool) (m t q : Double) : Decidable (Limits l m t q) :=
  inferInstanceAs (Decidable (_ ∧ _))

instance (l : Bool) (m t q : Double) : Decidable (StepFits l m t q) :=
  inferInstanceAs (Decidable (_ ∧ _))

instance (l : Bool) (m t q : Double) : Decidable (StepNan l m t q) :=
  inferInstanceAs (Decidable (_ ∨ _))

instance (trigger : Double) : Decidable (GripFits cfg trigger) :=
  inferInstanceAs (Decidable (_ ∧ _))

instance (a : ArmSide) (t : Joints) (trigger : Double) (env : Env) :
    Decidable (TargetFits cfg a t trigger env) :=
  inferInstanceAs (Decidable (_ ∧ _))

instance (s : State) (h : List Event) (act : Action) : Decidable (ReceivesFinite cfg s h act) :=
  match act with
  | .loop _ => inferInstanceAs (Decidable (_ → ∀ _, _ → _ → _))
  | .telemetry .. => inferInstanceAs (Decidable (_ → _ → _ → ∀ _, _ → _ → _))
  | .vr .. | .sigint => isTrue trivial

end Decide

/-! ## The next target -/

section Target

variable [Rounding] {cfg : Config} {limited : Bool} {maxStep target qIk : Double}

theorem limitStep_of_limits (h : Limits limited maxStep target qIk) :
    limitStep limited maxStep target qIk =
      target + (if 0 < qIk - target then 1 else -1) * maxStep :=
  congrArg (target + ·) (if_pos h)

theorem limitStep_of_not (h : ¬ Limits limited maxStep target qIk) :
    limitStep limited maxStep target qIk = target + (qIk - target) :=
  congrArg (target + ·) (if_neg h)

theorem limitStep_finite_iff :
    (limitStep limited maxStep target qIk).isFinite = true ↔
      StepFits limited maxStep target qIk := by
  unfold StepFits
  by_cases hlimits : Limits limited maxStep target qIk
  · rw [limitStep_of_limits hlimits, Double.isFinite_add]
    exact ⟨fun h => ⟨fun _ => h, fun hnot => absurd hlimits hnot⟩, fun h => h.1 hlimits⟩
  · rw [limitStep_of_not hlimits, Double.isFinite_add]
    constructor
    · intro h
      have hdiff := (Double.isFinite_add qIk (-target)).mp h.2.1
      exact ⟨fun hyes => absurd hyes hlimits, fun _ => ⟨hdiff, h⟩⟩
    · exact fun h => (h.2 hlimits).2

theorem limitStep_nan_of (h : StepNan limited maxStep target qIk) :
    limitStep limited maxStep target qIk = .nan := by
  rcases h with rfl | rfl | ⟨hfin, hlimits⟩
  · exact Double.nan_add _
  · have hdiff : Double.nan - target = .nan := Double.nan_sub target
    have hlimits : ¬ Limits limited maxStep target .nan := by
      rintro ⟨-, hlt⟩
      rw [hdiff] at hlt
      exact Double.not_lt_nan maxStep hlt
    rw [limitStep_of_not hlimits, hdiff]
    exact Double.add_nan target
  · rw [limitStep_of_not hlimits]
    cases target with
    | fin x => cases hfin
    | nan => exact Double.nan_add _
    | inf n => exact Double.inf_add_sub_inf n qIk

theorem gripTarget_finite_iff (trigger : Double) :
    (gripTarget cfg trigger).isFinite = true ↔ GripFits cfg trigger := by
  unfold gripTarget GripFits
  rw [Double.isFinite_add]
  constructor
  · intro h
    have hproduct := (Double.isFinite_mul _ _).mp h.2.1
    exact ⟨(Double.isFinite_add _ _).mp hproduct.2.1, hproduct, h⟩
  · exact fun h => h.2.2

end Target

/-! ## The invariant -/

def FiniteTargets (s : State) (a : ArmSide) : Prop :=
  (∀ i, ((s.targetQ a).get i).isFinite = true) ∧ (s.targetGrip a).isFinite = true

structure FiniteInv [Rounding] (cfg : Config) (s : State) : Prop where
  start : s.telConnected = false → ∀ a, s.targetQ a = zeroJoints
  grip : ∀ a, s.loop.pc.processed a = true → s.loop.stale = false →
    s.targetGrip a = gripTarget cfg (s.loop.vrPkt.arm a).trigger
  ready : ∀ a, s.loop.pc.processed a = true → s.ready cfg a = true → FiniteTargets s a

section Steps

variable [Rounding] {cfg : Config} {lib : Library} {s s' : State} {h : List Event}

theorem finiteInv_start : FiniteInv cfg .start := by
  refine ⟨fun _ _ => rfl, fun a hp => ?_, fun a hp => ?_⟩ <;> rw [Pc.processed_idle rfl a] at hp <;>
    cases hp

/-- A step that changes neither the targets nor what the loop has read. -/
theorem FiniteInv.keep (hI : FiniteInv cfg s) (htarget : s'.targetQ = s.targetQ)
    (hgrip : s'.targetGrip = s.targetGrip) (htel : s'.telConnected = s.telConnected)
    (hvr : ∀ a, s'.loop.pc.processed a = true → s'.loop.vrPkt = s.loop.vrPkt)
    (hstale : ∀ a, s'.loop.pc.processed a = true → s'.loop.stale = s.loop.stale)
    (hpc : ∀ a, s'.loop.pc.processed a = true → s.loop.pc.processed a = true) : FiniteInv cfg s' := by
  refine ⟨?_, fun a hp hfresh => ?_, fun a hp hr => ?_⟩
  · rw [htel, htarget]
    exact hI.start
  · rw [hgrip, hvr a hp]
    exact hI.grip a (hpc a hp) (hstale a hp ▸ hfresh)
  · have hready : s.ready cfg a = true :=
      (State.ready_keep (hvr a hp) (hstale a hp) htel (by rw [htarget])).symm.trans hr
    unfold FiniteTargets
    rw [htarget, hgrip]
    exact hI.ready a (hpc a hp) hready

theorem finiteInv_telemetry (hwet : cfg.dryRun = false) (hI : FiniteInv cfg s) (timeNs : ℕ)
    (p : OpenArmTelemetryPacketV1) (hok : ReceivesFinite cfg s h (.telemetry timeNs p)) :
    FiniteInv cfg (receiveTelemetry { s with nowNs := timeNs } timeNs p).1 := by
  unfold receiveTelemetry
  split
  · rename_i hmagic
    cases hconn : s.telConnected with
    | true => exact hI.keep rfl rfl hconn.symm (fun _ _ => rfl) (fun _ _ => rfl) fun _ => id
    | false =>
      refine ⟨nofun, hI.grip, fun a hp hr => ?_⟩
      obtain ⟨hheld, -, -, hstale, -, -⟩ := (State.ready_iff _ _ _).mp hr
      have hgrip := hI.grip a hp hstale
      refine ⟨fun i => ?_, ?_⟩
      · change ((s.targetQ a).get i).isFinite = true
        rw [hI.start hconn a]
        simp [zeroJoints, Vector.get_eq_getElem]
      · change (s.targetGrip a).isFinite = true
        rw [hgrip, gripTarget_finite_iff]
        exact hok hwet hmagic hconn a hp hheld
  · exact hI.keep rfl rfl rfl (fun _ _ => rfl) (fun _ _ => rfl) fun _ => id

/-- What an arm that follows has when it is ready. -/
theorem finite_follow {a : ArmSide} {env : Env} (hfollows : s.follows cfg a = true)
    (hfits : TargetFits cfg a (s.targetQ a) (s.loop.vrPkt.arm a).trigger env)
    (hnan : ((s.process cfg lib a env.solved env.q).1.targetQ a).any Double.isNan = false) :
    FiniteTargets (s.process cfg lib a env.solved env.q).1 a := by
  have hstale : s.loop.stale = false := by
    by_contra hnot
    simp [State.follows, hnot] at hfollows
  have hno : ∀ i, ((s.process cfg lib a env.solved env.q).1.targetQ a).get i ≠ .nan := fun i hi =>
    Bool.false_ne_true (hnan.symm.trans ((any_isNan_iff _).mpr ⟨i, hi⟩))
  unfold FiniteTargets
  rw [State.process_targetGrip, hstale]
  rw [State.process_targetQ, hstale, hfollows] at hno ⊢
  simp only [Bool.false_eq_true, if_false, if_true] at hno ⊢
  cases hsolved : env.solved with
  | true =>
    rw [hsolved, if_pos rfl] at hno
    rcases hfits.1 hsolved with ⟨i, hbad⟩ | ⟨hgrip, hall⟩
    · exact absurd ((limitTarget_get ..).trans (limitStep_nan_of hbad)) (hno i)
    · refine ⟨fun i => ?_, (gripTarget_finite_iff _).mpr hgrip⟩
      rw [if_pos rfl, limitTarget_get]
      exact limitStep_finite_iff.mpr (hall i)
  | false =>
    rw [hsolved, if_neg Bool.false_ne_true] at hno
    rcases hfits.2 hsolved with ⟨i, hbad⟩ | ⟨hgrip, hall⟩
    · exact absurd hbad (hno i)
    · exact ⟨hall, (gripTarget_finite_iff _).mpr hgrip⟩

theorem finiteInv_process (hwet : cfg.dryRun = false) (hI : FiniteInv cfg s) {a : ArmSide}
    (hpc : s.loop.pc = .process a) (env : Env) (hok : ReceivesFinite cfg s h (.loop env)) :
    FiniteInv cfg ((s.process cfg lib a env.solved env.q).1.goto (.afterProcess a)) := by
  have hk := s.process_kept cfg lib a env.solved env.q
  have hprocessed : ∀ b, (Pc.afterProcess a).processed b = true → b ≠ a →
      s.loop.pc.processed b = true := by
    intro b hp hne
    rw [hpc, ← Pc.processed_afterProcess_of_ne hne]
    exact hp
  refine ⟨fun htel b => ?_, fun b hp hfresh => ?_, fun b hp hr => ?_⟩
  · have htel' : s.telConnected = false := hk.telConnected.symm.trans htel
    change (s.process cfg lib a env.solved env.q).1.targetQ b = _
    by_cases hab : b = a
    · subst hab
      rw [State.process_targetQ, htel', hwet, hI.start htel' b]
      simp [State.follows, htel', hwet]
    · rw [hk.targetQ b hab]
      exact hI.start htel' b
  · have hstale : s.loop.stale = false := hk.stale.symm.trans hfresh
    change (s.process cfg lib a env.solved env.q).1.targetGrip b =
      gripTarget cfg ((s.process cfg lib a env.solved env.q).1.loop.vrPkt.arm b).trigger
    rw [hk.vrPkt]
    by_cases hab : b = a
    · subst hab
      rw [State.process_targetGrip, hstale]
      rfl
    · rw [hk.targetGrip b hab]
      exact hI.grip b (hprocessed b hp hab) hstale
  · have hr' : (s.process cfg lib a env.solved env.q).1.ready cfg b = true := hr
    change FiniteTargets (s.process cfg lib a env.solved env.q).1 b
    by_cases hab : b = a
    · subst hab
      obtain ⟨-, -, -, -, -, hfollows⟩ := State.process_ready hr'
      obtain ⟨-, -, -, -, -, hnan⟩ := (State.ready_iff _ _ _).mp hr'
      exact finite_follow hfollows (hok hwet b hpc hfollows) hnan
    · have hready := (s.process_ready_other cfg lib a env.solved env.q hab).symm.trans hr'
      unfold FiniteTargets
      rw [hk.targetQ b hab, hk.targetGrip b hab]
      exact hI.ready b (hprocessed b hp hab) hready

theorem finiteInv_loop (hwet : cfg.dryRun = false) (hI : FiniteInv cfg s) (env : Env)
    (hok : ReceivesFinite cfg s h (.loop env)) : FiniteInv cfg (loopStep cfg lib s env).1 := by
  have hidle : ∀ s', s'.targetQ = s.targetQ → s'.targetGrip = s.targetGrip →
      s'.telConnected = s.telConnected → (∀ a, s'.loop.pc.processed a = false) →
      FiniteInv cfg s' := by
    intro s' htarget hgrip htel hnone
    refine hI.keep htarget hgrip htel ?_ ?_ ?_ <;> intro a hp <;> rw [hnone a] at hp <;> cases hp
  unfold loopStep
  cases hpc : s.loop.pc with
  | head =>
    refine hidle _ rfl rfl rfl fun a => Pc.processed_idle ?_ a
    cases s.keepRunning <;> simp [Pc.working]
  | snapshotVr => exact hidle _ rfl rfl rfl fun a => Pc.processed_idle rfl a
  | snapshotTel => exact hidle _ rfl rfl rfl fun a => Pc.processed_first a
  | process a => exact finiteInv_process hwet hI hpc env hok
  | send a =>
    refine hI.keep rfl rfl rfl (fun _ _ => rfl) (fun _ _ => rfl) fun b hp => ?_
    by_cases hab : b = a
    · subst hab
      simp at hp
    · rw [hpc, ← Pc.processed_afterSend_of_ne hab]
      exact hp
  | tail => exact hidle _ rfl rfl rfl fun a => Pc.processed_idle rfl a
  | exited => exact hI

theorem finiteInv_step (hwet : cfg.dryRun = false) (hI : FiniteInv cfg s) {act : Action}
    {e : Option Event} (hok : ReceivesFinite cfg s h act)
    (hs : (machine cfg lib).step s act = some (s', e)) : FiniteInv cfg s' := by
  have hnow : ∀ timeNs, FiniteInv cfg { s with nowNs := timeNs } := fun _ =>
    hI.keep rfl rfl rfl (fun _ _ => rfl) (fun _ _ => rfl) fun _ => id
  rcases step_cases cfg lib hs with ⟨timeNs, p, rfl, hle, heq⟩ | ⟨timeNs, p, rfl, hle, heq⟩ |
    ⟨rfl, rfl, rfl⟩ | ⟨env, rfl, hle, heq⟩
  · rw [show s' = _ from congrArg Prod.fst heq]
    unfold receiveVr
    split <;> exact hI.keep rfl rfl rfl (fun _ _ => rfl) (fun _ _ => rfl) fun _ => id
  · rw [show s' = _ from congrArg Prod.fst heq]
    exact finiteInv_telemetry hwet hI timeNs p hok
  · exact hI.keep rfl rfl rfl (fun _ _ => rfl) (fun _ _ => rfl) fun _ => id
  · rw [show s' = _ from congrArg Prod.fst heq]
    exact finiteInv_loop hwet (hnow env.timeNs) (h := h) env hok

end Steps

/-- **An enabled packet is finite** when the numbers that come in fit wherever an arm follows. -/
theorem sends_finite [Rounding] (cfg : Config) (lib : Library) (s : State) (h : List Event)
    (hr : (machine cfg lib).RunWhere (ReceivesFinite cfg) s h) : Always SentFinite h := by
  cases hdry : cfg.dryRun with
  | true =>
    refine (dryRun_sent cfg lib hdry hr).mono fun e h he => ?_
    cases e with
    | sent a timeNs pkt => exact fun hen => absurd hen (he a timeNs pkt rfl)
    | _ => trivial
  | false =>
    refine (hr.always (I := fun s _ => FiniteInv cfg s) finiteInv_start ?_ ?_).2
    · intro s h act s' e hI hok hs
      exact finiteInv_step hdry hI hok hs
    · intro s h act s' e hI _ hs
      cases e with
      | sent a timeNs pkt =>
        obtain ⟨hpc, rfl⟩ := step_sent cfg lib hs
        intro hen
        have hprocessed : s.loop.pc.processed a = true := by simp [hpc]
        obtain ⟨harm, hgrip⟩ := hI.ready a hprocessed ((State.sendPkt_enable cfg s a).mp hen)
        refine ⟨fun i => ?_, by rwa [State.sendPkt_handPos]⟩
        rw [State.sendPkt_armPos]
        exact harm i
      | _ => trivial

section Runs

attribute [local instance] Rounding.exact

/-- The right trigger is pulled halfway while the grip is held. -/
theorem sends_finite_held :
    ∃ s h, (machine {} axis).RunWhere (ReceivesFinite {}) s h ∧ h.any (sendsRight 1) = true ∧
      Always SentFinite h := by
  obtain ⟨s, h, hr, hq⟩ := (machine {} axis).exists_runWhere (ReceivesFinite {})
    ([.telemetry 0 (telemetryPacket 0), .vr 0 (vrPacket (hand 0x3F800000 0x3F000000 0))] ++
      loops 6 0 true 0.25)
    (fun _ h => h.any (sendsRight 1) = true) (by decide +kernel)
  exact ⟨s, h, hr, hq, sends_finite {} axis s h hr⟩

/-- The right trigger is a NaN while the grip is held. -/
theorem sends_nan_grip :
    ∃ s h, (machine {} axis).Runs s h ∧ h.any (sendsRight 1) = true ∧ ¬ Always SentFinite h :=
  (machine {} axis).exists_violation SentFinite
    ([.telemetry 0 (telemetryPacket 0), .vr 0 (vrPacket (hand 0x3F800000 0x7FC00000 0))] ++
      loops 6 0 true 0)
    (fun _ h => h.any (sendsRight 1) = true) (by decide +kernel)

end Runs

end OpenArmTeleop.VrLeader
