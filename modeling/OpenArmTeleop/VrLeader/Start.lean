import OpenArmTeleop.VrLeader.Steps

/-!
# Where the VR leader starts

The target of an arm is set to the measured joints only while its grip is released.
-/

open Num Run OpenArmTeleop.Net

namespace OpenArmTeleop.VrLeader

attribute [local instance] Rounding.exact

/-! ## The first enabled packet -/

def Event.sent? (a : ArmSide) : Event → Option (TeleopPacket Double)
  | .sent b _ pkt => if b = a then some pkt else none
  | _ => none

def lastSent (a : ArmSide) (h : List Event) : Option (TeleopPacket Double) :=
  h.findSome? (Event.sent? a)

def LastEnabled (a : ArmSide) (h : List Event) : Prop := ∃ pkt ∈ lastSent a h, pkt.enable = 1

/-- The joint is at most the step away from what was measured. -/
def WithinStep (maxStep measured target : Double) : Prop :=
  target = measured ∨ (target - measured).abs ≤ maxStep

/-- An arm that becomes enabled starts near joints that telemetry brought. -/
def StartsMeasured (cfg : Config) : Event → List Event → Prop
  | .sent a _ pkt, h => pkt.enable = 1 → ¬ LastEnabled a h →
      ∃ c ∈ (cycles h).take 2, c.connected = true ∧
        ∀ i, WithinStep (cfg.maxStep a i) ((c.fb a).get i) (pkt.armPos.get i.castSucc)
  | _, _ => True

/-- The cycle has read telemetry that is not stale. -/
def Cycle.Fresh (c : Cycle) : Prop := c.connected = true ∧ c.stale = false

/-- A cycle with fresh telemetry that finds an arm held comes after another one with fresh
telemetry, and the first telemetry does not come between the snapshot of a held arm and its packet. -/
def StartsFresh (cfg : Config) (s : State) (h : List Event) : Action → Prop
  | .loop env => s.loop.pc = .snapshotTel → s.telConnected = true →
      (snapshotTel cfg s env.timeNs).loop.stale = false → cfg.dryRun = false →
      (∃ a, s.held a = true) → ∃ c ∈ (cycles h).head?, c.Fresh
  | .telemetry _ p => p.magic = telemetryMagic → s.telConnected = false → cfg.dryRun = false → ∀ a,
      (s.loop.pc.waiting a || s.loop.pc.processed a) = true → s.held a = false
  | _ => True

section Decide

variable (cfg : Config)

instance (a : ArmSide) (h : List Event) : Decidable (LastEnabled a h) :=
  inferInstanceAs (Decidable (∃ pkt ∈ lastSent a h, _))

instance (δ m t : Double) : Decidable (WithinStep δ m t) := inferInstanceAs (Decidable (_ ∨ _))

instance : ∀ e h, Decidable (StartsMeasured cfg e h)
  | .sent _ _ pkt, _ => inferInstanceAs (Decidable (pkt.enable = 1 → ¬ _ → _))
  | .vr .., _ | .telemetry _, _ | .cycle _, _ | .attempt .., _ => isTrue trivial

instance (c : Cycle) : Decidable c.Fresh := inferInstanceAs (Decidable (_ ∧ _))

instance (s : State) (h : List Event) (act : Action) : Decidable (StartsFresh cfg s h act) :=
  match act with
  | .loop _ => inferInstanceAs (Decidable (_ → _ → _ → _ → (∃ _, _) → _))
  | .telemetry .. => inferInstanceAs (Decidable (_ → _ → _ → ∀ _, _ → _))
  | .vr .. | .sigint => isTrue trivial

end Decide

/-! ## One joint -/

theorem limitStep_nan (maxStep qIk : Double) : limitStep true maxStep .nan qIk = .nan := rfl

theorem withinStep_add {x d δ : ℚ} (hd : |d| ≤ δ) :
    WithinStep (.fin δ) (.fin x) (.fin x + .fin d) := by
  refine .inr ?_
  rw [Double.exact_add, Double.exact_sub, Double.abs_fin, Double.fin_le_fin, add_sub_cancel_left]
  exact hd

/-- A limited step is no number, or stays within the limit. -/
theorem limitStep_within {maxStep : Double} (hstep : 0 ≤ maxStep) (target qIk : Double) :
    limitStep true maxStep target qIk = .nan ∨
      WithinStep maxStep target (limitStep true maxStep target qIk) := by
  cases target with
  | nan => exact .inl (limitStep_nan maxStep qIk)
  | inf n => exact (Double.inf_add_cases n _).imp id .inl
  | fin x =>
    unfold limitStep
    simp only [true_and]
    generalize qIk - .fin x = diff
    cases maxStep with
    | nan => exact absurd hstep (Double.not_le_nan 0)
    | inf n =>
      -- there is no limit
      have hn : n = false := by cases n <;> simp_all [Double.le_def, Double.le]
      subst hn
      rw [if_neg (Double.not_inf_lt _)]
      cases diff with
      | nan => exact .inl rfl
      | inf m => exact .inr (.inr ((Double.le_inf _).mpr (by rintro ⟨⟩)))
      | fin d => exact .inr (.inr ((Double.le_inf _).mpr (by rintro ⟨⟩)))
    | fin δ =>
      have hδ : 0 ≤ δ := by simpa using hstep
      split
      · refine .inr ?_
        split
        · have hsign : (1 : Double) * .fin δ = .fin δ := congrArg Double.fin (one_mul δ)
          rw [hsign]
          exact withinStep_add (abs_of_nonneg hδ).le
        · have hsign : (-1 : Double) * .fin δ = .fin (-δ) := congrArg Double.fin (neg_one_mul δ)
          rw [hsign]
          exact withinStep_add (by rw [abs_neg, abs_of_nonneg hδ])
      · rename_i hle
        cases diff with
        | nan => exact .inl rfl
        | inf m => exact absurd ((Double.fin_lt_inf δ false).mpr rfl) hle
        | fin d => exact .inr (withinStep_add (by simpa using hle))

/-! ## The invariant -/

/-- The cycles in which the arm has been processed. -/
def doneCycles (pc : Pc) (a : ArmSide) (h : List Event) : List Cycle :=
  if pc.waiting a then (cycles h).tail else cycles h

theorem doneCycles_nil (pc : Pc) (a : ArmSide) : doneCycles pc a [] = [] := by
  unfold doneCycles
  split <;> rfl

theorem doneCycles_done {pc : Pc} {a : ArmSide} (hpc : pc.waiting a = false) (h : List Event) :
    doneCycles pc a h = cycles h := by
  unfold doneCycles
  rw [hpc]
  rfl

/-- Where an arm comes from. -/
structure ArmStart (cfg : Config) (s : State) (h : List Event) (a : ArmSide) : Prop where
  released : ∀ c ∈ (doneCycles s.loop.pc a h).head?, c.Fresh → ¬ 0.5 < c.grip a →
    s.targetQ a = c.fb a
  held : s.loop.pc.processed a = false → ∀ c ∈ (doneCycles s.loop.pc a h).head?, c.Fresh →
    0.5 < c.grip a → LastEnabled a h ∨ (s.targetQ a).any Double.isNan = true
  near : s.loop.pc.processed a = true → s.ready cfg a = true → LastEnabled a h ∨
    ∃ c ∈ (cycles h).take 2, c.connected = true ∧
      ∀ i, WithinStep (cfg.maxStep a i) ((c.fb a).get i) ((s.targetQ a).get i)

/-- What the loop knows of its cycle. -/
structure CycleStart (c : Cycle) (old : List Cycle) (s : State) : Prop where
  same : Matches c s
  connected : c.connected = true → s.telConnected = true
  late : c.connected = false → s.telConnected = true → ∀ a,
    (s.loop.pc.waiting a || s.loop.pc.processed a) = true → s.held a = false
  follows : c.Fresh → ∀ a, s.held a = true → ∃ c' ∈ old.head?, c'.Fresh

structure StartInv (cfg : Config) (s : State) (h : List Event) : Prop where
  estop : s.vr.estop = false ∧ s.loop.vrPkt.estop = false
  cycle : s.loop.pc.working = true → ∃ c old, cycles h = c :: old ∧ CycleStart c old s
  arm : ∀ a, ArmStart cfg s h a

theorem startInv_start (cfg : Config) : StartInv cfg .start [] := by
  refine ⟨⟨rfl, rfl⟩, nofun, fun a => ⟨?_, ?_, ?_⟩⟩
  · intro c hc
    rw [doneCycles_nil] at hc
    cases hc
  · intro _ c hc
    rw [doneCycles_nil] at hc
    cases hc
  · intro hp
    rw [Pc.processed_idle rfl a] at hp
    cases hp

theorem lastSent_append (a : ArmSide) (e : Option Event) (h : List Event)
    (he : ∀ x, e = some x → x.sent? a = none) : lastSent a (e.toList ++ h) = lastSent a h := by
  refine append_eq_of_cons e fun x hx => ?_
  change List.findSome? (Event.sent? a) (x :: h) = _
  rw [List.findSome?_cons, he x hx]
  rfl

theorem sent?_none (a : ArmSide) (x : Event) (hx : none = some x) : x.sent? a = none :=
  absurd hx.symm (Option.some_ne_none x)

theorem sent?_some {e : Event} (he : ∀ a, e.sent? a = none) (a : ArmSide) (x : Event)
    (hx : some e = some x) : x.sent? a = none :=
  Option.some.inj hx ▸ he a

theorem State.process_sent? (cfg : Config) (lib : Library) (s : State) (a : ArmSide)
    (solved : Bool) (qIk : Joints) (b : ArmSide) (x : Event)
    (hx : (s.process cfg lib a solved qIk).2 = some x) : x.sent? b = none := by
  rw [process_event] at hx
  split at hx
  · exact sent?_some (fun _ => rfl) b x hx
  · cases hx

section Steps

variable {cfg : Config} {s s' : State} {h : List Event}

/-- An arm that is left alone keeps what it has. -/
theorem ArmStart.append {a : ArmSide} (hA : ArmStart cfg s h a) (e : Option Event)
    (hcycle : ∀ x, e = some x → x.cycle? = none) (hsent : ∀ x, e = some x → x.sent? a = none)
    (hwaiting : s'.loop.pc.waiting a = s.loop.pc.waiting a)
    (hprocessed : s'.loop.pc.processed a = s.loop.pc.processed a)
    (htarget : s'.targetQ a = s.targetQ a)
    (hready : s.loop.pc.processed a = true → s'.ready cfg a = true → s.ready cfg a = true) :
    ArmStart cfg s' (e.toList ++ h) a := by
  have hdone : doneCycles s'.loop.pc a (e.toList ++ h) = doneCycles s.loop.pc a h := by
    unfold doneCycles
    rw [hwaiting, cycles_append e h hcycle]
  have hlast : LastEnabled a (e.toList ++ h) ↔ LastEnabled a h := by
    unfold LastEnabled
    rw [lastSent_append a e h hsent]
  refine ⟨?_, ?_, ?_⟩
  · rw [hdone, htarget]
    exact hA.released
  · rw [hdone, htarget, hprocessed, hlast]
    exact hA.held
  · rw [hlast, htarget, hprocessed, cycles_append e h hcycle]
    exact fun hp hr => hA.near hp (hready hp hr)

/-- A step outside the loop and a step that only moves on leave the cycle alone. -/
theorem CycleStart.keep {c : Cycle} {old : List Cycle} (hC : CycleStart c old s)
    (hvr : s'.loop.vrPkt = s.loop.vrPkt) (hstale : s'.loop.stale = s.loop.stale)
    (hfb : s'.loop.fb = s.loop.fb) (htel : s'.telConnected = s.telConnected)
    (hpc : ∀ a, (s'.loop.pc.waiting a || s'.loop.pc.processed a) = true →
      (s.loop.pc.waiting a || s.loop.pc.processed a) = true) : CycleStart c old s' := by
  have hheld : ∀ a, s'.held a = s.held a := fun a => by simp only [State.held, hvr]
  refine ⟨hC.same.keep hvr hstale hfb, ?_, ?_, ?_⟩
  · rw [htel]
    exact hC.connected
  · intro hc ht a hp
    rw [hheld]
    exact hC.late hc (htel ▸ ht) a (hpc a hp)
  · intro hc a ha
    exact hC.follows hc a (hheld a ▸ ha)

/-- A step outside the loop that brings no first telemetry. -/
theorem StartInv.append (hI : StartInv cfg s h) (e : Option Event)
    (hcycle : ∀ x, e = some x → x.cycle? = none)
    (hsent : ∀ a x, e = some x → x.sent? a = none) (hestop : s'.vr.estop = false)
    (htel : s'.telConnected = s.telConnected) (htarget : s'.targetQ = s.targetQ)
    (hloop : s'.loop = s.loop) : StartInv cfg s' (e.toList ++ h) := by
  refine ⟨⟨hestop, ?_⟩, fun hworking => ?_, fun a => ?_⟩
  · rw [hloop]
    exact hI.estop.2
  · rw [hloop] at hworking
    obtain ⟨c, old, hc, hC⟩ := hI.cycle hworking
    refine ⟨c, old, (cycles_append e h hcycle).trans hc, ?_⟩
    apply hC.keep <;> simp [hloop, htel]
  · apply (hI.arm a).append e hcycle (hsent a)
    · rw [hloop]
    · rw [hloop]
    · rw [htarget]
    · intro _ hr
      rwa [State.ready_keep (by rw [hloop]) (by rw [hloop]) htel (by rw [htarget])] at hr

theorem startInv_vr (hI : StartInv cfg s h) (timeNs : ℕ) (p : VrRelativeTeleopPacketV2) :
    StartInv cfg (receiveVr cfg { s with nowNs := timeNs } timeNs p).1
      ((receiveVr cfg { s with nowNs := timeNs } timeNs p).2.toList ++ h) := by
  unfold receiveVr
  split
  · exact hI.append (some _) (cycle?_some rfl) (sent?_some fun _ => rfl) rfl rfl rfl rfl
  · exact hI.append none cycle?_none sent?_none hI.estop.1 rfl rfl rfl

/-- The first telemetry does not make an arm of the cycle ready. -/
theorem startInv_telemetry (hwet : cfg.dryRun = false) (hI : StartInv cfg s h) (timeNs : ℕ)
    (p : OpenArmTelemetryPacketV1) (hok : StartsFresh cfg s h (.telemetry timeNs p)) :
    StartInv cfg (receiveTelemetry { s with nowNs := timeNs } timeNs p).1
      ((receiveTelemetry { s with nowNs := timeNs } timeNs p).2.toList ++ h) := by
  unfold receiveTelemetry
  split
  · rename_i hmagic
    cases hconn : s.telConnected with
    | true =>
      exact hI.append (some _) (cycle?_some rfl) (sent?_some fun _ => rfl) hI.estop.1 hconn.symm rfl rfl
    | false =>
      have hlate := hok hmagic hconn hwet
      refine ⟨hI.estop, fun hworking => ?_, fun a => ?_⟩
      · obtain ⟨c, old, hc, hC⟩ := hI.cycle hworking
        exact ⟨c, old, hc, hC.same.keep rfl rfl rfl, fun _ => rfl, fun _ _ => hlate, hC.follows⟩
      · refine (hI.arm a).append (some _) (cycle?_some rfl) (sent?_some (fun _ => rfl) a) rfl rfl rfl ?_
        intro hp hr
        have hheld : s.held a = false := hlate a (by rw [hp, Bool.or_true])
        have hready := ((State.ready_iff _ _ _).mp hr).1
        exact absurd (hheld.symm.trans hready) Bool.false_ne_true
  · exact hI.append none cycle?_none sent?_none hI.estop.1 rfl rfl rfl

/-! ### The loop -/

/-- The loop goes from one place where nothing is in progress to another. -/
theorem startInv_idle (hI : StartInv cfg s h) (hbusy : s.loop.pc.working = false)
    (hestop : s'.vr.estop = false ∧ s'.loop.vrPkt.estop = false) (htarget : s'.targetQ = s.targetQ)
    (hpc : s'.loop.pc.working = false) : StartInv cfg s' h := by
  refine ⟨hestop, fun hworking => ?_, fun a => ?_⟩
  · rw [hpc] at hworking
    cases hworking
  · apply (hI.arm a).append none cycle?_none (sent?_none a)
    · rw [Pc.waiting_idle hpc, Pc.waiting_idle hbusy]
    · rw [Pc.processed_idle hpc, Pc.processed_idle hbusy]
    · rw [htarget]
    · intro hp
      rw [Pc.processed_idle hbusy] at hp
      cases hp

/-- A new cycle comes after the one that the arms have been processed in. -/
theorem startInv_snapshotTel (hwet : cfg.dryRun = false) (hI : StartInv cfg s h)
    (hpc : s.loop.pc = .snapshotTel) (env : Env) (hok : StartsFresh cfg s h (.loop env)) :
    StartInv cfg ((snapshotTel cfg s env.timeNs).goto (.process .right))
      (.cycle ((snapshotTel cfg s env.timeNs).cycle env.timeNs) :: h) := by
  refine ⟨hI.estop, fun _ => ⟨_, _, rfl, ⟨rfl, rfl, fun _ => rfl, rfl⟩, id, ?_, ?_⟩, fun a => ?_⟩
  · intro hc ht
    exact absurd (hc.symm.trans ht) Bool.false_ne_true
  · rintro ⟨hconn, hstale⟩ a ha
    exact hok hpc hconn hstale hwet ⟨a, ha⟩
  · have hidle : s.loop.pc.working = false := by
      rw [hpc]
      rfl
    have hdone : doneCycles s.loop.pc a h = cycles h := doneCycles_done (Pc.waiting_idle hidle a) h
    have hnext : ∀ c, doneCycles (.process .right) a (.cycle c :: h) = cycles h := fun c =>
      if_pos (Pc.waiting_first a)
    obtain ⟨hreleased, hheld, -⟩ := hI.arm a
    rw [hdone] at hreleased hheld
    refine ⟨?_, fun _ => ?_, fun hp => ?_⟩
    · rw [State.goto_pc, hnext]
      exact hreleased
    · rw [State.goto_pc, hnext]
      exact hheld (Pc.processed_idle hidle a)
    · simp at hp

/-- After its packet an arm that was held with fresh telemetry is enabled, or its target is no
number. -/
theorem ArmStart.send {a : ArmSide} {c : Cycle} {old : List Cycle} (hwet : cfg.dryRun = false)
    (hestop : s.loop.vrPkt.estop = false) (hc : cycles h = c :: old) (hC : CycleStart c old s)
    (hA : ArmStart cfg s h a) (hpc : s.loop.pc = .send a) (timeNs : ℕ) :
    ArmStart cfg (s.goto (.afterSend a)) (.sent a timeNs (s.sendPkt cfg a) :: h) a := by
  have hdone : doneCycles s.loop.pc a h = cycles h := doneCycles_done (by simp [hpc]) h
  have hdone' : ∀ h, doneCycles (Pc.afterSend a) a h = cycles h :=
    doneCycles_done (Pc.waiting_afterSend a a)
  have hcycles : cycles (.sent a timeNs (s.sendPkt cfg a) :: h) = cycles h := rfl
  refine ⟨?_, fun _ c' hc' hfresh hheld => ?_, fun hp => ?_⟩
  · have hreleased := hA.released
    rw [hdone] at hreleased
    simp only [State.goto, hdone', hcycles]
    exact hreleased
  · simp only [State.goto, hdone', hcycles, hc, List.head?_cons, Option.mem_some_iff] at hc'
    subst hc'
    cases hnan : (s.targetQ a).any Double.isNan with
    | true => exact .inr hnan
    | false =>
      refine .inl ⟨s.sendPkt cfg a, by simp [lastSent, Event.sent?], ?_⟩
      rw [State.sendPkt_enable, State.ready_iff]
      refine ⟨?_, hC.connected hfresh.1, hestop, hC.same.stale ▸ hfresh.2, hwet, hnan⟩
      rw [State.held, ← hC.same.grip]
      exact decide_eq_true hheld
  · simp at hp

theorem startInv_send (hwet : cfg.dryRun = false) (hI : StartInv cfg s h) {a : ArmSide}
    (hpc : s.loop.pc = .send a) (timeNs : ℕ) :
    StartInv cfg (s.goto (.afterSend a)) (.sent a timeNs (s.sendPkt cfg a) :: h) := by
  obtain ⟨c, old, hc, hC⟩ := hI.cycle (by rw [hpc]; rfl)
  refine ⟨hI.estop, fun _ => ⟨c, old, hc, ?_⟩, fun b => ?_⟩
  · refine hC.keep rfl rfl rfl rfl fun b hp => ?_
    by_cases hab : b = a
    · subst hab
      simp at hp
    · rw [State.goto_pc, Pc.waiting_afterSend, Pc.processed_afterSend_of_ne hab] at hp
      rwa [hpc, Pc.waiting_send]
  · by_cases hab : b = a
    · subst hab
      exact (hI.arm b).send hwet hI.estop.2 hc hC hpc timeNs
    · refine (hI.arm b).append (some _) (cycle?_some rfl) ?_ ?_ ?_ rfl fun _ => id
      · rintro x hx
        obtain rfl := Option.some.inj hx
        exact if_neg (Ne.symm hab)
      · simp [hpc]
      · rw [hpc]
        exact Pc.processed_afterSend_of_ne hab

variable {lib : Library}

/-- A target that is no number stays so while the arm follows. -/
theorem limitTarget_nan {a : ArmSide} {target qIk : Joints} (hlimited : cfg.rateLimited = true)
    (hnan : target.any Double.isNan = true) :
    (limitTarget cfg a target qIk).any Double.isNan = true := by
  obtain ⟨i, hi⟩ := (any_isNan_iff _).mp hnan
  refine (any_isNan_iff _).mpr ⟨i, ?_⟩
  rw [limitTarget_get, hi, hlimited]
  exact limitStep_nan _ _

theorem limitTarget_within {a : ArmSide} {target qIk : Joints} (hlimited : cfg.rateLimited = true)
    (hstep : ∀ i, 0 ≤ cfg.maxStep a i)
    (hnan : (limitTarget cfg a target qIk).any Double.isNan = false) (i : Fin 7) :
    WithinStep (cfg.maxStep a i) (target.get i) ((limitTarget cfg a target qIk).get i) := by
  have hno : (limitTarget cfg a target qIk).get i ≠ .nan := fun hi =>
    Bool.false_ne_true (hnan.symm.trans ((any_isNan_iff _).mpr ⟨i, hi⟩))
  rw [limitTarget_get, hlimited] at hno ⊢
  exact (limitStep_within (hstep i) _ _).resolve_left hno

/-- An arm that is ready after it has been processed was enabled before, or starts near what the
cycle before has measured. -/
theorem ArmStart.near_process {a : ArmSide} {c : Cycle} {old : List Cycle}
    (hlimited : cfg.rateLimited = true) (hstep : ∀ i, 0 ≤ cfg.maxStep a i)
    (hc : cycles h = c :: old) (hC : CycleStart c old s) (hA : ArmStart cfg s h a)
    (hpc : s.loop.pc = .process a) {solved : Bool} {qIk : Joints}
    (hr : (s.process cfg lib a solved qIk).1.ready cfg a = true) :
    LastEnabled a h ∨ ∃ c ∈ (cycles h).take 2, c.connected = true ∧ ∀ i : Fin 7,
      WithinStep (cfg.maxStep a i) ((c.fb a).get i)
        (((s.process cfg lib a solved qIk).1.targetQ a).get i) := by
  obtain ⟨hheld, htel, -, hstale, -, hfollows⟩ := State.process_ready hr
  obtain ⟨-, -, -, -, -, hnan⟩ := (State.ready_iff _ _ _).mp hr
  have hwaiting : s.loop.pc.waiting a = true := by simp [hpc]
  -- the first telemetry has not come after the snapshot
  have hconn : c.connected = true := by
    by_contra hnot
    have hlate := hC.late (by simpa using hnot) htel a (by rw [hwaiting, Bool.true_or])
    exact absurd (hlate.symm.trans hheld) Bool.false_ne_true
  obtain ⟨c', hc', hfresh⟩ := hC.follows ⟨hconn, hC.same.stale.trans hstale⟩ a hheld
  have hdone : c' ∈ (doneCycles s.loop.pc a h).head? := by
    unfold doneCycles
    rw [if_pos hwaiting, hc]
    exact hc'
  rw [State.process_targetQ, hstale, hfollows] at hnan ⊢
  simp only [Bool.false_eq_true, if_false, if_true] at hnan ⊢
  have hprocessed : s.loop.pc.processed a = false := by simp [hpc]
  by_cases hgrip : 0.5 < c'.grip a
  · rcases hA.held hprocessed c' hdone hfresh hgrip with hlast | hbad
    · exact .inl hlast
    · split at hnan
      · rw [limitTarget_nan hlimited hbad] at hnan
        cases hnan
      · rw [hbad] at hnan
        cases hnan
  · have htarget := hA.released c' hdone hfresh hgrip
    refine .inr ⟨c', ?_, hfresh.1, fun i => ?_⟩
    · obtain ⟨rest, rfl⟩ := List.head?_eq_some_iff.mp hc'
      simp [hc]
    · rw [← htarget]
      split
      · rename_i hsolved
        rw [if_pos hsolved] at hnan
        exact limitTarget_within hlimited hstep hnan i
      · exact .inl rfl

theorem ArmStart.process {a : ArmSide} {c : Cycle} {old : List Cycle}
    (hlimited : cfg.rateLimited = true) (hstep : ∀ i, 0 ≤ cfg.maxStep a i)
    (hc : cycles h = c :: old) (hC : CycleStart c old s) (hA : ArmStart cfg s h a)
    (hpc : s.loop.pc = .process a) {solved : Bool} {qIk : Joints} :
    ArmStart cfg ((s.process cfg lib a solved qIk).1.goto (.afterProcess a))
      ((s.process cfg lib a solved qIk).2.toList ++ h) a := by
  have hcycles := cycles_append _ h (s.process_cycle? cfg lib a solved qIk)
  have hlast : lastSent a ((s.process cfg lib a solved qIk).2.toList ++ h) = lastSent a h :=
    lastSent_append a _ h (s.process_sent? cfg lib a solved qIk a)
  have hdone : ∀ h, doneCycles (Pc.afterProcess a) a h = cycles h :=
    doneCycles_done (Pc.waiting_afterProcess a)
  refine ⟨fun c' hc' hfresh hreleased => ?_, fun hp => ?_, fun _ hr => ?_⟩
  · simp only [State.goto, hdone, hcycles, hc, List.head?_cons, Option.mem_some_iff] at hc'
    subst hc'
    have hheld : s.held a = false := by
      rw [State.held, ← hC.same.grip]
      exact decide_eq_false hreleased
    have hstale : s.loop.stale = false := hC.same.stale ▸ hfresh.2
    change (s.process cfg lib a solved qIk).1.targetQ a = _
    rw [State.process_targetQ, hstale, hC.same.fb]
    simp [State.follows, hheld, hC.connected hfresh.1]
  · simp at hp
  · have hnear := hA.near_process hlimited hstep hc hC hpc hr
    unfold LastEnabled at hnear ⊢
    rw [hlast, hcycles]
    exact hnear

theorem startInv_process (hlimited : cfg.rateLimited = true)
    (hstep : ∀ a i, 0 ≤ cfg.maxStep a i) (hI : StartInv cfg s h) {a : ArmSide}
    (hpc : s.loop.pc = .process a) {solved : Bool} {qIk : Joints} :
    StartInv cfg ((s.process cfg lib a solved qIk).1.goto (.afterProcess a))
      ((s.process cfg lib a solved qIk).2.toList ++ h) := by
  have hk := s.process_kept cfg lib a solved qIk
  have hcycles := cycles_append _ h (s.process_cycle? cfg lib a solved qIk)
  obtain ⟨c, old, hc, hC⟩ := hI.cycle (by rw [hpc]; rfl)
  refine ⟨⟨?_, ?_⟩, fun _ => ⟨c, old, hcycles.trans hc, ?_⟩, fun b => ?_⟩
  · exact (congrArg VrState.estop hk.vr).trans hI.estop.1
  · exact (congrArg VrState.estop hk.vrPkt).trans hI.estop.2
  · refine hC.keep hk.vrPkt hk.stale hk.fb hk.telConnected fun b hp => ?_
    by_cases hab : b = a
    · simp [hab, hpc]
    · rw [State.goto_pc, Pc.waiting_afterProcess_of_ne hab, Pc.processed_afterProcess_of_ne hab] at hp
      rwa [hpc]
  · by_cases hab : b = a
    · subst hab
      exact (hI.arm b).process hlimited (hstep b) hc hC hpc
    · refine (hI.arm b).append _ (s.process_cycle? cfg lib a solved qIk)
        (s.process_sent? cfg lib a solved qIk b) ?_ ?_ (hk.targetQ b hab) fun _ hr => ?_
      · rw [hpc]
        exact Pc.waiting_afterProcess_of_ne hab
      · rw [hpc]
        exact Pc.processed_afterProcess_of_ne hab
      · exact (s.process_ready_other cfg lib a solved qIk hab).symm.trans hr

theorem startInv_loop (hwet : cfg.dryRun = false) (hlimited : cfg.rateLimited = true)
    (hstep : ∀ a i, 0 ≤ cfg.maxStep a i) (hI : StartInv cfg s h) (env : Env)
    (hok : StartsFresh cfg s h (.loop env)) :
    StartInv cfg (loopStep cfg lib s env).1 ((loopStep cfg lib s env).2.toList ++ h) := by
  unfold loopStep
  cases hpc : s.loop.pc with
  | head =>
    refine startInv_idle hI (by rw [hpc]; rfl) hI.estop rfl ?_
    cases s.keepRunning <;> simp [Pc.working]
  | snapshotVr =>
    exact startInv_idle hI (by rw [hpc]; rfl) ⟨hI.estop.1, hI.estop.1⟩ rfl rfl
  | snapshotTel => exact startInv_snapshotTel hwet hI hpc env hok
  | process a => exact startInv_process hlimited hstep hI hpc
  | send a => exact startInv_send hwet hI hpc env.timeNs
  | tail => exact startInv_idle hI (by rw [hpc]; rfl) hI.estop rfl rfl
  | exited => exact startInv_idle hI (by rw [hpc]; rfl) hI.estop rfl (by rw [hpc]; rfl)

theorem startInv_step (hwet : cfg.dryRun = false) (hlimited : cfg.rateLimited = true)
    (hstep : ∀ a i, 0 ≤ cfg.maxStep a i) (hI : StartInv cfg s h) {act : Action}
    {e : Option Event} (hok : StartsFresh cfg s h act)
    (hs : (machine cfg lib).step s act = some (s', e)) : StartInv cfg s' (e.toList ++ h) := by
  rcases step_cases cfg lib hs with ⟨timeNs, p, rfl, hle, heq⟩ | ⟨timeNs, p, rfl, hle, heq⟩ |
    ⟨rfl, rfl, rfl⟩ | ⟨env, rfl, hle, heq⟩
  · obtain ⟨rfl, rfl⟩ := Prod.mk.inj heq
    exact startInv_vr hI timeNs p
  · obtain ⟨rfl, rfl⟩ := Prod.mk.inj heq
    exact startInv_telemetry hwet hI timeNs p hok
  · exact hI.append none cycle?_none sent?_none hI.estop.1 rfl rfl rfl
  · obtain ⟨rfl, rfl⟩ := Prod.mk.inj heq
    have hadvanced : StartInv cfg { s with nowNs := env.timeNs } h :=
      hI.append none cycle?_none sent?_none hI.estop.1 rfl rfl rfl
    exact startInv_loop hwet hlimited hstep hadvanced env hok

end Steps

end OpenArmTeleop.VrLeader
