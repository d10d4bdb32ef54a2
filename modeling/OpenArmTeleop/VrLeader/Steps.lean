import OpenArmTeleop.VrLeader.Machine

/-!
# What one step of the VR leader can do
-/

open Num Run OpenArmTeleop.Net

namespace OpenArmTeleop.VrLeader

/-! ## Histories -/

def Event.cycle? : Event → Option Cycle
  | .cycle c => some c
  | _ => none

def Event.isCycle (e : Event) : Bool := e.cycle?.isSome

/-- The cycles of a history, newest first. -/
def cycles (h : List Event) : List Cycle := h.filterMap Event.cycle?

theorem cycles_append (e : Option Event) (h : List Event) (he : ∀ x, e = some x → x.cycle? = none) :
    cycles (e.toList ++ h) = cycles h :=
  append_eq_of_cons e fun x hx => List.filterMap_cons_none (he x hx)

theorem cycle?_none (x : Event) (hx : none = some x) : x.cycle? = none :=
  absurd hx.symm (Option.some_ne_none x)

theorem cycle?_some {e : Event} (he : e.cycle? = none) (x : Event) (hx : some e = some x) :
    x.cycle? = none :=
  Option.some.inj hx ▸ he

@[simp] theorem cycles_cycle (c : Cycle) (h : List Event) : cycles (.cycle c :: h) = c :: cycles h :=
  rfl

/-- The cycle record says what the loop has read. -/
structure Matches (c : Cycle) (s : State) : Prop where
  stale : c.stale = s.loop.stale
  estop : c.estop = s.loop.vrPkt.estop
  grip : ∀ a, c.grip a = (s.loop.vrPkt.arm a).grip
  fb : c.fb = s.loop.fb

theorem Matches.keep {c : Cycle} {s s' : State} (hm : Matches c s)
    (hvr : s'.loop.vrPkt = s.loop.vrPkt) (hstale : s'.loop.stale = s.loop.stale)
    (hfb : s'.loop.fb = s.loop.fb) : Matches c s' := by
  refine ⟨hm.stale.trans hstale.symm, ?_, fun a => ?_, hm.fb.trans hfb.symm⟩
  · rw [hvr]
    exact hm.estop
  · rw [hvr]
    exact hm.grip a

/-! ## Where the loop is -/

/-- The arm is still to be processed in this cycle. -/
def Pc.waiting (pc : Pc) (a : ArmSide) : Bool :=
  match a with
  | .right => pc = .process .right
  | .left => pc = .process .right ∨ pc = .process .left

/-- The arm has been processed, and its packet is still to be sent. -/
def Pc.processed (pc : Pc) (a : ArmSide) : Bool :=
  match a with
  | .right => pc = .process .left ∨ pc = .send .right
  | .left => pc = .send .right ∨ pc = .send .left

/-- The loop works on what it has read. -/
def Pc.working (pc : Pc) : Bool :=
  match pc with
  | .process _ | .send _ => true
  | _ => false

theorem Pc.working_of_waiting {pc : Pc} {a : ArmSide} (h : pc.waiting a = true) :
    pc.working = true := by
  cases a <;> simp only [waiting, decide_eq_true_eq] at h
  · rw [h]
    rfl
  · rcases h with rfl | rfl <;> rfl

theorem Pc.working_of_processed {pc : Pc} {a : ArmSide} (h : pc.processed a = true) :
    pc.working = true := by
  cases a <;> simp only [processed, decide_eq_true_eq] at h <;> rcases h with rfl | rfl <;> rfl

theorem Pc.waiting_idle {pc : Pc} (h : pc.working = false) (a : ArmSide) : pc.waiting a = false := by
  by_contra hnot
  simp [working_of_waiting (by simpa using hnot)] at h

theorem Pc.processed_idle {pc : Pc} (h : pc.working = false) (a : ArmSide) :
    pc.processed a = false := by
  by_contra hnot
  simp [working_of_processed (by simpa using hnot)] at h

@[simp] theorem State.goto_pc (s : State) (pc : Pc) : (s.goto pc).loop.pc = pc := rfl

/-! The arm whose turn it is. -/

@[simp] theorem Pc.waiting_process (a : ArmSide) : (Pc.process a).waiting a = true := by
  cases a <;> rfl

@[simp] theorem Pc.processed_process (a : ArmSide) : (Pc.process a).processed a = false := by
  cases a <;> rfl

@[simp] theorem Pc.waiting_afterProcess (a : ArmSide) : (Pc.afterProcess a).waiting a = false := by
  cases a <;> rfl

@[simp] theorem Pc.processed_afterProcess (a : ArmSide) : (Pc.afterProcess a).processed a = true := by
  cases a <;> rfl

@[simp] theorem Pc.waiting_send (a b : ArmSide) : (Pc.send a).waiting b = false := by
  cases b <;> simp [waiting]

@[simp] theorem Pc.processed_send (a : ArmSide) : (Pc.send a).processed a = true := by
  cases a <;> rfl

@[simp] theorem Pc.waiting_afterSend (a b : ArmSide) : (Pc.afterSend a).waiting b = false := by
  cases a <;> cases b <;> rfl

@[simp] theorem Pc.processed_afterSend (a : ArmSide) : (Pc.afterSend a).processed a = false := by
  cases a <;> rfl

/-! A cycle begins with both arms. -/

@[simp] theorem Pc.waiting_first (a : ArmSide) : (Pc.process .right).waiting a = true := by
  cases a <;> rfl

@[simp] theorem Pc.processed_first (a : ArmSide) : (Pc.process .right).processed a = false := by
  cases a <;> rfl

/-! The other arm stays where it is. -/

theorem Pc.waiting_afterProcess_of_ne {a b : ArmSide} (hb : b ≠ a) :
    (Pc.afterProcess a).waiting b = (Pc.process a).waiting b := by
  cases a <;> cases b <;> first | rfl | exact absurd rfl hb

theorem Pc.processed_afterProcess_of_ne {a b : ArmSide} (hb : b ≠ a) :
    (Pc.afterProcess a).processed b = (Pc.process a).processed b := by
  cases a <;> cases b <;> first | rfl | exact absurd rfl hb

theorem Pc.processed_afterSend_of_ne {a b : ArmSide} (hb : b ≠ a) :
    (Pc.afterSend a).processed b = (Pc.send a).processed b := by
  cases a <;> cases b <;> first | rfl | exact absurd rfl hb

/-! ## Joints -/

/-- The step limit of a joint. -/
def Config.maxStep (cfg : Config) (a : ArmSide) (i : Fin 7) : Double :=
  (cfg.maxStepRad a).get i.castSucc

theorem limitTarget_get [Rounding] (cfg : Config) (a : ArmSide) (target qIk : Joints) (i : Fin 7) :
    (limitTarget cfg a target qIk).get i =
      limitStep cfg.rateLimited (cfg.maxStep a i) (target.get i) (qIk.get i) := by
  simp [limitTarget, Config.maxStep, Vector.get_eq_getElem]

theorem any_isNan_iff (q : Joints) : q.any Double.isNan = true ↔ ∃ i, q.get i = .nan := by
  have hnan : ∀ x : Double, x.isNan = true ↔ x = .nan := by
    intro x
    cases x <;> simp [Double.isNan]
  rw [Vector.any_eq_true]
  constructor
  · rintro ⟨i, hi, h⟩
    exact ⟨⟨i, hi⟩, (hnan _).mp h⟩
  · rintro ⟨i, h⟩
    exact ⟨i, i.isLt, (hnan _).mpr h⟩

/-! ## Enabled packets -/

namespace State

/-- A packet sent for the arm now would be enabled. -/
def ready (cfg : Config) (s : State) (a : ArmSide) : Bool :=
  s.held a && s.telConnected && !s.loop.vrPkt.estop && !s.loop.stale && !cfg.dryRun &&
    !(s.targetQ a).any Double.isNan

theorem sendPkt_enable (cfg : Config) (s : State) (a : ArmSide) :
    (s.sendPkt cfg a).enable = 1 ↔ s.ready cfg a = true := by
  unfold sendPkt ready
  cases cfg.dryRun <;> cases (s.targetQ a).any Double.isNan <;> simp [and_assoc]

theorem ready_iff (cfg : Config) (s : State) (a : ArmSide) :
    s.ready cfg a = true ↔ s.held a = true ∧ s.telConnected = true ∧
      s.loop.vrPkt.estop = false ∧ s.loop.stale = false ∧ cfg.dryRun = false ∧
      (s.targetQ a).any Double.isNan = false := by
  simp [ready, and_assoc]

theorem ready_keep {cfg : Config} {s s' : State} {a : ArmSide} (hvr : s'.loop.vrPkt = s.loop.vrPkt)
    (hstale : s'.loop.stale = s.loop.stale) (htel : s'.telConnected = s.telConnected)
    (htarget : s'.targetQ a = s.targetQ a) : s'.ready cfg a = s.ready cfg a := by
  simp only [ready, held, hvr, hstale, htel, htarget]

theorem sendPkt_armPos (cfg : Config) (s : State) (a : ArmSide) (i : Fin 7) :
    (s.sendPkt cfg a).armPos.get i.castSucc = (s.targetQ a).get i := by
  simp [sendPkt, Vector.get_eq_getElem]

theorem sendPkt_handPos (cfg : Config) (s : State) (a : ArmSide) :
    (s.sendPkt cfg a).handPos.get 0 = s.targetGrip a := by
  simp [sendPkt, Vector.get_eq_getElem]

/-- The arm follows the controller. -/
def follows (cfg : Config) (s : State) (a : ArmSide) : Bool :=
  !s.loop.stale && s.held a && (s.telConnected || cfg.dryRun)

theorem follows_of_ready {cfg : Config} {s : State} {a : ArmSide} (h : s.ready cfg a = true) :
    s.follows cfg a = true := by
  obtain ⟨hheld, htel, -, hstale, -, -⟩ := (ready_iff cfg s a).mp h
  simp [follows, hheld, htel, hstale]

end State

section Machine

variable [Rounding]

namespace State

/-! ## One arm -/

/-- What `process_arm_logic` leaves alone. -/
structure Kept (a : ArmSide) (s s' : State) : Prop where
  nowNs : s'.nowNs = s.nowNs
  vr : s'.vr = s.vr
  telConnected : s'.telConnected = s.telConnected
  lastTelNs : s'.lastTelNs = s.lastTelNs
  pc : s'.loop.pc = s.loop.pc
  vrPkt : s'.loop.vrPkt = s.loop.vrPkt
  fb : s'.loop.fb = s.loop.fb
  stale : s'.loop.stale = s.loop.stale
  targetQ : ∀ b, b ≠ a → s'.targetQ b = s.targetQ b
  targetGrip : ∀ b, b ≠ a → s'.targetGrip b = s.targetGrip b

variable (cfg : Config) (lib : Library) (s : State) (a : ArmSide) (solved : Bool) (qIk : Joints)

def withGrip : State :=
  { s with
    targetGrip :=
      Function.update s.targetGrip a (gripTarget cfg (s.loop.vrPkt.arm a).trigger) }

theorem process_stale (h : s.loop.stale = true) :
    s.process cfg lib a solved qIk =
      ({ s with loop := { s.loop with ikSuccess := Function.update s.loop.ikSuccess a false } },
        none) := by
  unfold process
  rw [if_pos h]

theorem process_follow (h : s.follows cfg a = true) :
    s.process cfg lib a solved qIk = (s.withGrip cfg a).follow cfg lib a solved qIk := by
  unfold process
  simp only [follows, Bool.and_eq_true, Bool.not_eq_true', and_assoc] at h
  rw [if_neg (by simp [h.1])]
  have hcond : (s.held a && (s.telConnected || cfg.dryRun)) = true := by simpa using h.2
  exact if_pos hcond

theorem process_release (hstale : s.loop.stale = false) (h : s.follows cfg a = false) :
    s.process cfg lib a solved qIk =
      ((s.withGrip cfg a).release a (s.telConnected || cfg.dryRun), none) := by
  unfold process
  rw [if_neg (by simp [hstale])]
  have hcond : ¬ (s.held a && (s.telConnected || cfg.dryRun)) = true := by
    simpa [follows, hstale] using h
  exact if_neg hcond

theorem process_kept : Kept a s (s.process cfg lib a solved qIk).1 := by
  cases hstale : s.loop.stale with
  | true =>
    rw [process_stale _ _ _ _ _ _ hstale]
    exact ⟨rfl, rfl, rfl, rfl, rfl, rfl, rfl, rfl, fun _ _ => rfl, fun _ _ => rfl⟩
  | false =>
    cases hfollows : s.follows cfg a with
    | true =>
      rw [process_follow _ _ _ _ _ _ hfollows]
      unfold follow
      split <;> refine ⟨rfl, rfl, rfl, rfl, rfl, rfl, rfl, rfl, fun b hb => ?_, fun b hb => ?_⟩ <;>
        simp [withGrip, Function.update_of_ne hb]
    | false =>
      rw [process_release _ _ _ _ _ _ hstale hfollows]
      unfold release
      refine ⟨rfl, rfl, rfl, rfl, rfl, rfl, rfl, rfl, fun b hb => ?_, fun b hb => ?_⟩
      · simp only
        split <;> simp [withGrip, Function.update_of_ne hb]
      · simp [withGrip, Function.update_of_ne hb]

/-- Where the target of the arm comes from. -/
theorem process_targetQ :
    (s.process cfg lib a solved qIk).1.targetQ a =
      if s.loop.stale then s.targetQ a
      else if s.follows cfg a then
        if solved then limitTarget cfg a (s.targetQ a) qIk else s.targetQ a
      else if s.telConnected || cfg.dryRun then s.loop.fb a
      else s.targetQ a := by
  cases hstale : s.loop.stale with
  | true => rw [process_stale _ _ _ _ _ _ hstale, if_pos rfl]
  | false =>
    rw [if_neg Bool.false_ne_true]
    cases hfollows : s.follows cfg a with
    | true =>
      rw [process_follow _ _ _ _ _ _ hfollows, if_pos rfl]
      unfold follow
      split
      · simp [withGrip]
      · rfl
    | false =>
      rw [process_release _ _ _ _ _ _ hstale hfollows, if_neg Bool.false_ne_true]
      unfold release
      simp only
      split
      · simp [withGrip]
      · rfl

theorem process_targetGrip :
    (s.process cfg lib a solved qIk).1.targetGrip a =
      if s.loop.stale then s.targetGrip a
      else gripTarget cfg (s.loop.vrPkt.arm a).trigger := by
  cases hstale : s.loop.stale with
  | true => rw [process_stale _ _ _ _ _ _ hstale, if_pos rfl]
  | false =>
    rw [if_neg Bool.false_ne_true]
    cases hfollows : s.follows cfg a with
    | true =>
      rw [process_follow _ _ _ _ _ _ hfollows]
      unfold follow
      split <;> simp [withGrip]
    | false =>
      rw [process_release _ _ _ _ _ _ hstale hfollows]
      simp [release, withGrip]

/-- An arm that is ready when it has been processed has followed. -/
theorem process_ready {cfg : Config} {lib : Library} {s : State} {a : ArmSide} {solved : Bool}
    {qIk : Joints} (hr : (s.process cfg lib a solved qIk).1.ready cfg a = true) :
    s.held a = true ∧ s.telConnected = true ∧ s.loop.vrPkt.estop = false ∧ s.loop.stale = false ∧
      cfg.dryRun = false ∧ s.follows cfg a = true := by
  have hk := s.process_kept cfg lib a solved qIk
  obtain ⟨hheld, htel, hestop, hstale, hwet, -⟩ := (ready_iff _ _ _).mp hr
  simp only [held, hk.vrPkt] at hheld
  rw [hk.telConnected] at htel
  rw [hk.vrPkt] at hestop
  rw [hk.stale] at hstale
  have hfollows : s.follows cfg a = true := by simp [follows, held, hheld, htel, hstale]
  exact ⟨hheld, htel, hestop, hstale, hwet, hfollows⟩

theorem process_ready_other {b : ArmSide} (hb : b ≠ a) :
    (s.process cfg lib a solved qIk).1.ready cfg b = s.ready cfg b := by
  have hk := s.process_kept cfg lib a solved qIk
  exact ready_keep hk.vrPkt hk.stale hk.telConnected (hk.targetQ b hb)

/-- An arm that follows captures its anchor. -/
def captures : Bool := s.follows cfg a && (!(s.anchor a).active || s.loop.vrPkt.recenter)

/-- The solver is called exactly for an arm that follows. -/
theorem process_event :
    (s.process cfg lib a solved qIk).2 =
      if s.follows cfg a then
        let measured := lib.fk a (s.loop.fb a)
        let anchor := if s.captures cfg a then measured else (s.anchor a).robotEePos
        some (.attempt a ⟨s.captures cfg a, measured,
          anchor + clampDelta cfg lib (s.loop.vrPkt.arm a).deltaPosRobot, solved, qIk⟩)
      else none := by
  cases hstale : s.loop.stale with
  | true =>
    have hfollows : s.follows cfg a = false := by simp [follows, hstale]
    rw [process_stale _ _ _ _ _ _ hstale, hfollows, if_neg Bool.false_ne_true]
  | false =>
    cases hfollows : s.follows cfg a with
    | true =>
      rw [process_follow _ _ _ _ _ _ hfollows, if_pos rfl]
      simp only [follow, captures, hfollows, Bool.true_and]
      cases hcaptures : (!(s.anchor a).active || s.loop.vrPkt.recenter) <;>
        simp [withGrip, hcaptures]
    | false =>
      rw [process_release _ _ _ _ _ _ hstale hfollows, if_neg Bool.false_ne_true]

theorem process_cycle? (x : Event) (hx : (s.process cfg lib a solved qIk).2 = some x) :
    x.cycle? = none := by
  rw [process_event] at hx
  split at hx
  · exact cycle?_some rfl x hx
  · cases hx

end State

/-! ## Steps -/

variable (cfg : Config) (lib : Library)

/-- A step takes a datagram, stops the program or moves the loop, and time goes on. -/
theorem step_cases {s s' : State} {act : Action} {e : Option Event}
    (h : (machine cfg lib).step s act = some (s', e)) :
    (∃ timeNs p, act = .vr timeNs p ∧ s.nowNs ≤ timeNs ∧
      (s', e) = receiveVr cfg { s with nowNs := timeNs } timeNs p) ∨
    (∃ timeNs p, act = .telemetry timeNs p ∧ s.nowNs ≤ timeNs ∧
      (s', e) = receiveTelemetry { s with nowNs := timeNs } timeNs p) ∨
    (act = .sigint ∧ s' = { s with keepRunning := false } ∧ e = none) ∨
    (∃ env, act = .loop env ∧ s.nowNs ≤ env.timeNs ∧
      (s', e) = loopStep cfg lib { s with nowNs := env.timeNs } env) := by
  have hadvance : ∀ {timeNs t}, s.advance timeNs = some t →
      s.nowNs ≤ timeNs ∧ t = { s with nowNs := timeNs } := by
    intro timeNs t ht
    unfold State.advance at ht
    split at ht
    · cases ht
    · rename_i hlt
      exact ⟨not_lt.mp hlt, (Option.some.inj ht).symm⟩
  change step cfg lib s act = some (s', e) at h
  cases act with
  | vr timeNs p =>
    obtain ⟨t, ht, hs⟩ := Option.map_eq_some_iff.mp h
    obtain ⟨hle, rfl⟩ := hadvance ht
    exact .inl ⟨timeNs, p, rfl, hle, hs.symm⟩
  | telemetry timeNs p =>
    obtain ⟨t, ht, hs⟩ := Option.map_eq_some_iff.mp h
    obtain ⟨hle, rfl⟩ := hadvance ht
    exact .inr (.inl ⟨timeNs, p, rfl, hle, hs.symm⟩)
  | sigint =>
    obtain ⟨rfl, rfl⟩ := Prod.mk.inj (Option.some.inj h)
    exact .inr (.inr (.inl ⟨rfl, rfl, rfl⟩))
  | loop env =>
    obtain ⟨t, ht, hs⟩ := Option.map_eq_some_iff.mp h
    obtain ⟨hle, rfl⟩ := hadvance ht
    exact .inr (.inr (.inr ⟨env, rfl, hle, hs.symm⟩))

/-- Where the loop records what. -/
theorem loopStep_event (s : State) (env : Env) :
    (loopStep cfg lib s env).2 =
      match s.loop.pc with
      | .snapshotTel => some (.cycle ((snapshotTel cfg s env.timeNs).cycle env.timeNs))
      | .process a => (s.process cfg lib a env.solved env.q).2
      | .send a => some (.sent a env.timeNs (s.sendPkt cfg a))
      | _ => none := by
  unfold loopStep
  cases s.loop.pc <;> rfl

theorem step_event {s s' : State} {act : Action} {e : Event}
    (hs : (machine cfg lib).step s act = some (s', some e)) :
    (∃ timeNs grip, e = .vr timeNs grip) ∨ (∃ timeNs, e = .telemetry timeNs) ∨
    (∃ c, s.loop.pc = .snapshotTel ∧ e = .cycle c) ∨
    (∃ a env, act = .loop env ∧ s.loop.pc = .process a ∧
      (s.process cfg lib a env.solved env.q).2 = some e) ∨
    ∃ a env, act = .loop env ∧ s.loop.pc = .send a ∧ e = .sent a env.timeNs (s.sendPkt cfg a) := by
  rcases step_cases cfg lib hs with ⟨timeNs, p, rfl, -, heq⟩ | ⟨timeNs, p, rfl, -, heq⟩ |
    ⟨-, -, he⟩ | ⟨env, rfl, -, heq⟩
  · unfold receiveVr at heq
    split at heq
    · exact .inl ⟨_, _, Option.some.inj (Prod.mk.inj heq).2⟩
    · cases (Prod.mk.inj heq).2
  · unfold receiveTelemetry at heq
    split at heq
    · exact .inr (.inl ⟨_, Option.some.inj (Prod.mk.inj heq).2⟩)
    · cases (Prod.mk.inj heq).2
  · cases he
  · have he := congrArg Prod.snd heq
    change some e = (loopStep cfg lib { s with nowNs := env.timeNs } env).2 at he
    rw [loopStep_event] at he
    split at he
    · exact .inr (.inr (.inl ⟨_, by assumption, Option.some.inj he⟩))
    · rename_i a hpc
      refine .inr (.inr (.inr (.inl ⟨a, env, rfl, hpc, ?_⟩)))
      rw [State.process_event] at he ⊢
      exact he.symm
    · exact .inr (.inr (.inr (.inr ⟨_, env, rfl, by assumption, Option.some.inj he⟩)))
    · cases he

theorem step_sent {s s' : State} {act : Action} {a : ArmSide} {timeNs : ℕ}
    {pkt : TeleopPacket Double}
    (hs : (machine cfg lib).step s act = some (s', some (.sent a timeNs pkt))) :
    s.loop.pc = .send a ∧ pkt = s.sendPkt cfg a := by
  rcases step_event cfg lib hs with ⟨_, _, he⟩ | ⟨_, he⟩ | ⟨_, -, he⟩ | ⟨b, env, -, -, he⟩ |
    ⟨b, env, -, hpc, he⟩
  · cases he
  · cases he
  · cases he
  · rw [State.process_event] at he
    split at he <;> cases he
  · cases he
    exact ⟨hpc, rfl⟩

/-- What `--dry-run` is for. -/
theorem dryRun_sent (hdry : cfg.dryRun = true) {ok : State → List Event → Action → Prop} {s : State}
    {h : List Event} (hr : (machine cfg lib).RunWhere ok s h) :
    Always (fun e _ => ∀ a timeNs pkt, e = .sent a timeNs pkt → pkt.enable ≠ 1) h := by
  refine (hr.always (I := fun _ _ => True) trivial (fun _ _ _ _ _ _ _ _ => trivial) ?_).2
  rintro s h act s' e - - hs a timeNs pkt rfl hen
  obtain ⟨-, rfl⟩ := step_sent cfg lib hs
  obtain ⟨-, -, -, -, hwet, -⟩ := (State.ready_iff cfg s a).mp ((State.sendPkt_enable cfg s a).mp hen)
  rw [hdry] at hwet
  cases hwet

end Machine

/-! ## Runs to start from -/

def sendsRight (enable : UInt8) : Event → Bool
  | .sent .right _ pkt => decide (pkt.enable = enable)
  | _ => false

/-- A controller that has moved sideways. -/
def hand (grip trigger deltaX : UInt32) : VrArmPacket := ⟨#v[deltaX, 0, 0], grip, trigger⟩

/-- The right controller is held, or not; the left one is not. -/
def vrPacket (right : VrArmPacket) : VrRelativeTeleopPacketV2 where
  magic := vrMagic
  arm
    | .right => right
    | .left => hand 0 0 0

def telemetryPacket (joint : UInt32) : OpenArmTelemetryPacketV1 := ⟨telemetryMagic, .replicate 16 joint⟩

/-- Some steps of the loop at one time, with a solver that answers the same each time. -/
def loops (n timeNs : ℕ) (solved : Bool) (q : Double) : List Action :=
  List.replicate n (.loop ⟨timeNs, solved, .replicate 7 q⟩)

/-- The hand stands still at the origin; the norm is the one of a vector along an axis. -/
def axis : Library where
  fk _ _ := 0
  norm v := match v with
    | ⟨.fin x, .fin y, .fin z⟩ => .fin (|x| + |y| + |z|)
    | _ => .nan

end OpenArmTeleop.VrLeader
