import OpenArmTeleop.Leader.Machine

/-!
# Force only against an aligned pose

The leader renders force for an arm only after the alignment test has succeeded at scale zero
since the arm was last moved.
-/

open Num Run OpenArmTeleop.Net OpenArmTeleop.Core OpenArmTeleop.Control OpenArmTeleop.Controller

namespace OpenArmTeleop.Leader

/-! ## Alignment -/

/-- Arm `a` was aligned with fresh feedback while the scale was zero. -/
def AlignedAtZero (a : ArmSide) : Event → Prop
  | .updated b fresh aligned before => b = a ∧ fresh = true ∧ aligned = true ∧ before = 0
  | _ => False

instance (a : ArmSide) : DecidablePred (AlignedAtZero a)
  | .updated b fresh aligned before =>
    inferInstanceAs (Decidable (b = a ∧ fresh = true ∧ aligned = true ∧ before = 0))
  | .received _ | .interpolate .. | .moved _ | .leaderStep .. => isFalse id

/-- It has done so since the arm was last moved. -/
def Aligned (a : ArmSide) (h : List Event) : Prop := Since (AlignedAtZero a) (· = .moved a) h

instance (a : ArmSide) (h : List Event) : Decidable (Aligned a h) :=
  inferInstanceAs (Decidable (Since _ _ h))

/-- Force needs an aligned pose. -/
def RendersAligned : Event → List Event → Prop
  | .leaderStep a (some cmd), h => 0 < cmd.scale → Aligned a h
  | _, _ => True

instance : ∀ e h, Decidable (RendersAligned e h)
  | .leaderStep a (some cmd), h => inferInstanceAs (Decidable (0 < cmd.scale → Aligned a h))
  | .leaderStep _ none, _ | .received _, _ | .interpolate .., _ | .moved _, _ | .updated .., _ =>
    isTrue trivial

/-! ## The engager -/

section Engager

variable [Rounding] (e : BilateralEngager Double) (dtS : Double)

/-- No update can raise the scale before an alignment, and the next one brings it to zero. -/
def Released : Prop :=
  e.state = .off ∨ e.state = .waitAlign ∨
    e.state = .rampDown ∧ ¬ 0 < stdMax 0 (e.scale - BilateralEngager.downStep e.config dtS)

instance : Decidable (Released e dtS) :=
  inferInstanceAs (Decidable (_ ∨ _ ∨ _ ∧ ¬ _))

theorem update_released (want aligned : Bool) (hreleased : Released e dtS)
    (haligned : e.state = .waitAlign → aligned = false) :
    Released (e.update want aligned dtS) dtS ∧ ¬ 0 < (e.update want aligned dtS).scale := by
  have hzero : ¬ (0 : Double) < 0 := Double.lt_irrefl 0
  unfold Released at hreleased ⊢
  rcases hreleased with hs | hs | ⟨hs, hlast⟩ <;> simp only [BilateralEngager.update, hs]
  · exact ⟨by cases want <;> simp, hzero⟩
  · rw [haligned hs]
    exact ⟨by cases want <;> simp, hzero⟩
  · rw [(Double.stdMax_zero_cases _).resolve_right hlast, if_pos (by simp)]
    exact ⟨by cases want <;> simp, hzero⟩

end Engager

/-! ## Steps -/

theorem access_loop (cfg : Config) (s : State) (gateOk : Bool) (x : Access) :
    (s.access cfg gateOk x).engager = s.engager ∧ (s.access cfg gateOk x).bcmd = s.bcmd ∧
      (s.access cfg gateOk x).loop = s.loop := by
  cases x with
  | checkEnabled | checkGate =>
    simp only [State.access]
    split <;> exact ⟨rfl, rfl, rfl⟩
  | _ => exact ⟨rfl, rfl, rfl⟩

section Steps

variable [Rounding] (cfg : Config) (s : State) (env : Env)

theorem loopStep_engager (a : ArmSide) :
    (loopStep cfg s env).1.engager a =
      if s.loop.pc = .update a then
        (s.engager a).update s.loop.want s.loop.aligned cfg.dtS
      else s.engager a := by
  cases hpc : s.loop.pc with
  | update b =>
    simp only [loopStep, hpc, State.goto, Function.update_apply, Pc.update.injEq, eq_comm]
    split <;> simp_all
  | _ =>
    simp only [loopStep, hpc]
    (repeat' split) <;> simp_all [State.goto] <;> rfl

theorem loopStep_scale (a : ArmSide) :
    ((loopStep cfg s env).1.bcmd a).scale =
      if s.loop.pc = .update a then ((loopStep cfg s env).1.engager a).scale
      else (s.bcmd a).scale := by
  cases hpc : s.loop.pc with
  | update b =>
    simp only [loopStep, hpc, State.goto, Function.update_apply, Pc.update.injEq, eq_comm]
    split <;> simp_all
  | snapshot b =>
    simp only [loopStep, hpc]
    split
    · simp only [State.goto, Function.update_apply]
      split <;> simp_all [render]
    · simp [State.goto]
  | _ =>
    simp only [loopStep, hpc]
    (repeat' split) <;> simp_all [State.goto] <;> rfl

theorem loopStep_pc_leaderStep (a : ArmSide)
    (h : (loopStep cfg s env).1.loop.pc = .leaderStep a) : s.loop.pc = .update a := by
  cases hpc : s.loop.pc with
  | update b =>
    simp only [loopStep, hpc, State.goto, Pc.leaderStep.injEq] at h
    rw [h]
  | leaderStep b =>
    cases b <;> simp [loopStep, hpc, State.goto] at h
  | _ =>
    simp only [loopStep, hpc, afterGoto] at h
    (repeat' split at h) <;> simp_all [State.goto]

theorem loopStep_event :
    (loopStep cfg s env).2 =
      match s.loop.pc with
      | .update a => some (.updated a s.loop.fresh s.loop.aligned (s.engager a).scale)
      | .leaderStep a => some (.leaderStep a (if (s.engager a).active then some (s.bcmd a) else none))
      | _ => none := by
  cases hpc : s.loop.pc <;> simp only [loopStep, hpc] <;> (repeat' split) <;> rfl

theorem loopStep_fresh (h : s.loop.aligned = true → s.loop.fresh = true)
    (haligned : (loopStep cfg s env).1.loop.aligned = true) :
    (loopStep cfg s env).1.loop.fresh = true := by
  cases hpc : s.loop.pc with
  | snapshot b =>
    simp only [loopStep, hpc] at haligned ⊢
    split at haligned
    · rename_i hfb
      exact Option.filter_eq_some_iff.mp hfb |>.2
    · simp [State.goto] at haligned
  | _ =>
    simp only [loopStep, hpc] at haligned ⊢
    (repeat' split at haligned) <;> simp_all [State.goto, State.setRobot]

theorem motionStep_loop {a : ArmSide} {measured : Measured Double} {s' : State} {e : Option Event}
    (h : s.motionStep a measured = some (s', e)) :
    (s'.engager = s.engager ∧ s'.bcmd = s.bcmd ∧ s'.loop = s.loop) ∧
      ((∀ x, e = some x → ∃ n pose, x = .interpolate a n pose) ∨
        e = some (.moved a) ∧ s.arriving a = true) := by
  simp only [State.motionStep] at h
  split at h
  · cases h
  · rename_i hready
    rw [Bool.or_eq_true, not_or] at hready
    split at h
    · obtain ⟨rfl, rfl⟩ := Prod.mk.inj (Option.some.inj h)
      exact ⟨⟨rfl, rfl, rfl⟩, .inl nofun⟩
    · rename_i start hstart
      split at h
      · obtain ⟨rfl, rfl⟩ := Prod.mk.inj (Option.some.inj h)
        exact ⟨⟨rfl, rfl, rfl⟩, .inl fun x hx => ⟨_, _, (Option.some.inj hx).symm⟩⟩
      · rename_i hissued
        obtain ⟨rfl, rfl⟩ := Prod.mk.inj (Option.some.inj h)
        refine ⟨⟨rfl, rfl, rfl⟩, .inr ⟨rfl, ?_⟩⟩
        simp only [State.arriving, hstart]
        simp_all

/-- The ways in which the program can take a step. -/
inductive Step : Action → State → Option Event → Prop
  | receive (c : Command) : s.control = [] →
      Step (.receive c) { s with control := handler c } (some (.received c))
  | control (gateOk : Bool) (x : Access) (rest : List Access) : s.control = x :: rest →
      Step (.control gateOk) ({ s with control := rest }.access cfg gateOk x) none
  | sigint : Step .sigint { s with keepRunning := false } none
  | feedback (a : ArmSide) (p : FeedbackPacket UInt64) (systemNowNs nowNs : UInt64) :
      cfg.bi.feedbackEnabled = true → p.decodeAndValidate = true →
      Step (.feedback a p systemNowNs nowNs)
        { s with
          buffer := Function.update s.buffer a
            ((s.buffer a).update (p.map Double.ofBits) (roundTripNs p systemNowNs) nowNs) }
        none
  | drop (a : ArmSide) (p : FeedbackPacket UInt64) (systemNowNs nowNs : UInt64) :
      p.decodeAndValidate = false → Step (.feedback a p systemNowNs nowNs) s none
  | motion (a : ArmSide) (measured : Measured Double) (s' : State) (e : Option Event) :
      s.motionStep a measured = some (s', e) → Step (.motion a measured) s' e
  | loop (env : Env) : s.blocked = false →
      Step (.loop env) (loopStep cfg s env).1 (loopStep cfg s env).2

theorem step_cases {act : Action} {s' : State} {e : Option Event}
    (h : (machine cfg).step s act = some (s', e)) : Step cfg s act s' e := by
  change step cfg s act = some (s', e) at h
  cases act with
  | receive c =>
    simp only [step] at h
    split at h
    · rename_i hidle
      obtain ⟨rfl, rfl⟩ := Prod.mk.inj (Option.some.inj h)
      exact .receive c hidle
    · cases h
  | control gateOk =>
    simp only [step] at h
    split at h
    · cases h
    · rename_i x rest hc
      obtain ⟨rfl, rfl⟩ := Prod.mk.inj (Option.some.inj h)
      exact .control gateOk x rest hc
  | sigint =>
    obtain ⟨rfl, rfl⟩ := Prod.mk.inj (Option.some.inj h)
    exact .sigint
  | feedback a p systemNowNs nowNs =>
    simp only [step] at h
    split at h
    · cases h
    · rename_i henabled
      split at h <;> rename_i hvalid <;> obtain ⟨rfl, rfl⟩ := Prod.mk.inj (Option.some.inj h)
      · exact .feedback a p systemNowNs nowNs (by simpa using henabled) hvalid
      · exact .drop a p systemNowNs nowNs (by simpa using hvalid)
  | motion a measured => exact .motion a measured s' e h
  | loop env =>
    simp only [step] at h
    split at h
    · cases h
    · rename_i hfree
      obtain ⟨rfl, rfl⟩ := Prod.mk.inj (Option.some.inj h)
      exact .loop env (by simpa using hfree)

/-- The handlers, receivers and motions leave the loop and its engagers alone. A motion returns
once per arm. -/
theorem step_outside {act : Action} {s' : State} {e : Option Event}
    (h : (machine cfg).step s act = some (s', e)) (hact : ∀ env, act ≠ .loop env) :
    (s'.engager = s.engager ∧ s'.bcmd = s.bcmd ∧ s'.loop = s.loop) ∧
      ((∀ x, e = some x → (∃ c, x = .received c) ∨ ∃ a n pose, x = .interpolate a n pose) ∨
        ∃ a measured, act = .motion a measured ∧ e = some (.moved a) ∧ s.arriving a = true) := by
  cases step_cases cfg s h with
  | receive c hidle => exact ⟨⟨rfl, rfl, rfl⟩, .inl fun x hx => .inl ⟨c, (Option.some.inj hx).symm⟩⟩
  | control gateOk x rest hc => exact ⟨access_loop cfg _ gateOk x, .inl nofun⟩
  | sigint | feedback | drop => exact ⟨⟨rfl, rfl, rfl⟩, .inl nofun⟩
  | motion a measured _ _ hm =>
    obtain ⟨hsame, he⟩ := motionStep_loop s hm
    refine ⟨hsame, ?_⟩
    rcases he with he | ⟨he, harriving⟩
    · exact .inl fun x hx => .inr ⟨a, he x hx⟩
    · exact .inr ⟨a, measured, rfl, he, harriving⟩
  | loop env => exact absurd rfl (hact env)

end Steps

/-! ## The invariant -/

/-- A motion of an arm returns only when its engager is released. -/
def MovesReleased (cfg : Config) [Rounding] (s : State) (_ : List Event) : Action → Prop
  | .motion a _ => s.arriving a = true → Released (s.engager a) cfg.dtS
  | _ => True

instance (cfg : Config) [Rounding] (s : State) (h : List Event) (act : Action) :
    Decidable (MovesReleased cfg s h act) :=
  match act with
  | .motion a _ =>
    inferInstanceAs (Decidable (s.arriving a = true → Released (s.engager a) cfg.dtS))
  | .receive _ | .control _ | .sigint | .feedback .. | .loop _ => isTrue trivial

/-- An arm that is not aligned has a released engager. -/
structure AlignInv [Rounding] (cfg : Config) (s : State) (h : List Event) : Prop where
  waitAlign : ∀ a, (s.engager a).state = .waitAlign → (s.engager a).scale = 0
  released : ∀ a, ¬ Aligned a h → Released (s.engager a) cfg.dtS
  fresh : s.loop.aligned = true → s.loop.fresh = true
  scale : ∀ a, s.loop.pc = .leaderStep a → (s.bcmd a).scale = (s.engager a).scale
  command : ∀ a, s.loop.pc = .leaderStep a → ¬ Aligned a h → ¬ 0 < (s.engager a).scale

theorem Aligned.append {a : ArmSide} {h : List Event} (ha : Aligned a h) (e : Option Event)
    (he : e ≠ some (.moved a)) : Aligned a (e.toList ++ h) :=
  Since.append ha e fun x hx hmoved => he (by rw [hx, hmoved])

section Invariant

variable [Rounding] (cfg : Config) (s : State) {h : List Event}

theorem alignInv_start : AlignInv cfg (State.start cfg) [] :=
  ⟨fun _ _ => rfl, fun _ _ => .inl rfl, nofun, nofun, nofun⟩

theorem alignInv_outside (hI : AlignInv cfg s h) {act : Action} {s' : State} {e : Option Event}
    (hok : MovesReleased cfg s h act) (hs : (machine cfg).step s act = some (s', e))
    (hact : ∀ env, act ≠ .loop env) : AlignInv cfg s' (e.toList ++ h) := by
  obtain ⟨⟨hengager, hbcmd, hloop⟩, he⟩ := step_outside cfg s hs hact
  rcases he with he | ⟨b, measured, rfl, rfl, harriving⟩
  · have hback : ∀ a, ¬ Aligned a (e.toList ++ h) → ¬ Aligned a h := by
      refine fun a hnot ha => hnot (ha.append e fun hmoved => ?_)
      rcases he _ hmoved with ⟨c, hc⟩ | ⟨_, n, pose, hc⟩ <;> cases hc
    refine ⟨?_, ?_, ?_, ?_, ?_⟩ <;> simp only [hengager, hbcmd, hloop]
    · exact hI.waitAlign
    · exact fun a hnot => hI.released a (hback a hnot)
    · exact hI.fresh
    · exact hI.scale
    · exact fun a hpc hnot => hI.command a hpc (hback a hnot)
  -- a motion of arm `b` returns, while the loop waits for it
  · have hmoving : s.isMoving = true := by
      simp only [State.arriving, Bool.and_eq_true] at harriving
      exact harriving.1.1.1
    have hpc : ∀ a, s.loop.pc ≠ .leaderStep a := by
      intro a hpc
      simp [State.isMoving, hpc] at hmoving
    refine ⟨?_, ?_, ?_, ?_, ?_⟩
    · rw [hengager]
      exact hI.waitAlign
    · intro a hnot
      rw [hengager]
      by_cases hab : b = a
      · subst hab
        exact hok harriving
      · exact hI.released a fun ha => hnot (ha.append _ (by simpa using hab))
    · rw [hloop]
      exact hI.fresh
    · intro a h
      exact absurd (hloop ▸ h) (hpc a)
    · intro a h
      exact absurd (hloop ▸ h) (hpc a)

theorem alignInv_loop (hI : AlignInv cfg s h) (env : Env) :
    AlignInv cfg (loopStep cfg s env).1 ((loopStep cfg s env).2.toList ++ h) := by
  have hmoved : ∀ a, (loopStep cfg s env).2 ≠ some (.moved a) := by
    intro a
    rw [loopStep_event]
    split <;> nofun
  have hback : ∀ a, ¬ Aligned a ((loopStep cfg s env).2.toList ++ h) → ¬ Aligned a h :=
    fun a hnot ha => hnot (ha.append _ (hmoved a))
  -- an update that is not an alignment at scale zero
  have hupdate : ∀ a, s.loop.pc = .update a →
      ¬ Aligned a ((loopStep cfg s env).2.toList ++ h) →
      Released ((s.engager a).update s.loop.want s.loop.aligned cfg.dtS) cfg.dtS ∧
        ¬ 0 < ((s.engager a).update s.loop.want s.loop.aligned cfg.dtS).scale := by
    intro a hpc hnot
    refine update_released _ _ _ _ (hI.released a (hback a hnot)) fun hwait => ?_
    by_contra haligned
    refine hnot ?_
    rw [loopStep_event, hpc]
    rw [Bool.not_eq_false] at haligned
    exact .inl ⟨rfl, hI.fresh haligned, haligned, hI.waitAlign a hwait⟩
  refine ⟨fun a hwait => ?_, fun a hnot => ?_, loopStep_fresh cfg s env hI.fresh,
    fun a hpc => ?_, fun a hpc hnot => ?_⟩
  · rw [loopStep_engager] at hwait ⊢
    split at hwait
    · rename_i hpc
      rw [if_pos hpc]
      exact BilateralEngager.update_idle _ _ _ _ (.inr hwait)
    · rename_i hpc
      rw [if_neg hpc]
      exact hI.waitAlign a hwait
  · rw [loopStep_engager]
    split
    · exact (hupdate a (by assumption) hnot).1
    · exact hI.released a (hback a hnot)
  · rw [loopStep_scale, if_pos (loopStep_pc_leaderStep cfg s env a hpc)]
  · have hold := loopStep_pc_leaderStep cfg s env a hpc
    rw [loopStep_engager, if_pos hold]
    exact (hupdate a hold hnot).2

end Invariant

theorem step_loop [Rounding] (cfg : Config) (s : State) {env : Env} {s' : State}
    {e : Option Event} (h : (machine cfg).step s (.loop env) = some (s', e)) :
    s' = (loopStep cfg s env).1 ∧ e = (loopStep cfg s env).2 := by
  cases step_cases cfg s h with
  | loop => exact ⟨rfl, rfl⟩

/-- **Force only against an aligned pose.** When each motion returns with the engager of its arm
released, every bilateral command of positive scale comes after an alignment at scale zero since
the last motion of the arm. -/
theorem renders_aligned [Rounding] (cfg : Config) (s : State) (h : List Event)
    (hr : (machine cfg).RunWhere (MovesReleased cfg) s h) : Always RendersAligned h := by
  refine (hr.always (I := AlignInv cfg) (alignInv_start cfg) ?_ ?_).2
  · intro s h act s' e hI hok hs
    by_cases hloop : ∃ env, act = .loop env
    · obtain ⟨env, rfl⟩ := hloop
      obtain ⟨rfl, rfl⟩ := step_loop cfg s hs
      exact alignInv_loop cfg s hI env
    · exact alignInv_outside cfg s hI hok hs fun env henv => hloop ⟨env, henv⟩
  · intro s h act s' x hI hok hs
    by_cases hloop : ∃ env, act = .loop env
    · obtain ⟨env, rfl⟩ := hloop
      obtain ⟨-, he⟩ := step_loop cfg s hs
      rw [loopStep_event] at he
      split at he
      · cases he
        trivial
      · rename_i a hpc
        cases he
        split
        · intro hpos
          by_contra hnot
          rw [hI.scale a hpc] at hpos
          exact hI.command a hpc hnot hpos
        · trivial
      · cases he
    · rcases (step_outside cfg s hs fun env henv => hloop ⟨env, henv⟩).2 with he | ⟨_, _, -, he, -⟩
      · rcases he x rfl with ⟨c, rfl⟩ | ⟨a, n, pose, rfl⟩ <;> trivial
      · cases he
        trivial

/-! ## Two runs -/

section Runs

attribute [local instance] Rounding.exact

def leader : Config where
  mock := false
  rateHz := .fin 500
  initialEnable := true
  bi :=
    { feedbackEnabled := true
      windowNs := 1000000000
      maxFeedbackAgeMs := .fin 20
      renderEnabled := true
      engageMaxErrorRad := .fin (1 / 10)
      engageMaxErrorGripper := .fin (1 / 100)
      engager := BilateralEngager.defaultConfig }

def moveBoth (x : Double) : List Action :=
  List.replicate (nstep + 2) (.motion .right (atRest x)) ++
    List.replicate (nstep + 2) (.motion .left (atRest x))

def loops (n : ℕ) (nowNs : UInt64) (x : Double) : List Action :=
  List.replicate n
    (.loop ⟨nowNs, atRest x, ⟨fun _ => 0, fun _ => 0, fun _ => 0, fun _ => 0⟩, false⟩)

/-- Feedback of an active follower with all joints at zero. -/
def datagram (seq : UInt32) : FeedbackPacket UInt64 :=
  { FeedbackPacket.zero with seq := seq, enabled := 1, armDof := 7, handDof := 1 }.encode 0

def engage : List Action :=
  moveBoth 0 ++ [.feedback .right (datagram 1) 0 0, .receive .bilateralEnable] ++
    List.replicate 3 (.control true) ++ loops 39 5000000 0

def renders (a : ArmSide) : Event → Bool
  | .leaderStep b (some cmd) => b = a ∧ 0 < cmd.scale
  | _ => false

/-- Force after an alignment. -/
theorem renders_aligned_engaged :
    ∃ s h, (machine leader).RunWhere (MovesReleased leader) s h ∧
      h.any (renders .right) = true ∧ Always RendersAligned h := by
  obtain ⟨s, h, hr, hh⟩ := (machine leader).exists_runWhere (MovesReleased leader) engage
    (fun _ h => h.any (renders .right) = true) (by decide +kernel)
  exact ⟨s, h, hr, hh, renders_aligned leader s h hr⟩

/-- A `goto_pose` in the middle of the ramp: the arms stand one radian away from the follower,
and the next cycle renders more force than the last one. -/
theorem renders_moved :
    ∃ s h, (machine leader).Runs s h ∧ .moved .right ∈ h ∧ ¬ Always RendersAligned h := by
  exact (machine leader).exists_violation RendersAligned
    (engage ++ [.receive (.gotoPose (List.replicate 16 1)), .control true, .control true] ++
      loops 12 5000000 0 ++ moveBoth 1 ++ .feedback .right (datagram 2) 0 2000000000 ::
      loops 7 2005000000 1)
    (fun _ h => .moved .right ∈ h) (by decide +kernel)

end Runs

end OpenArmTeleop.Leader
