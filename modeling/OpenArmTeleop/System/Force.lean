import OpenArmTeleop.Follower.Drive
import OpenArmTeleop.System.Formed

/-!
# What force at the leader goes back to

The leader pushes back only after a follower that follows has said so, and the follower follows
only an enabled command of the leader.
-/

open Num Run Clock OpenArmTeleop.Net OpenArmTeleop.Core OpenArmTeleop.Control
open OpenArmTeleop.Controller

namespace OpenArmTeleop.System

variable (cfg : Config)

/-! ## The follower says that it follows -/

/-- The loop drives an arm, or reports it as enabled, after a live update in the same iteration. -/
def FollowsLive (config : Safety.SafetyConfig) : Follower.Event → List Follower.Event → Prop
  | .unilateralStep a, h => Follower.Live (Follower.Below config) a h
  | .feedback a fb, h => fb.enabled ≠ 0 → Follower.Live (Follower.Below config) a h
  | _, _ => True

theorem follows_live [Rounding] (fcfg : Follower.Config) (hreq : fcfg.safety.requireEnable = true)
    {st : Follower.State} {h : List Follower.Event} (hr : (Follower.machine fcfg).Runs st h) :
    Always (FollowsLive fcfg.safety) h := by
  refine (hr.always (I := Follower.DriveInv fcfg) (Follower.driveInv_start fcfg hreq) ?_ ?_).2
  · intro st h x st' e hI _ hs
    exact Follower.driveInv_step fcfg st hI hreq (Follower.step_cases fcfg st x st' e hs)
  · intro st h x st' e hI _ hs
    have hstep := Follower.step_cases fcfg st x st' _ hs
    cases e with
    | unilateralStep a =>
      have hpc := Follower.step_unilateralStep fcfg st hstep
      exact hI.decided a (by rw [hpc]; cases a <;> rfl) (hI.command a hpc)
    | feedback a fb =>
      rcases Follower.step_recorded fcfg st hstep with hout | ⟨env, -, hrecord⟩
      · cases hout
      · cases hrecord with
        | feedback a hpc =>
          intro henabled
          refine hI.decided a (by rw [hpc]; cases a <;> rfl) ?_
          by_cases hactive : st.loop.st a = .active
          · rw [hactive]
            rfl
          · simp [Follower.fillFeedback, hactive] at henabled
    | _ => trivial

/-- A live update is an event of the history. -/
theorem live_mem {fresh : Double → Prop} {a : ArmSide} {h : List Follower.Event}
    (hl : Follower.Live fresh a h) :
    ∃ p ageMs, .safetyUpdate a p ageMs false ∈ h ∧ p.enable ≠ 0 ∧ p.estop ≠ 1 ∧ fresh ageMs := by
  induction h with
  | nil => cases hl
  | cons e h ih =>
    rcases hl with hlive | ⟨-, hl⟩
    · cases e with
      | safetyUpdate b p ageMs latched =>
        obtain ⟨rfl, henable, hestop, rfl, hfresh⟩ := hlive
        exact ⟨p, ageMs, List.mem_cons_self, henable, hestop, hfresh⟩
      | _ => cases hlive
    · obtain ⟨p, ageMs, hmem, hrest⟩ := ih hl
      exact ⟨p, ageMs, List.mem_cons_of_mem _ hmem, hrest⟩

/-! ## The leader wants to engage -/

/-- The command has the references of some feedback for the arm. -/
def Rendered (h : List Event) (a : ArmSide) (cmd : LeaderBilateralCommand) : Prop :=
  ∃ fb, Fed h a fb ∧ Leader.Renders fb cmd

/-- A follower that is enabled and not stopped has reported for the arm. -/
def Wanted (h : List Event) (a : ArmSide) : Prop :=
  ∃ fb, Fed h a fb ∧ fb.enabled ≠ 0 ∧ fb.estop = 0

/-- An engager leaves its rest only for feedback of an enabled follower. -/
structure WantInv (st : Leader.State) (h : List Event) : Prop where
  fresh : ∀ a, st.loop.pc = .want a → st.loop.fresh = true → st.loop.fb.isSome = true →
    Rendered h a (st.bcmd a)
  want : ∀ a, st.loop.pc = .update a → st.loop.want = true →
    Rendered h a (st.bcmd a) ∧ Wanted h a
  engaged : ∀ a, (st.engager a).state ≠ .off ∨ 0 < (st.engager a).scale →
    Rendered h a (st.bcmd a) ∧ Wanted h a

section WantInv

variable {st : Leader.State} {h h' : List Event}

theorem Rendered.mono {a : ArmSide} {cmd : LeaderBilateralCommand} (hr : Rendered h a cmd)
    (hsub : h ⊆ h') : Rendered h' a cmd := by
  obtain ⟨fb, hfed, hrenders⟩ := hr
  exact ⟨fb, hfed.mono hsub, hrenders⟩

theorem Wanted.mono {a : ArmSide} (hw : Wanted h a) (hsub : h ⊆ h') : Wanted h' a := by
  obtain ⟨fb, hfed, hrest⟩ := hw
  exact ⟨fb, hfed.mono hsub, hrest⟩

theorem WantInv.mono (hI : WantInv st h) (hsub : h ⊆ h') : WantInv st h' :=
  ⟨fun a hpc hfresh hfb => (hI.fresh a hpc hfresh hfb).mono hsub,
    fun a hpc hwant => (hI.want a hpc hwant).imp (·.mono hsub) (·.mono hsub),
    fun a he => (hI.engaged a he).imp (·.mono hsub) (·.mono hsub)⟩

theorem usable_wanted {a : ArmSide} {fb : Option (FeedbackPacket Double)}
    (hfed : ∀ x, fb = some x → Fed h a x) (hu : Leader.usable fb = true) : Wanted h a := by
  cases fb with
  | none => cases hu
  | some x =>
    simp only [Leader.usable, Option.any_some, Bool.and_eq_true, decide_eq_true_eq] at hu
    exact ⟨x, hfed x rfl, hu⟩

variable [Rounding] {lcfg : Leader.Config}

theorem wantInv_start : WantInv (Leader.State.start lcfg) [] := by
  refine ⟨fun _ => nofun, fun _ => nofun, fun a he => ?_⟩
  rcases he with he | he
  · exact absurd rfl he
  · exact absurd he (Double.lt_irrefl 0)

theorem loopStep_update (env : Leader.Env) {a : ArmSide}
    (hpc : (Leader.loopStep lcfg st env).1.loop.pc = .update a) :
    st.loop.pc = .want a ∧ (Leader.loopStep lcfg st env).1.bcmd = st.bcmd ∧
      ((Leader.loopStep lcfg st env).1.loop.want = true →
        st.loop.fresh = true ∧ Leader.usable st.loop.fb = true) := by
  cases hold : st.loop.pc with
  | want b =>
    simp only [Leader.loopStep, hold, Leader.State.goto, Leader.Pc.update.injEq] at hpc ⊢
    refine ⟨by rw [hpc], trivial, fun hwant => ?_⟩
    simp only [Bool.and_eq_true] at hwant
    exact ⟨hwant.1.2, hwant.2⟩
  | snapshot b =>
    simp only [Leader.loopStep, hold] at hpc
    split at hpc <;> simp [Leader.State.goto] at hpc
  | leaderStep b => cases b <;> simp [Leader.loopStep, hold, Leader.State.goto] at hpc
  | _ =>
    simp only [Leader.loopStep, hold, Leader.afterGoto] at hpc
    (repeat' split at hpc) <;> simp_all [Leader.State.goto]

/-- An engager that is not at rest was not before, or is wanted. -/
theorem update_wanted (e : BilateralEngager Double) {want aligned : Bool} {dtS : Double}
    (h : (e.update want aligned dtS).state ≠ .off ∨ 0 < (e.update want aligned dtS).scale) :
    (e.state ≠ .off ∨ 0 < e.scale) ∨ want = true := by
  by_cases hoff : e.state = .off
  · right
    cases want with
    | true => rfl
    | false =>
      rcases h with h | h <;> simp only [BilateralEngager.update, hoff] at h
      · simp at h
      · exact absurd h (Double.lt_irrefl 0)
  · exact .inl (.inl hoff)

theorem rendered_loopStep (hL : LeaderInv st h) (hfit : ∀ a fb, Fed h a fb → Leader.CountsFit fb)
    (env : Leader.Env) {a : ArmSide} (hr : Rendered h a (st.bcmd a)) :
    Rendered h a ((Leader.loopStep lcfg st env).1.bcmd a) := by
  have hbcmd := Leader.loopStep_bcmd lcfg st env
  cases hx : st.rendering lcfg env.nowNs with
  | none =>
    rw [hx] at hbcmd
    obtain ⟨scale, hscale⟩ := hbcmd a
    obtain ⟨fb, hfed, hc⟩ := hr
    rw [hscale]
    exact ⟨fb, hfed, ⟨hc.armPosRef, hc.handPosRef, hc.armTauF, hc.handTauF⟩⟩
  | some x =>
    obtain ⟨b, fb⟩ := x
    rw [hx] at hbcmd
    rw [hbcmd.1]
    rcases eq_or_ne a b with rfl | hab
    · have hfed := hL.rendering hx
      rw [Function.update_self]
      exact ⟨fb, hfed, Leader.renders_render _ (hfit a fb hfed) _⟩
    · rw [Function.update_of_ne hab]
      exact hr

theorem WantInv.loopStep (hI : WantInv st h) (hL : LeaderInv st h)
    (hfit : ∀ a fb, Fed h a fb → Leader.CountsFit fb) (env : Leader.Env) :
    WantInv (Leader.loopStep lcfg st env).1 h := by
  refine ⟨fun a hpc hfresh hfb => ?_, fun a hpc hwant => ?_, fun a he => ?_⟩
  · obtain ⟨hold, hsame⟩ := loopStep_want env hpc
    have hbcmd := Leader.loopStep_bcmd lcfg st env
    obtain ⟨fb, hsome⟩ := Option.isSome_iff_exists.mp hfb
    -- a fresh snapshot renders
    have hr : st.rendering lcfg env.nowNs = some (a, fb) := by
      have hnew : Leader.fresh lcfg st a env.nowNs = true := by
        simp only [Leader.loopStep, hold] at hfresh
        split at hfresh <;> exact hfresh
      rw [hsame] at hsome
      simp [Leader.State.rendering, hold, hsome, hnew]
    rw [hr] at hbcmd
    rw [hbcmd.1, Function.update_self]
    have hfed := hL.rendering hr
    exact ⟨fb, hfed, Leader.renders_render _ (hfit a fb hfed) _⟩
  · obtain ⟨hold, hbcmd, hw⟩ := loopStep_update env hpc
    obtain ⟨hfresh, husable⟩ := hw hwant
    have hsome : st.loop.fb.isSome = true := by
      cases hfb : st.loop.fb with
      | none =>
        rw [hfb] at husable
        cases husable
      | some _ => rfl
    rw [hbcmd]
    exact ⟨hI.fresh a hold hfresh hsome, usable_wanted (fun x hx => hL.loop a x (.inr hold) hx) husable⟩
  · have hbefore : Rendered h a (st.bcmd a) ∧ Wanted h a := by
      rw [Leader.loopStep_engager] at he
      split at he
      · rename_i hpc
        rcases update_wanted (st.engager a) he with he | hwant
        · exact hI.engaged a he
        · exact hI.want a hpc hwant
      · exact hI.engaged a he
    exact ⟨rendered_loopStep hL hfit env hbefore.1, hbefore.2⟩

theorem WantInv.step (hI : WantInv st h) (hL : LeaderInv st h)
    (hfit : ∀ a fb, Fed h a fb → Leader.CountsFit fb) {x : Leader.Action} {st' : Leader.State}
    {e : Option Leader.Event} (hs : Leader.step lcfg st x = some (st', e)) : WantInv st' h := by
  by_cases hloop : ∃ env, x = .loop env
  · obtain ⟨env, rfl⟩ := hloop
    obtain ⟨rfl, -⟩ := Leader.step_loop lcfg st hs
    exact hI.loopStep hL hfit env
  · obtain ⟨⟨hengager, hbcmd, hl⟩, -⟩ :=
      Leader.step_outside lcfg st hs fun env henv => hloop ⟨env, henv⟩
    refine ⟨?_, ?_, ?_⟩ <;> simp only [hengager, hbcmd, hl]
    · exact hI.fresh
    · exact hI.want
    · exact hI.engaged

/-- A bilateral cycle uses the command of an active engager. -/
theorem step_leaderStep {x : Leader.Action} {st' : Leader.State} {a : ArmSide}
    {cmd : LeaderBilateralCommand}
    (hs : Leader.step lcfg st x = some (st', some (.leaderStep a (some cmd)))) :
    cmd = st.bcmd a ∧ 0 < (st.engager a).scale := by
  by_cases hloop : ∃ env, x = .loop env
  · obtain ⟨env, rfl⟩ := hloop
    obtain ⟨-, he⟩ := Leader.step_loop lcfg st hs
    rw [Leader.loopStep_event] at he
    split at he
    · cases he
    · rename_i b hpc
      by_cases hactive : (st.engager b).active = true
      · rw [if_pos hactive] at he
        cases he
        exact ⟨rfl, of_decide_eq_true hactive⟩
      · rw [if_neg hactive] at he
        cases he
    · cases he
  · rcases (Leader.step_outside lcfg st hs fun env henv => hloop ⟨env, henv⟩).2 with
      he | ⟨_, _, -, he, -⟩
    · rcases he _ rfl with ⟨c, hc⟩ | ⟨b, n, pose, hp⟩
      · cases hc
      · cases hp
    · cases he

end WantInv

/-! ## Whole runs -/

/-- Force is rendered against feedback, and wanted by a follower that follows. -/
def Supported : Event → List Event → Prop
  | .leader _ (.leaderStep a (some cmd)), h => Rendered h a cmd ∧ Wanted h a
  | _, _ => True

section Runs

variable [Rounding] {s : State} {h : List Event}

theorem want_runs (hr : (machine cfg).Runs s h) : WantInv s.leader.state h := by
  induction hr with
  | start => exact wantInv_start
  | @next s h x s' e hr _ hs ih =>
    have hsub : h ⊆ e.toList ++ h := List.subset_append_right _ _
    have hL := leader_runs cfg hr
    have hfit : ∀ a fb, Fed h a fb → Leader.CountsFit fb := fun _ _ => fed_fits cfg hr
    cases (step_cases cfg hs).2 with
    | leader y st e stage _ _ _ hstep => exact (ih.step hL hfit hstep).mono hsub
    | feedbackReceived a i position d burst fb =>
      exact ⟨(ih.mono hsub).fresh, (ih.mono hsub).want, (ih.mono hsub).engaged⟩
    | _ => exact ih.mono hsub

theorem supported_runs (hr : (machine cfg).Runs s h) : Always Supported h := by
  induction hr with
  | start => trivial
  | @next s h x s' e hr _ hs ih =>
    refine ih.append e fun y hy => ?_
    have hI := want_runs cfg hr
    subst hy
    generalize hy : some y = e' at hs
    obtain ⟨-, hstep⟩ := step_cases cfg hs
    cases hstep with
    | leader z st e' stage _ _ _ hstep =>
      cases e' with
      | none => cases hy
      | some e' =>
        cases hy
        cases e' with
        | leaderStep a cmd =>
          cases cmd with
          | none => trivial
          | some cmd =>
            obtain ⟨rfl, hscale⟩ := step_leaderStep hstep
            exact hI.engaged a (.inr hscale)
        | _ => trivial
    | follower _ _ e' => cases e' <;> cases hy; trivial
    | _ => cases hy <;> trivial

/-- Everything that an event of the history goes back to. -/
def Explained (e : Event) (h : List Event) : Prop :=
  (Honest cfg e h ∧ Supported e h) ∧
    ∀ x, e.follower? = some x → FollowsLive cfg.follower.safety x (h.filterMap Event.follower?)

theorem explained_runs (hreq : cfg.follower.safety.requireEnable = true)
    (hr : (machine cfg).Runs s h) : Always (Explained cfg) h :=
  ((honest_runs cfg hr).2.and (supported_runs cfg hr)).and
    (follows_live cfg.follower hreq ((part_follower cfg).runs hr)).part

/-- From the command of the leader to the force at its arm, and back through the events. -/
structure ForceChain (h : List Event) (a : ArmSide) (e : Event) (i t : ℕ)
    (fb : FeedbackPacket UInt64) (rttNs : UInt64) (u v : ℕ) (r : FeedbackPacket Double) (x : ℕ)
    (p : TeleopPacket Double) (ageMs : Double) (j y z : ℕ) (w : TeleopPacket UInt64) : Prop where
  order : [e, .feedbackReceived a i t fb rttNs, .feedbackSent a i u fb, .follower v (.feedback a r),
    .follower x (.safetyUpdate a p ageMs false), .commandReceived a j y w,
    .commandSent a j z w].Sublist h
  enabled : fb.enabled ≠ 0
  running : fb.estop = 0
  command : p = w.map Double.ofBits
  live : Follower.Below cfg.follower.safety ageMs
  enable : w.enable = 1

/-- What a live update goes back to. -/
theorem live_caused (hr : (machine cfg).Runs s h) {h' : List Event} (hs : h' <:+ h)
    (ha : Always (Explained cfg) h') {a : ArmSide}
    (hlive : Follower.Live (Follower.Below cfg.follower.safety) a (h'.filterMap Event.follower?)) :
    ∃ x p ageMs j y z w, [.follower x (.safetyUpdate a p ageMs false), .commandReceived a j y w,
        .commandSent a j z w].Sublist h' ∧
      p = w.map Double.ofBits ∧ Follower.Below cfg.follower.safety ageMs ∧ w.enable = 1 := by
  obtain ⟨p, ageMs, hmem, henable, -, hbelow⟩ := live_mem hlive
  obtain ⟨e, he, hpart⟩ := List.mem_filterMap.mp hmem
  cases e with
  | follower x e' =>
    obtain rfl := Option.some.inj hpart
    obtain ⟨h'', ⟨⟨⟨j, y, -, w, hw, rfl⟩, -⟩, -⟩, ha'', hsuffix⟩ := ha.before he
    have hhonest : Always (Honest cfg) h'' := ha''.mono fun _ _ hx => hx.1.1
    obtain ⟨z, -, hsub⟩ := sent_before cfg hhonest hw
    refine ⟨x, _, ageMs, j, y, z, w, (hsub.cons_cons _).trans hsuffix.sublist, rfl, hbelow, ?_⟩
    have hw' : .commandReceived a j y w ∈ h :=
      hs.subset (hsuffix.subset (List.mem_cons_of_mem _ hw))
    exact (command_formed cfg hr hw').enable.resolve_left henable
  | _ => cases hpart

/-- **What force at the leader goes back to.** Each bilateral cycle with force follows, in this
order, an enabled command for the arm that the leader sent and the follower received, an update of
the safety manager with it, within the limit of the watchdog, a report that the arm is enabled and
not stopped, and its arrival. The references of the cycle come from feedback for the arm, and the
leader was started enabled or told to enable. -/
theorem force_caused (hreq : cfg.follower.safety.requireEnable = true)
    (hr : (machine cfg).Runs s h) {t : ℕ} {a : ArmSide} {cmd : LeaderBilateralCommand}
    (he : .leader t (.leaderStep a (some cmd)) ∈ h) :
    Enabled cfg h ∧ Rendered h a cmd ∧
      ∃ i t' fb rttNs u v r x p ageMs j y z w, ForceChain cfg h a (.leader t (.leaderStep a (some cmd)))
        i t' fb rttNs u v r x p ageMs j y z w := by
  obtain ⟨h₁, ⟨⟨-, hrendered, hwanted⟩, -⟩, ha₁, hs₁⟩ := (explained_runs cfg hreq hr).before he
  obtain ⟨_, ⟨i, t', fb, rttNs, hfed, rfl⟩, henabled, hrunning⟩ := hwanted
  have hsub₁ : h₁ ⊆ h := fun x hx => hs₁.subset (List.mem_cons_of_mem _ hx)
  obtain ⟨bits, _, rfl, hreport⟩ := received_reported cfg (ha₁.mono fun _ _ hx => hx.1.1) hfed
  rcases hreport with hzero | ⟨u, v, h₂, hsub₂, hs₂⟩
  · have hnone : (bits.map Double.ofBits).enabled = 0 := by
      rw [hzero]
      rfl
    exact absurd hnone henabled
  · have hlive := (ha₁.suffix hs₂).1.2 _ rfl
    have hs₃ : h₂ <:+ h := (List.suffix_cons _ _).trans (hs₂.trans ((List.suffix_cons _ _).trans hs₁))
    obtain ⟨x, p, ageMs, j, y, z, w, hsub₃, hp, hbelow, henable⟩ :=
      live_caused cfg hr hs₃ (ha₁.suffix hs₂).2 (hlive henabled)
    have hw : .commandReceived a j y w ∈ h := hs₃.subset (hsub₃.subset (by simp))
    refine ⟨(command_formed cfg hr hw).enabled (by rw [henable]; decide), hrendered.mono hsub₁, i, t',
      _, rttNs, u, v, bits.map Double.ofBits, x, p, ageMs, j, y, z, w,
      ⟨?_, henabled, hrunning, hp, hbelow, henable⟩⟩
    exact ((((hsub₃.append_left _).trans hsub₂).cons_cons _).trans hs₁.sublist)

end Runs

section Engagement

attribute [local instance] Rounding.exact

/-- The leader with its motors. -/
def bilateral : Config := { simulated with leader := { simulated.leader with mock := false } }

def startUp (a : ArmSide) : List Action :=
  List.replicate (nstep + 2) (.leader (.motion a (atRest 0)))

def sendBilateral (seq : UInt32) : List Action :=
  [.assemble 0, .header, .header, .encodeCommand { commandBits seq .right with mode := 1 },
    .encodeCommand { commandBits seq .left with mode := 1 }, .sendCommand, .sendCommand]

/-- An exchange, then the bilateral mode, up to the first force at the right arm. -/
def engagement : List Timed :=
  during 5 (startUp .right ++ startUp .left ++ leaderLoops 15 ++ sendCommands 0) ++
    during 9 [.deliverCommand .right 0 0 []] ++ during 10 (followerLoops 19) ++
    during 11 (sendBoth (following .right 1005 1) (waiting .left)) ++
    during 14 ([.deliverFeedback .right 0 0 [], .leader (.receive .bilateralEnable)] ++
      List.replicate 3 (.leader (.control true))) ++
    during 15 (leaderLoops 15 ++ sendBilateral 1) ++
    during 17 (leaderLoops 15 ++ sendBilateral 2) ++ during 20 (leaderLoops 8)

def withForce : Event → Bool
  | .leader _ (.leaderStep _ (some cmd)) => decide (0 < cmd.scale)
  | _ => false

theorem withForce_leaderStep {e : Event} (h : withForce e = true) :
    ∃ t a cmd, e = .leader t (.leaderStep a (some cmd)) := by
  cases e with
  | leader t x =>
    cases x with
    | leaderStep a cmd =>
      cases cmd with
      | none => cases h
      | some cmd => exact ⟨t, a, cmd, rfl⟩
    | _ => cases h
  | _ => cases h

theorem force_caused_engagement :
    ∃ s h t a cmd, (machine bilateral).Runs s h ∧ .leader t (.leaderStep a (some cmd)) ∈ h ∧
      0 < cmd.scale ∧ ∃ i t' fb rttNs u v r x p ageMs j y z w,
        ForceChain bilateral h a (.leader t (.leaderStep a (some cmd)))
          i t' fb rttNs u v r x p ageMs j y z w := by
  obtain ⟨s, h, hr, hany⟩ := (machine bilateral).exists_runWhere (fun _ _ _ => True) engagement
    (fun _ h => h.any withForce = true) (by decide +kernel)
  obtain ⟨e, he, hforce⟩ := List.any_eq_true.mp hany
  obtain ⟨t, a, cmd, rfl⟩ := withForce_leaderStep hforce
  exact ⟨s, h, t, a, cmd, hr, he, of_decide_eq_true hforce, (force_caused bilateral rfl hr he).2.2⟩

end Engagement

end OpenArmTeleop.System
