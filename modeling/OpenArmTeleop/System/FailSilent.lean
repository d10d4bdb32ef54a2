import OpenArmTeleop.System.Force

/-!
# An arm stops when its commands do

How old the newest command of an arm can be in an iteration of the follower that drives it.
-/

open Num Run Clock OpenArmTeleop.Net OpenArmTeleop.Core

namespace OpenArmTeleop.System

variable (cfg : Config)

/-! ## The iterations of the follower -/

/-- When the current iteration began. -/
def iterationTime : List Event → Option ℕ
  | [] => none
  | .follower t .iteration :: _ => some t
  | _ :: h => iterationTime h

def Event.begins (e : Event) : Prop := ∃ x, e.follower? = some x ∧ x = .iteration

theorem iterationTime_cons {e : Event} {h : List Event} (he : ¬ e.begins) :
    iterationTime (e :: h) = iterationTime h := by
  cases e with
  | follower t x =>
    cases x with
    | iteration => exact absurd ⟨_, rfl, rfl⟩ he
    | _ => rfl
  | _ => rfl

theorem iterationTime_append {t h : List Event} (ht : ∀ e ∈ t, ¬ e.begins) :
    iterationTime (t ++ h) = iterationTime h := by
  induction t with
  | nil => rfl
  | cons e t ih =>
    obtain ⟨he, ht⟩ := List.forall_mem_cons.mp ht
    rw [List.cons_append, iterationTime_cons he, ih ht]

theorem iterationTime_mem {h : List Event} {t : ℕ} (ht : iterationTime h = some t) :
    .follower t .iteration ∈ h := by
  induction h with
  | nil => cases ht
  | cons e h ih =>
    by_cases he : e.begins
    · obtain ⟨x, hx, rfl⟩ := he
      cases e with
      | follower u x =>
        obtain rfl := Option.some.inj hx
        obtain rfl := Option.some.inj ht
        exact List.mem_cons_self
      | _ => cases hx
    · rw [iterationTime_cons he] at ht
      exact List.mem_cons_of_mem _ (ih ht)

/-- Not before the current iteration. -/
def AfterStart (h : List Event) (n : ℕ) : Prop := ∀ t, iterationTime h = some t → t ≤ n

/-- The places of the loop within an iteration. -/
def iterating : Follower.Pc → Bool
  | .startup | .head | .finish _ | .exited => false
  | _ => true

theorem next_iterating (fcfg : Follower.Config) (st : Follower.State)
    (h : iterating (Follower.next fcfg st) = true) :
    iterating st.loop.pc = true ∨ st.loop.pc = .head := by
  have hflow := Follower.next_flow (P := fun _ pc pc' => iterating pc' = true →
    iterating pc = true ∨ pc = .head) (by decide +kernel)
  exact hflow fcfg st h

theorem next_receiveTime (fcfg : Follower.Config) (st : Follower.State) (a : ArmSide)
    (h : Follower.next fcfg st = .receiveTime a) : st.loop.pc = .nowNs a := by
  have hflow := Follower.next_flow (P := fun _ pc pc' => ∀ a, pc' = .receiveTime a → pc = .nowNs a)
    (by decide +kernel)
  exact hflow fcfg st a h

/-! ## The age that an update is given -/

section Age

variable [Rounding]

/-- The time since a command for the arm came in, read in the current iteration. -/
def Timely (h : List Event) (nowNs : ℕ) (a : ArmSide) (gap : Double) : Prop :=
  ∃ n ≤ nowNs, AfterStart h n ∧ ∃ y ≤ nowNs, (∃ j x, .commandReceived a j y x ∈ h) ∧
    gap = Follower.ageMs (reading cfg.clocks.followerSteadyNs n)
      (reading cfg.clocks.followerSteadyNs y)

structure ReadInv (st : Follower.State) (h : List Event) (nowNs : ℕ) : Prop where
  started : iterating st.loop.pc = true → iterationTime h ≠ none
  read : ∀ a, st.loop.pc = .receiveTime a → st.loop.target a ≠ none ∧
    ∃ n ≤ nowNs, AfterStart h n ∧ st.loop.nowNs = reading cfg.clocks.followerSteadyNs n
  gap : ∀ a, st.loop.pc = .update a → Timely cfg h nowNs a (st.loop.gap a)

/-- The age of each update is the time since a command came in, and an arm is driven only within
an iteration. -/
def ReadsAge : Event → List Event → Prop
  | .follower t (.safetyUpdate a _ ageMs _), h => Timely cfg h t a ageMs
  | .follower _ (.unilateralStep _), h => iterationTime h ≠ none
  | _, _ => True

variable {cfg} {st : Follower.State} {h h' : List Event} {nowNs nowNs' : ℕ}

theorem Timely.mono {a : ArmSide} {gap : Double} (ht : Timely cfg h nowNs a gap)
    (hsub : h ⊆ h') (hsame : iterationTime h' = iterationTime h) (hle : nowNs ≤ nowNs') :
    Timely cfg h' nowNs' a gap := by
  obtain ⟨n, hn, hafter, y, hy, ⟨j, x, hmem⟩, hgap⟩ := ht
  exact ⟨n, hn.trans hle, by rwa [AfterStart, hsame], y, hy.trans hle, ⟨j, x, hsub hmem⟩, hgap⟩

theorem ReadInv.mono (hI : ReadInv cfg st h nowNs) (hsub : h ⊆ h')
    (hsame : iterationTime h' = iterationTime h) (hle : nowNs ≤ nowNs') :
    ReadInv cfg st h' nowNs' := by
  refine ⟨by rw [hsame]; exact hI.started, fun a hpc => ?_,
    fun a hpc => (hI.gap a hpc).mono hsub hsame hle⟩
  obtain ⟨ht, n, hn, hafter, hread⟩ := hI.read a hpc
  exact ⟨ht, n, hn.trans hle, by rwa [AfterStart, hsame], hread⟩

theorem ReadInv.loop (hI : ReadInv cfg st h nowNs) (hF : FollowerInv cfg st h nowNs)
    (htime : ∀ e ∈ h, e.timeNs ≤ nowNs) {env : Follower.Env}
    (henv : env.nowNs = reading cfg.clocks.followerSteadyNs nowNs) :
    ReadInv cfg (Follower.loopStep cfg.follower st env).1
      (((Follower.loopStep cfg.follower st env).2.map (.follower nowNs)).toList ++ h) nowNs := by
  have hsub : h ⊆ ((Follower.loopStep cfg.follower st env).2.map (.follower nowNs)).toList ++ h :=
    List.subset_append_right _ _
  have hsame : st.loop.pc ≠ .head → iterationTime
      (((Follower.loopStep cfg.follower st env).2.map (.follower nowNs)).toList ++ h) =
        iterationTime h := by
    refine fun hpc => iterationTime_append fun e he hbegins => hpc ?_
    obtain ⟨x, hx, rfl⟩ := hbegins
    obtain ⟨y, hy, rfl⟩ := Option.map_eq_some_iff.mp (Option.mem_toList.mp he)
    obtain rfl := Option.some.inj hx
    cases Follower.loopStep_records cfg.follower st env hy with
    | iteration hpc => exact hpc
  refine ⟨fun hiter => ?_, fun a hpc => ?_, fun a hpc => ?_⟩
  · rw [Follower.loopStep_pc] at hiter
    rcases next_iterating cfg.follower st hiter with hold | hhead
    · rw [hsame fun hpc => by rw [hpc] at hold; cases hold]
      exact hI.started hold
    · have hrun : st.keepRunning = true := by
        by_contra hstop
        rw [Follower.next, hhead, if_neg hstop] at hiter
        cases hiter
      simp [Follower.loopStep, hhead, hrun, iterationTime]
  · rw [Follower.loopStep_pc] at hpc
    have hold := next_receiveTime cfg.follower st a hpc
    have hsome : (st.loop.target a).isSome = true := by
      by_contra hnone
      rw [Follower.next, hold] at hpc
      simp only [if_neg hnone] at hpc
      cases a <;> cases hpc
    refine ⟨?_, nowNs, le_refl _, fun t ht => ?_, ?_⟩
    · rw [Follower.loopStep_target, if_neg (by simp [hold])]
      exact Option.isSome_iff_ne_none.mp hsome
    · rw [hsame (by simp [hold])] at ht
      exact htime _ (iterationTime_mem ht)
    · rw [Follower.loopStep_nowNs, hold]
      simp only [if_pos hsome]
      exact henv
  · rw [Follower.loopStep_pc] at hpc
    have hold := Follower.next_update cfg.follower st a hpc
    obtain ⟨htarget, n, hn, hafter, hread⟩ := hI.read a hold
    obtain ⟨p, hp⟩ := Option.ne_none_iff_exists'.mp htarget
    obtain ⟨i, t, u, w, -, -, -, hu, hr, hlast⟩ := hF.target a p hp
    rw [Follower.loopStep_gap, if_pos hold, hread, hr]
    have hsame' := hsame (by simp [hold])
    exact Timely.mono ⟨n, hn, hafter, u, hu, hlast, rfl⟩ hsub hsame' (le_refl _)

theorem ReadInv.step (hI : ReadInv cfg st h nowNs) (hF : FollowerInv cfg st h nowNs)
    (htime : ∀ e ∈ h, e.timeNs ≤ nowNs) {x : Follower.Action} {st' : Follower.State}
    {e : Option Follower.Event}
    (hclock : ∀ env, x = .loop env → env.nowNs = reading cfg.clocks.followerSteadyNs nowNs)
    (hs : Follower.step cfg.follower st x = some (st', e)) :
    ReadInv cfg st' ((e.map (.follower nowNs)).toList ++ h) nowNs := by
  have hstep := Follower.step_cases cfg.follower st x st' e hs
  by_cases hloop : ∃ env, x = .loop env
  · obtain ⟨env, rfl⟩ := hloop
    cases hstep with
    | loop => exact hI.loop hF htime (hclock env rfl)
  · have hsame := (Follower.step_still hstep fun env henv => hloop ⟨env, henv⟩).1
    have hgrown : ReadInv cfg st ((e.map (.follower nowNs)).toList ++ h) nowNs := by
      refine hI.mono (List.subset_append_right _ _) (iterationTime_append fun y hy hbegins => ?_)
        (le_refl _)
      obtain ⟨z, hz, rfl⟩ := hbegins
      obtain ⟨w, rfl, rfl⟩ := Option.map_eq_some_iff.mp (Option.mem_toList.mp hy)
      obtain rfl := Option.some.inj hz
      rcases Follower.step_recorded cfg.follower st hstep with hout | ⟨env, rfl, -⟩
      · cases hout
      · exact hloop ⟨env, rfl⟩
    refine ⟨?_, ?_, ?_⟩ <;> rw [hsame]
    · exact hgrown.started
    · exact hgrown.read
    · exact hgrown.gap

theorem readInv_start : ReadInv cfg (Follower.State.start cfg.follower) [] 0 :=
  ⟨nofun, fun _ => nofun, fun _ => nofun⟩

theorem ReadInv.system {s s' : State} {e : Option Event}
    (hI : ReadInv cfg s.follower.state h s.nowNs) (hS : SystemInv cfg s h)
    (hs : Step cfg s s' e) :
    ReadInv cfg s'.follower.state (e.toList ++ h) s'.nowNs ∧
      ∀ x, e = some x → ReadsAge cfg x h := by
  have hgrown : (∀ x, e = some x → ¬ x.begins) →
      ReadInv cfg s.follower.state (e.toList ++ h) s.nowNs := fun hno =>
    hI.mono (List.subset_append_right _ _)
      (iterationTime_append fun x hx => hno x (Option.mem_toList.mp hx)) (le_refl _)
  cases hs with
  | follower x st e hpacket hclock hstep =>
    refine ⟨hI.step hS.follower hS.time (fun env henv => (hclock env henv).2) hstep, fun y hy => ?_⟩
    obtain ⟨z, rfl, rfl⟩ := Option.map_eq_some_iff.mp hy
    have hcases := Follower.step_cases cfg.follower _ _ _ _ hstep
    cases z with
    | safetyUpdate a p ageMs latched =>
      obtain ⟨hpc, -, hgap, -⟩ := Follower.step_safetyUpdate cfg.follower _ hcases
      exact hgap ▸ hI.gap a hpc
    | unilateralStep a =>
      have hpc := Follower.step_unilateralStep cfg.follower _ hcases
      exact hI.started (by rw [hpc]; rfl)
    | _ => trivial
  | leader x st e =>
    constructor
    · refine hgrown fun y hy hbegins => ?_
      obtain ⟨z, rfl, rfl⟩ := Option.map_eq_some_iff.mp hy
      obtain ⟨w, hw, -⟩ := hbegins
      cases hw
    · intro y hy
      obtain ⟨z, rfl, rfl⟩ := Option.map_eq_some_iff.mp hy
      trivial
  | commandReceived a i position d burst p =>
    have hkept := hgrown fun y hy hbegins => by
      obtain rfl := Option.some.inj hy
      obtain ⟨w, hw, -⟩ := hbegins
      cases hw
    exact ⟨⟨hkept.started, hkept.read, hkept.gap⟩, fun y hy => by cases hy; trivial⟩
  | sendCommand | sendFeedback | feedbackReceived =>
    refine ⟨hgrown fun y hy hbegins => ?_, fun y hy => by cases hy; trivial⟩
    obtain rfl := Option.some.inj hy
    obtain ⟨w, hw, -⟩ := hbegins
    cases hw
  | _ => exact ⟨hgrown nofun, nofun⟩

end Age

/-! ## Whole runs -/

section Runs

variable [Rounding] {s : State} {h : List Event}

theorem read_runs (hr : (machine cfg).Runs s h) :
    ReadInv cfg s.follower.state h s.nowNs ∧ Always (ReadsAge cfg) h := by
  induction hr with
  | start => exact ⟨readInv_start, trivial⟩
  | @next s h x s' e hr _ hs ih =>
    obtain ⟨hI, ha⟩ := ih
    obtain ⟨hle, hstep⟩ := step_cases cfg hs
    obtain ⟨hnext, hevent⟩ := ReadInv.system (s := { s with nowNs := x.timeNs })
      (hI.mono (List.Subset.refl h) rfl hle) ((honest_runs cfg hr).1.later hle) hstep
    exact ⟨hnext, ha.append e hevent⟩

/-- The arm is driven in an iteration that began when a command had come in for it less than the
limit of the watchdog before, and on a command that the leader sent enabled. -/
def DrivesSoon : Event → List Event → Prop
  | .follower _ (.unilateralStep a), h =>
    ∃ t, iterationTime h = some t ∧
      (∃ j y w, .commandReceived a j y w ∈ h ∧
        Follower.Below cfg.follower.safety (Follower.ageMs (reading cfg.clocks.followerSteadyNs t)
          (reading cfg.clocks.followerSteadyNs y))) ∧
      ∃ x p ageMs j y z w, [.follower x (.safetyUpdate a p ageMs false), .commandReceived a j y w,
          .commandSent a j z w].Sublist h ∧
        p = w.map Double.ofBits ∧ Follower.Below cfg.follower.safety ageMs ∧ w.enable = 1
  | _, _ => True

/-- A live update has read an age below the limit, in an iteration that has not ended. -/
theorem live_timely {h' : List Event} {t₁ : ℕ} {a : ArmSide} (ha : Always (ReadsAge cfg) h')
    (htime : ∀ e ∈ h', e.timeNs ≤ t₁)
    (hlive : Follower.Live (Follower.Below cfg.follower.safety) a (h'.filterMap Event.follower?)) :
    ∃ gap, Follower.Below cfg.follower.safety gap ∧ Timely cfg h' t₁ a gap := by
  obtain ⟨new, e, old, rfl, ⟨x, hx, hxlive⟩, hno⟩ := (Since.part hlive).split
  cases e with
  | follower u y =>
    obtain rfl := Option.some.inj hx
    cases y with
    | safetyUpdate b p gap latched =>
      obtain ⟨rfl, -, -, -, hbelow⟩ := hxlive
      have hs : (.follower u (.safetyUpdate b p gap latched) :: old) <:+
          new ++ .follower u (.safetyUpdate b p gap latched) :: old := List.suffix_append _ _
      have ht : Timely cfg old u b gap := (ha.suffix hs).1
      refine ⟨gap, hbelow, ht.mono (fun z hz => hs.subset (List.mem_cons_of_mem _ hz)) ?_ ?_⟩
      · rw [iterationTime_append hno]
        rfl
      · exact htime _ (hs.subset List.mem_cons_self)
    | _ => exact hxlive.elim
  | _ => cases hx

end Runs

section Driving

attribute [local instance] Rounding.exact

/-- The follower with its motors. -/
def driven : Config := { simulated with follower := Follower.follower {} }

/-- A command for the right arm, and the iteration that follows it. -/
def driving : List Timed :=
  during 5 (leaderLoops 5 ++ sendCommands 0 ++ (Follower.moveBoth 0).map .follower) ++
    during 9 [.deliverCommand .right 0 0 []] ++ during 10 (followerLoops 17)

def isDriven : Event → Bool
  | .follower _ (.unilateralStep _) => true
  | _ => false

end Driving

end OpenArmTeleop.System
