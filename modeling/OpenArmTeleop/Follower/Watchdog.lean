import OpenArmTeleop.Follower.Single

/-!
# When the single follower faults without a silence

The loop reads the clock before it reads when the last packet came in. What it computes is the age
of the packet only if no packet comes in between.
-/

open Num Run OpenArmTeleop.Net OpenArmTeleop.Core OpenArmTeleop.Control OpenArmTeleop.Safety

namespace OpenArmTeleop.Follower.Single

/-! ## What the history says about the packet of the loop -/

/-- The newest stored packet, and when it came in. -/
def arrival : List Event → Option (TeleopPacket Double × UInt64)
  | [] => none
  | .packet p nowNs :: _ => some (p, nowNs)
  | _ :: h => arrival h

/-- What `get_latest` found the last time. -/
def held : List Event → Option (TeleopPacket Double × UInt64)
  | [] => none
  | .getLatest :: h => arrival h
  | _ :: h => held h

def Event.arrived : Event → Option UInt64
  | .packet _ nowNs => some nowNs
  | _ => none

/-- When the packets came in, newest first. -/
def arrivals (h : List Event) : List UInt64 := h.filterMap Event.arrived

/-- An event that leaves these alone. -/
def Event.other : Event → Bool
  | .packet .. | .getLatest => false
  | _ => true

theorem arrival_append (e : Option Event) (h : List Event) (he : ∀ x ∈ e, x.other = true) :
    arrival (e.toList ++ h) = arrival h := by
  refine append_eq_of_cons e fun x hx => ?_
  cases x <;> first | rfl | cases he _ hx

theorem held_append (e : Option Event) (h : List Event) (he : ∀ x ∈ e, x.other = true) :
    held (e.toList ++ h) = held h := by
  refine append_eq_of_cons e fun x hx => ?_
  cases x <;> first | rfl | cases he _ hx

theorem arrivals_append (e : Option Event) (h : List Event) (he : ∀ x ∈ e, x.other = true) :
    arrivals (e.toList ++ h) = arrivals h := by
  refine append_eq_of_cons e fun x hx => ?_
  cases x <;> first | rfl | cases he _ hx

section Machine

variable [Rounding]

/-- The gap that an update is given is at most the age of its packet, and it brings a fault about
only if no packet has come in for too long. -/
def TimelyUpdate (cfg : Config) : Event → List Event → Prop
  | .safetyUpdate p nowNs gap before after, h =>
    ∃ x ∈ held h, x.1 = p ∧ x.2 ≤ nowNs ∧ gap ≤ gapMs nowNs x.2 ∧
      (after = .fault → before ≠ .fault → cfg.safety.watchdogDisableMs ≤ gapMs nowNs x.2 ∧
        ∀ t ∈ arrivals h, t < nowNs → cfg.safety.watchdogDisableMs ≤ gapMs nowNs t)
  | _, _ => True

instance (cfg : Config) : ∀ e h, Decidable (TimelyUpdate cfg e h)
  | .safetyUpdate .., h => inferInstanceAs (Decidable (∃ x ∈ held h, _))
  | .packet .., _ | .getLatest, _ | .applied .., _ | .unilateralStep, _ | .disableAll, _ =>
    isTrue trivial

/-- The watchdog switches an arm to `FAULT`. -/
def Event.faults : Event → Prop
  | .safetyUpdate _ _ _ before after => before ≠ .fault ∧ after = .fault
  | _ => False

/-- No packet comes in after the clock was read and before its arrival time is read. -/
def NoArrivalBetween (s : State) (_ : List Event) : Action → Prop
  | .packet p nowNs =>
    p.decodeAndValidate = true → s.loop.pc = .receiveTime → nowNs ≤ s.loop.nowNs
  | _ => True

instance (s : State) (h : List Event) (act : Action) : Decidable (NoArrivalBetween s h act) :=
  match act with
  | .packet _ _ => inferInstanceAs (Decidable (_ → _ → _))
  | .sigint | .signal | .loop _ => isTrue trivial

/-! ## The invariant -/

/-- How far the loop has come with the age of its packet. -/
def Timed (s : State) (h : List Event) : Prop :=
  match s.loop.pc with
  | .nowNs => ∃ x ∈ held h, s.loop.target = some x.1 ∧ x.2 ≤ s.buffer.lastReceiveTimeNs
  | .receiveTime => ∃ x ∈ held h, s.loop.target = some x.1 ∧
      x.2 ≤ s.buffer.lastReceiveTimeNs ∧ s.buffer.lastReceiveTimeNs ≤ s.loop.nowNs
  | .update => ∃ x ∈ held h, s.loop.target = some x.1 ∧
      ∃ last, x.2 ≤ last ∧ last ≤ s.loop.nowNs ∧ s.loop.gapMs = gapMs s.loop.nowNs last ∧
        ∀ t ∈ arrivals h, t < s.loop.nowNs → t ≤ last
  | _ => True

structure TimedInv (cfg : Config) (s : State) (h : List Event) : Prop where
  config : s.safety.config = cfg.safety
  view : s.buffer.view = arrival h
  newest : ∀ t ∈ arrivals h, t ≤ s.buffer.lastReceiveTimeNs
  clock : s.buffer.lastReceiveTimeNs ≤ s.clockNs
  read : s.loop.nowNs ≤ s.clockNs
  timed : Timed s h
  fault : s.safety.state = .fault → ∃ e ∈ h, e.faults

variable (cfg : Config) (s : State) {h : List Event}

theorem timedInv_start : TimedInv cfg (State.start cfg) [] := by
  refine ⟨rfl, rfl, by simp [arrivals], UInt64.le_refl 0, UInt64.le_refl 0, trivial,
    fun hfault => ?_⟩
  simp only [State.start, SafetyManager.new] at hfault
  split at hfault <;> cases hfault

theorem gapMs_mono [Double.Lawful] {t last nowNs : UInt64} (htl : t ≤ last) (hln : last ≤ nowNs) :
    gapMs nowNs last ≤ gapMs nowNs t := by
  refine Double.ofUnsigned_div_mono ?_ (by norm_num)
  rw [UInt64.toNat_sub_of_le _ _ hln, UInt64.toNat_sub_of_le _ _ (UInt64.le_trans htl hln)]
  rw [UInt64.le_iff_toNat_le] at htl
  omega

variable {cfg s}

theorem TimedInv.later (hI : TimedInv cfg s h) {nowNs : UInt64} (hle : s.clockNs ≤ nowNs) :
    TimedInv cfg { s with clockNs := nowNs } h :=
  ⟨hI.config, hI.view, hI.newest, UInt64.le_trans hI.clock hle, UInt64.le_trans hI.read hle,
    hI.timed, hI.fault⟩

theorem TimedInv.packet (hI : TimedInv cfg s h) (p : TeleopPacket Double)
    (hok : s.loop.pc = .receiveTime → s.clockNs ≤ s.loop.nowNs) :
    TimedInv cfg { s with buffer := s.buffer.update p s.clockNs } (.packet p s.clockNs :: h) := by
  refine ⟨hI.config, rfl, fun t ht => ?_, UInt64.le_refl _, hI.read, ?_, fun hfault => ?_⟩
  · rcases List.mem_cons.mp ht with rfl | ht
    · exact UInt64.le_refl _
    · exact UInt64.le_trans (hI.newest t ht) hI.clock
  · have htimed := hI.timed
    unfold Timed at htimed ⊢
    cases hpc : s.loop.pc <;> simp only [hpc] at htimed ⊢
    case nowNs =>
      obtain ⟨x, hx, htarget, hle⟩ := htimed
      exact ⟨x, hx, htarget, UInt64.le_trans hle hI.clock⟩
    case receiveTime =>
      obtain ⟨x, hx, htarget, hle, -⟩ := htimed
      exact ⟨x, hx, htarget, UInt64.le_trans hle hI.clock, hok hpc⟩
    case update =>
      obtain ⟨x, hx, htarget, last, hle, hlast, hgap, hnewest⟩ := htimed
      refine ⟨x, hx, htarget, last, hle, hlast, hgap, fun t ht hlt => ?_⟩
      rcases List.mem_cons.mp ht with rfl | ht
      · exact absurd hlt (UInt64.not_lt.mpr hI.read)
      · exact hnewest t ht hlt
  · obtain ⟨e, he, hfaults⟩ := hI.fault hfault
    exact ⟨e, List.mem_cons_of_mem _ he, hfaults⟩

theorem TimedInv.signal (hI : TimedInv cfg s h) (rest : List Access) (x : Access) :
    TimedInv cfg ({ s with signal := rest }.access x) h := by
  cases x with
  | triggerEstop =>
    exact ⟨hI.config, hI.view, hI.newest, hI.clock, hI.read, hI.timed, fun hfault => by cases hfault⟩
  | stop => exact ⟨hI.config, hI.view, hI.newest, hI.clock, hI.read, hI.timed, hI.fault⟩

/-- A step of the loop that is no part of the timing. -/
theorem TimedInv.goto (hI : TimedInv cfg s h) {s' : State} (e : Option Event)
    (hbuffer : s'.buffer = s.buffer) (hclock : s'.clockNs = s.clockNs)
    (hsafety : s'.safety = s.safety) (hread : s'.loop.nowNs ≤ s.clockNs)
    (htimed : Timed s' (e.toList ++ h)) (he : ∀ x ∈ e, x.other = true) :
    TimedInv cfg s' (e.toList ++ h) := by
  refine ⟨?_, ?_, ?_, ?_, hclock ▸ hread, htimed, fun hfault => ?_⟩
  · rw [hsafety]
    exact hI.config
  · rw [hbuffer, arrival_append e h he]
    exact hI.view
  · rw [hbuffer, arrivals_append e h he]
    exact hI.newest
  · rw [hbuffer, hclock]
    exact hI.clock
  · obtain ⟨x, hx, hfaults⟩ := hI.fault (hsafety ▸ hfault)
    exact ⟨x, List.mem_append_right _ hx, hfaults⟩

theorem timed_update (hI : TimedInv cfg s h) (hpc : s.loop.pc = .update) :
    ∃ x ∈ held h, s.loop.target = some x.1 ∧
      ∃ last, x.2 ≤ last ∧ last ≤ s.loop.nowNs ∧ s.loop.gapMs = gapMs s.loop.nowNs last ∧
        ∀ t ∈ arrivals h, t < s.loop.nowNs → t ≤ last := by
  have htimed := hI.timed
  rwa [Timed, hpc] at htimed

theorem timedInv_loop (hI : TimedInv cfg s h) (env : Env) (hnow : s.clockNs = env.nowNs) :
    TimedInv cfg (loopStep cfg s env).1 ((loopStep cfg s env).2.toList ++ h) := by
  cases hpc : s.loop.pc with
  | getLatest =>
    simp only [loopStep, hpc, Option.toList_some, List.singleton_append]
    have hview := hI.view
    refine ⟨hI.config, hview, hI.newest, hI.clock, hI.read, ?_, fun hfault => ?_⟩
    · cases hlatest : s.buffer.getLatest with
      | none => trivial
      | some p =>
        refine ⟨(p, s.buffer.lastReceiveTimeNs), ?_, rfl, UInt64.le_refl _⟩
        rw [TeleopStateBuffer.view, hlatest] at hview
        exact hview.symm
    · obtain ⟨x, hx, hfaults⟩ := hI.fault hfault
      exact ⟨x, List.mem_cons_of_mem _ hx, hfaults⟩
  | nowNs =>
    have htimed := hI.timed
    rw [Timed, hpc] at htimed
    obtain ⟨x, hx, htarget, hle⟩ := htimed
    simp only [loopStep, hpc]
    exact hI.goto none rfl rfl rfl (hnow ▸ UInt64.le_refl _)
      ⟨x, hx, htarget, hle, hnow ▸ hI.clock⟩ (by simp)
  | receiveTime =>
    have htimed := hI.timed
    rw [Timed, hpc] at htimed
    obtain ⟨x, hx, htarget, hle, hlast⟩ := htimed
    simp only [loopStep, hpc]
    exact hI.goto none rfl rfl rfl hI.read
      ⟨x, hx, htarget, _, hle, hlast, rfl, fun t ht _ => hI.newest t ht⟩ (by simp)
  | update =>
    obtain ⟨x, -, htarget, -⟩ := timed_update hI hpc
    simp only [loopStep, hpc, htarget, Option.toList_some, List.singleton_append]
    refine ⟨(SafetyManager.update_config _ _ _).trans hI.config, hI.view, hI.newest, hI.clock, hI.read,
      trivial, fun hfault => ?_⟩
    by_cases hbefore : s.safety.state = .fault
    · obtain ⟨e, he, hfaults⟩ := hI.fault hbefore
      exact ⟨e, List.mem_cons_of_mem _ he, hfaults⟩
    · exact ⟨_, List.mem_cons_self, hbefore, hfault⟩
  | exited =>
    simp only [loopStep, hpc]
    exact hI
  | _ =>
    simp only [loopStep, hpc]
    (repeat' split) <;> exact hI.goto _ rfl rfl rfl hI.read trivial (by simp [Event.other])

theorem timedInv_step (hI : TimedInv cfg s h) {act : Action} (hok : NoArrivalBetween s h act)
    {s' : State} {e : Option Event} (hs : Step cfg s act s' e) : TimedInv cfg s' (e.toList ++ h) := by
  cases hs with
  | packet p nowNs hle hvalid =>
    refine (hI.later hle).packet _ fun hpc => ?_
    exact hok hvalid hpc
  | drop p nowNs hle => exact hI.later hle
  | sigint => exact ⟨hI.config, hI.view, hI.newest, hI.clock, hI.read, hI.timed, hI.fault⟩
  | signal x rest _ => exact hI.signal rest x
  | loop env hle => exact timedInv_loop (hI.later hle) env rfl

theorem loopStep_timely [Double.Lawful] (hI : TimedInv cfg s h) (env : Env) {e : Event}
    (he : (loopStep cfg s env).2 = some e) : TimelyUpdate cfg e h := by
  cases hpc : s.loop.pc with
  | update =>
    obtain ⟨x, hx, htarget, last, hle, hlast, hgap, hnewest⟩ := timed_update hI hpc
    have hage : s.loop.gapMs ≤ gapMs s.loop.nowNs x.2 := by
      rw [hgap]
      exact gapMs_mono hle hlast
    simp only [loopStep, hpc, htarget, Option.some.injEq] at he
    subst he
    refine ⟨x, hx, rfl, UInt64.le_trans hle hlast, hage, fun hafter hbefore => ?_⟩
    have hdisable := SafetyManager.update_fault _ _ _ hafter hbefore
    rw [hI.config] at hdisable
    refine ⟨Double.le_trans hdisable hage, fun t ht hlt => Double.le_trans hdisable ?_⟩
    rw [hgap]
    exact gapMs_mono (hnewest t ht hlt) hlast
  | _ =>
    simp only [loopStep, hpc] at he
    (repeat' split at he) <;> cases he <;> trivial

/-- **No fault without a silence.** In a run where no packet comes in between the two reads of an
iteration, each update is given a gap that is at most the age of its packet, and the arm faults
only at an update before which no packet has come in for too long. -/
theorem no_spurious_fault [Double.Lawful] (cfg : Config) (s : State) (h : List Event)
    (hr : (machine cfg).RunWhere NoArrivalBetween s h) :
    Always (TimelyUpdate cfg) h ∧ (s.safety.state = .fault → ∃ e ∈ h, e.faults) := by
  have hall := hr.always (I := TimedInv cfg) (P := TimelyUpdate cfg) (timedInv_start cfg)
    (fun s h act s' e hI hok hs => timedInv_step hI hok (step_cases cfg s act s' e hs)) ?_
  · exact ⟨hall.2, hall.1.fault⟩
  intro s h act s' e hI hok hs
  generalize he : some e = x at hs
  cases step_cases cfg s act s' x hs with
  | loop env hle => exact loopStep_timely (hI.later hle) env he.symm
  | packet => cases he; trivial
  | _ => cases he

end Machine

/-! ## Runs -/

section Exact

attribute [local instance] Rounding.exact

/-- A packet each 2 ms, and an iteration in between. -/
theorem no_spurious_fault_tracking :
    ∃ s h, (machine follower).RunWhere NoArrivalBetween s h ∧ s.safety.state = .active ∧
      Always (TimelyUpdate follower) h := by
  obtain ⟨s, h, hr, hs⟩ := (machine follower).exists_runWhere NoArrivalBetween
    (.packet (datagram 0 1) 0 :: loops 6 1000000 ++
      [.packet (datagram 1 1) 2000000])
    (fun s _ => s.safety.state = .active) (by decide +kernel)
  have := Double.exact_lawful
  exact ⟨s, h, hr, hs, (no_spurious_fault follower s h hr).1⟩

/-- A packet comes in 1 ns after the clock was read, and 1 ms after the last one. The gap wraps
around and the arm faults. -/
theorem spurious_fault :
    ∃ s h, (machine follower).Runs s h ∧ s.safety.state = .fault ∧
      ¬ Always (TimelyUpdate follower) h :=
  (machine follower).exists_violation (TimelyUpdate follower)
    (.packet (datagram 0 1) 0 :: loops 4 1000000 ++
      [.packet (datagram 1 1) 1000001] ++ loops 2 1000001)
    (fun s _ => s.safety.state = .fault) (by decide +kernel)

end Exact

end OpenArmTeleop.Follower.Single
