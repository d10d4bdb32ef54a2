import OpenArmTeleop.Follower.Steps

/-!
# One motion source per arm

While a thread is between its first and its last interpolation step for an arm, nothing else
commands that arm, as far as requests and streaming wait for the threads.
-/

open Num Run OpenArmTeleop.Net OpenArmTeleop.Core OpenArmTeleop.Control OpenArmTeleop.Safety

namespace OpenArmTeleop.Follower

/-! ## What a history says about a thread -/

def isStep (i : ℕ) (a : ArmSide) : Event → Bool
  | .interpolate j b _ _ => j = i ∧ b = a
  | _ => false

def stepsOf (h : List Event) (i : ℕ) (a : ArmSide) : ℕ := h.countP (isStep i a)

/-- Thread `i` is between its first and its last step for arm `a`. -/
def Between (h : List Event) (i : ℕ) (a : ArmSide) : Prop :=
  0 < stepsOf h i a ∧ stepsOf h i a < nstep

instance (h : List Event) (i : ℕ) (a : ArmSide) : Decidable (Between h i a) :=
  inferInstanceAs (Decidable (_ ∧ _))

/-- A command comes while thread `j`, which does not issue it, is on its way. -/
def Clash (j : ℕ) : Event → List Event → Prop
  | .unilateralStep a, h => Between h j a
  | .interpolate i a _ _, h => j ≠ i ∧ Between h j a
  | _, _ => False

instance (j : ℕ) : ∀ e h, Decidable (Clash j e h)
  | .unilateralStep a, h => inferInstanceAs (Decidable (Between h j a))
  | .interpolate i a _ _, h => inferInstanceAs (Decidable (j ≠ i ∧ Between h j a))
  | .received _, _ | .requested _, _ | .taken _, _ | .estop _, _ | .commandReset _, _
  | .motionReset _, _ | .iteration, _ | .enableAll _, _ | .disableAll _, _
  | .safetyUpdate .., _ | .applied .., _ | .feedback .., _ => isFalse id

/-- No thread is on its way when another source commands the arm. -/
def OneSource (e : Event) (h : List Event) : Prop := ∀ j, ¬ Clash j e h

theorem stepsOf_append (e : Option Event) (h : List Event) (i : ℕ) (a : ArmSide) :
    stepsOf (e.toList ++ h) i a = stepsOf e.toList i a + stepsOf h i a :=
  List.countP_append

/-! ## Threads -/

def Motion.Live (m : Motion) : Prop := m.phase ≠ .done

def Motion.Busy (m : Motion) : Prop :=
  m.phase = .sleeping ∨ m.phase = .moving ∧ ∃ a, (m.arms a).issued < nstep

instance (m : Motion) : Decidable m.Busy :=
  inferInstanceAs (Decidable (_ ∨ _ ∧ ∃ a, (m.arms a).issued < nstep))

/-- An arm has returned only after all its steps, and the thread goes on only after both. -/
structure Motion.Sound (m : Motion) : Prop where
  returned : ∀ a, (m.arms a).returned = true → nstep ≤ (m.arms a).issued
  joined : m.phase ≠ .sleeping → m.phase ≠ .moving → ∀ a, nstep ≤ (m.arms a).issued

theorem Motion.Busy.live {m : Motion} (h : m.Busy) : m.Live := by
  rcases h with h | ⟨h, -⟩ <;> simp [Motion.Live, h]

theorem Motion.Sound.busy {m : Motion} (h : m.Sound) (a : ArmSide) (ha : (m.arms a).issued < nstep) :
    m.Busy := by
  by_contra hb
  rw [Motion.Busy, not_or, not_and_or] at hb
  rcases hb.2 with hm | hm
  · exact absurd (h.joined hb.1 hm a) (by omega)
  · exact hm ⟨a, ha⟩

theorem Motion.sound_new [Rounding] (kind : Option MotionKind) (target : List Double) :
    (Motion.new kind target).Sound := by
  refine ⟨fun a => nofun, fun hs hm => ?_⟩
  simp only [Motion.new] at hs hm
  split at hm
  · rename_i h
    exact absurd (if_pos h) hs
  · exact absurd rfl hm

@[simp] theorem setArm_arms (m : Motion) (a b : ArmSide) (arm : ArmMotion) :
    (m.setArm a arm).arms b = if b = a then arm else m.arms b := by
  simp [Motion.setArm, Function.update_apply]

theorem arrive_kind (m : Motion) (a : ArmSide) : (m.arrive a).kind = m.kind := by
  unfold Motion.arrive
  dsimp only
  split <;> rfl

theorem arrive_arms (m : Motion) (a b : ArmSide) :
    (m.arrive a).arms b = if b = a then { m.arms a with returned := true } else m.arms b := by
  unfold Motion.arrive
  dsimp only
  split <;> exact setArm_arms m a b _

theorem arrive_issued (m : Motion) (a b : ArmSide) :
    ((m.arrive a).arms b).issued = (m.arms b).issued := by
  rw [arrive_arms]
  split <;> simp_all

/-- The thread goes on, to its resets or its end, when both arms have returned. -/
theorem arrive_phase (m : Motion) (a : ArmSide) :
    (m.arrive a).phase = m.phase ∨
      (m.arrive a).phase ≠ .sleeping ∧ (m.arrive a).phase ≠ .moving ∧
        ∀ b, ((m.arrive a).arms b).returned = true := by
  unfold Motion.arrive
  dsimp only
  split
  · rename_i hboth
    rw [Bool.and_eq_true] at hboth
    refine .inr ⟨by split <;> nofun, by split <;> nofun, fun b => ?_⟩
    cases b with
    | right => exact hboth.1
    | left => exact hboth.2
  · exact .inl rfl

structure Motion.Stepped (i : ℕ) (m m' : Motion) (e : Option Event) : Prop where
  live : m.Live
  kind : m'.kind = m.kind
  busy : m'.Busy → m.Busy
  sound : m.Sound → m'.Sound
  issued : ∀ b, (m'.arms b).issued = (m.arms b).issued + stepsOf e.toList i b

theorem arrive_stepped (i : ℕ) (m : Motion) (a : ArmSide) (hm : m.phase = .moving)
    (ha : ¬ (m.arms a).issued < nstep) : m.Stepped i (m.arrive a) none := by
  have hreturned : m.Sound →
      ∀ b, ((m.arrive a).arms b).returned = true → nstep ≤ ((m.arrive a).arms b).issued := by
    intro hs b hret
    rw [arrive_issued]
    rw [arrive_arms] at hret
    split at hret
    · rename_i hb
      subst hb
      omega
    · exact hs.returned b hret
  refine ⟨by simp [Motion.Live, hm], arrive_kind m a, ?_, fun hs => ⟨hreturned hs, ?_⟩, ?_⟩
  · rintro (h | ⟨-, b, hb⟩)
    · rcases arrive_phase m a with hphase | ⟨hsleep, -⟩
      · rw [hphase, hm] at h
        cases h
      · exact absurd h hsleep
    · exact .inr ⟨hm, b, by rwa [arrive_issued] at hb⟩
  · intro _ hmove b
    rcases arrive_phase m a with hphase | ⟨-, -, hboth⟩
    · exact absurd (hphase.trans hm) hmove
    · exact hreturned hs b (hboth b)
  · intro b
    rw [arrive_issued]
    rfl

/-- The thread that clears the flag of a request ends with that. -/
theorem motionStep_stepped [Rounding] (s : State) {i : ℕ} {a : ArmSide}
    {measured : Measured Double} {m : Motion} {s' : State} {e : Option Event}
    (h : MotionStep s i a measured m s' e) :
    ∃ m', s'.motions = s.motions.set i m' ∧ m.Stepped i m' e ∧
      ∀ k, s'.inProgress k = s.inProgress k ∨ m.kind = some k ∧ ¬ m'.Live := by
  cases h with
  | wake hm =>
    refine ⟨_, rfl, ⟨by simp [Motion.Live, hm], rfl, fun _ => .inl hm, fun hs => ⟨hs.returned, ?_⟩,
      fun _ => rfl⟩, fun _ => .inl rfl⟩
    exact fun _ h => absurd rfl h
  | begin hm =>
    refine ⟨_, rfl, ⟨by simp [Motion.Live, hm], rfl, ?_, fun hs => ⟨fun b => ?_, ?_⟩,
      fun b => ?_⟩, fun _ => .inl rfl⟩
    · rintro (h | ⟨-, b, hb⟩)
      · exact .inl h
      · refine .inr ⟨hm, b, ?_⟩
        rw [setArm_arms] at hb
        split at hb <;> simp_all
    · rw [setArm_arms]
      split
      · rename_i hb
        subst hb
        exact hs.returned b
      · exact hs.returned b
    · exact fun _ h => absurd hm h
    · rw [setArm_arms]
      split <;> simp_all [stepsOf]
  | issue command hm hlt =>
    refine ⟨_, rfl, ⟨by simp [Motion.Live, hm], rfl, fun _ => .inr ⟨hm, a, hlt⟩,
      fun hs => ⟨fun b => ?_, ?_⟩, fun b => ?_⟩, fun _ => .inl rfl⟩
    · rw [setArm_arms]
      split
      · rename_i hb
        subst hb
        exact fun hret => (hs.returned b hret).trans (Nat.le_succ _)
      · exact hs.returned b
    · exact fun _ h => absurd hm h
    · rw [setArm_arms]
      split <;> simp_all [stepsOf, isStep, eq_comm]
  | arrive hm ha => exact ⟨_, rfl, arrive_stepped i m a hm ha, fun _ => .inl rfl⟩
  | reset b hm =>
    refine ⟨_, rfl, ⟨by simp [Motion.Live, hm], rfl, ?_, fun hs => ⟨hs.returned, ?_⟩,
      fun _ => ?_⟩, fun _ => .inl rfl⟩
    · rintro (h | ⟨h, -⟩) <;> cases b <;> cases h
    · exact fun _ _ => hs.joined (by simp [hm]) (by simp [hm])
    · simp [stepsOf, isStep]
  | clear hm =>
    refine ⟨{ m with phase := .done }, ?_, ⟨by simp [Motion.Live, hm], rfl, ?_,
      fun hs => ⟨hs.returned, ?_⟩, fun _ => rfl⟩, fun k => ?_⟩
    · rw [clearFlag_motions]
      rfl
    · rintro (h | ⟨h, -⟩) <;> cases h
    · exact fun _ _ => hs.joined (by simp [hm]) (by simp [hm])
    · cases hk : m.kind with
      | none => exact .inl rfl
      | some j =>
        rcases eq_or_ne k j with rfl | hkj
        · exact .inr ⟨rfl, fun h => h rfl⟩
        · exact .inl (Function.update_of_ne hkj ..)

/-! ## The control loop -/

/-- The request whose motion the loop is about to start. -/
def Pc.preparing : Pc → Option MotionKind
  | .mark k | .spawn k | .resetSafety k _ | .clear k => some k
  | .enable _ => some .recover
  | .copyTarget => some .goto
  | _ => none

def Pc.streaming : Pc → Bool
  | .stream _ | .unilateralStep _ | .disableAll _ => true
  | _ => false

theorem next_preparing (cfg : Config) (s : State) (k : MotionKind)
    (h : (next cfg s).preparing = some k) :
    s.loop.pc.preparing = some k ∧ s.loop.pc ≠ .clear k ∨
      s.loop.pc = .exchange k ∧ s.requested k = true ∧ next cfg s = .mark k := by
  have hflow := next_flow (P := fun _ pc pc' => ∀ k, pc'.preparing = some k →
    pc.preparing = some k ∧ pc ≠ .clear k ∨ pc = .exchange k) (by decide +kernel)
  rcases hflow cfg s k h with h' | hpc
  · exact .inl h'
  · refine .inr ⟨hpc, ?_⟩
    simp only [next, hpc] at h ⊢
    split at h
    · rename_i hk
      exact ⟨hk, if_pos hk⟩
    · cases k <;> simp [afterRequest, Pc.preparing] at h

theorem next_guardRecover (cfg : Config) (s : State) (h : next cfg s = .guardRecover) :
    s.loop.pc = .guardInit ∧ s.inProgress .init = false := by
  have hflow := next_flow (P := fun _ pc pc' => pc' = .guardRecover → pc = .guardInit)
    (by decide +kernel)
  have hpc := hflow cfg s h
  refine ⟨hpc, ?_⟩
  simp only [next, hpc] at h
  split at h
  · cases h
  · simp_all

theorem next_streaming (cfg : Config) (s : State) (h : (next cfg s).streaming = true) :
    s.loop.pc.streaming = true ∨ s.loop.pc = .guardRecover ∧ s.inProgress .recover = false := by
  have hflow := next_flow (P := fun _ pc pc' => pc'.streaming = true →
    pc.streaming = true ∨ pc = .guardRecover) (by decide +kernel)
  rcases hflow cfg s h with h' | hpc
  · exact .inl h'
  · refine .inr ⟨hpc, ?_⟩
    simp only [next, hpc] at h
    split at h
    · cases h
    · simp_all

/-! ## The invariant -/

/-- A request is taken up when no thread has steps left and its own flag is clear, and the
streaming branch is entered when no `goto_pose` is in progress. -/
def Exclusive (s : State) (_ : List Event) : Action → Prop
  | .loop _ =>
    (∀ k, s.loop.pc = .exchange k → s.requested k = true →
      (∀ m ∈ s.motions, ¬ m.Busy) ∧ s.inProgress k = false) ∧
    (s.loop.pc = .guardRecover → s.inProgress .recover = false → s.inProgress .goto = false)
  | _ => True

instance (s : State) (h : List Event) (act : Action) : Decidable (Exclusive s h act) :=
  match act with
  | .loop _ => inferInstanceAs (Decidable (_ ∧ _))
  | .receive _ | .control | .sigint | .signal | .packet .. | .motion .. => isTrue trivial

/-- The flags tell which threads are on their way. -/
structure SourceInv (s : State) (h : List Event) : Prop where
  steps : ∀ i a, stepsOf h i a = (s.motions[i]?.map fun m => (m.arms a).issued).getD 0
  sound : ∀ m ∈ s.motions, m.Sound
  kinds : ∀ (i j : ℕ) (m m' : Motion), s.motions[i]? = some m → s.motions[j]? = some m' →
    m.Live → m'.Live → m.kind = m'.kind → i = j
  busy : ∀ (i j : ℕ) (m m' : Motion), s.motions[i]? = some m → s.motions[j]? = some m' →
    m.Busy → m'.Busy → i = j
  flag : ∀ m ∈ s.motions, m.Live → ∀ k, m.kind = some k → s.inProgress k = true
  startup : ∀ m ∈ s.motions, m.Live → m.kind = none → s.loop.pc = .startup
  preparing : ∀ k, s.loop.pc.preparing = some k →
    (∀ m ∈ s.motions, ¬ m.Busy ∧ (m.Live → m.kind ≠ some k)) ∧
      (s.loop.pc = .mark k ∨ s.inProgress k = true)
  entering : s.loop.pc = .guardRecover → ∀ m ∈ s.motions, m.Live → m.kind ≠ some .init
  streaming : s.loop.pc.streaming = true → ∀ m ∈ s.motions, ¬ m.Live

section Threads

variable (s : State)

/-- A live thread of the loop's program is there for a request whose flag is set. -/
theorem SourceInv.live_kind {h : List Event} (hI : SourceInv s h) (hpc : s.loop.pc ≠ .startup)
    {m : Motion} (hm : m ∈ s.motions) (hlive : m.Live) :
    ∃ k, m.kind = some k ∧ s.inProgress k = true := by
  cases hk : m.kind with
  | none => exact absurd (hI.startup m hm hlive hk) hpc
  | some k => exact ⟨k, rfl, hI.flag m hm hlive k hk⟩

theorem sourceInv_congr {h : List Event} (hI : SourceInv s h) {s' : State} {e : Option Event}
    (hmotions : s'.motions = s.motions) (hflags : s'.inProgress = s.inProgress)
    (hloop : s'.loop = s.loop) (he : ∀ i a, stepsOf e.toList i a = 0) :
    SourceInv s' (e.toList ++ h) := by
  refine ⟨fun i a => ?_, ?_, ?_, ?_, ?_, ?_, ?_, ?_, ?_⟩
  · rw [stepsOf_append, he, Nat.zero_add, hmotions]
    exact hI.steps i a
  all_goals rw [hmotions]
  · exact hI.sound
  · exact hI.kinds
  · exact hI.busy
  · rw [hflags]
    exact hI.flag
  · rw [hloop]
    exact hI.startup
  · rw [hloop, hflags]
    exact hI.preparing
  · rw [hloop]
    exact hI.entering
  · rw [hloop]
    exact hI.streaming

theorem getElem?_set_cases {i j : ℕ} {m' x : Motion} (h : (s.motions.set i m')[j]? = some x) :
    j = i ∧ x = m' ∨ j ≠ i ∧ s.motions[j]? = some x := by
  rw [List.getElem?_set] at h
  split at h
  · split at h
    · exact .inl ⟨by omega, (Option.some.inj h).symm⟩
    · cases h
  · exact .inr ⟨by omega, h⟩

theorem SourceInv.between {h : List Event} (hI : SourceInv s h) {i : ℕ} {a : ArmSide}
    (hb : Between h i a) : ∃ m, s.motions[i]? = some m ∧ m.Busy := by
  obtain ⟨hpos, hlt⟩ := hb
  rw [hI.steps] at hpos hlt
  cases hget : s.motions[i]? with
  | none => simp [hget] at hpos
  | some m =>
    simp only [hget, Option.map_some, Option.getD_some] at hlt
    exact ⟨m, rfl, (hI.sound m (List.mem_of_getElem? hget)).busy a hlt⟩

end Threads

section Invariant

variable [Rounding] (cfg : Config) (s : State)

theorem sourceInv_start : SourceInv (State.start cfg) [] := by
  have hmotions : (State.start cfg).motions = [] ∨ (State.start cfg).motions = [Motion.new none []] := by
    simp only [State.start]
    split
    · exact .inl rfl
    · exact .inr rfl
  have hkind : ∀ m ∈ (State.start cfg).motions, m.kind = none := by
    intro m hm
    rcases hmotions with h | h <;> rw [h] at hm
    · cases hm
    · rw [List.mem_singleton.mp hm]
      rfl
  have hindex : ∀ (i : ℕ) m, (State.start cfg).motions[i]? = some m → i = 0 := by
    intro i m hm
    rcases hmotions with h | h <;> rw [h] at hm <;> cases i <;> simp_all
  refine ⟨?_, ?_, ?_, ?_, ?_, fun _ _ _ _ => rfl, nofun, nofun, nofun⟩
  · intro i a
    rcases hmotions with h | h <;> rw [h] <;> cases i <;> simp [stepsOf, Motion.new, ArmMotion.new]
  · intro m hm
    rcases hmotions with h | h <;> rw [h] at hm
    · cases hm
    · rw [List.mem_singleton.mp hm]
      exact Motion.sound_new none []
  · intro i j m m' hi hj _ _ _
    rw [hindex i m hi, hindex j m' hj]
  · intro i j m m' hi hj _ _
    rw [hindex i m hi, hindex j m' hj]
  · intro m hm _ k hk
    rw [hkind m hm] at hk
    cases hk

theorem sourceInv_motion {h : List Event} (hI : SourceInv s h) {i : ℕ} {a : ArmSide}
    {measured : Measured Double} {m : Motion} {s' : State} {e : Option Event}
    (hget : s.motions[i]? = some m) (hm : MotionStep s i a measured m s' e) :
    SourceInv s' (e.toList ++ h) := by
  obtain ⟨m', hset, hst, hflags⟩ := motionStep_stepped s hm
  have hloop := (motionStep_loop s hm).1
  have hmem := List.mem_of_getElem? hget
  have hlen : i < s.motions.length := (List.getElem?_eq_some_iff.mp hget).1
  -- a live thread after the step was live before, with the same kind
  have hbackAt : ∀ (j : ℕ) x, (s.motions.set i m')[j]? = some x → x.Live →
      ∃ y, s.motions[j]? = some y ∧ y.Live ∧ y.kind = x.kind ∧ (x.Busy → y.Busy) := by
    intro j x hx hlive
    rcases getElem?_set_cases s hx with ⟨rfl, rfl⟩ | ⟨-, hj⟩
    · exact ⟨m, hget, hst.live, hst.kind.symm, hst.busy⟩
    · exact ⟨x, hj, hlive, rfl, id⟩
  have hback : ∀ x ∈ s.motions.set i m', x.Live → ∃ y ∈ s.motions, y.Live ∧ y.kind = x.kind ∧
      (x.Busy → y.Busy) := by
    intro x hx hlive
    obtain ⟨j, hj⟩ := List.mem_iff_getElem?.mp hx
    obtain ⟨y, hy, hrest⟩ := hbackAt j x hj hlive
    exact ⟨y, List.mem_of_getElem? hy, hrest⟩
  refine ⟨fun j b => ?_, ?_, ?_, ?_, ?_, ?_, ?_, ?_, ?_⟩
  · rw [stepsOf_append, hI.steps, hset, List.getElem?_set]
    by_cases hij : i = j
    · subst hij
      simp only [if_pos, hlen, hget, hst.issued, Option.map_some, Option.getD_some, Nat.add_comm]
    · have hzero : stepsOf e.toList j b = 0 := by
        cases hm <;> simp [stepsOf, isStep, hij]
      rw [if_neg hij, hzero, Nat.zero_add]
  all_goals rw [hset]
  · intro x hx
    rcases List.mem_or_eq_of_mem_set hx with hx | rfl
    · exact hI.sound x hx
    · exact hst.sound (hI.sound m hmem)
  · intro j l x y hx hy hxl hyl hkind
    obtain ⟨x', hx', hxl', hxk, -⟩ := hbackAt j x hx hxl
    obtain ⟨y', hy', hyl', hyk, -⟩ := hbackAt l y hy hyl
    exact hI.kinds j l x' y' hx' hy' hxl' hyl' (by rw [hxk, hyk, hkind])
  · intro j l x y hx hy hxb hyb
    obtain ⟨x', hx', -, -, hxb'⟩ := hbackAt j x hx hxb.live
    obtain ⟨y', hy', -, -, hyb'⟩ := hbackAt l y hy hyb.live
    exact hI.busy j l x' y' hx' hy' (hxb' hxb) (hyb' hyb)
  · intro x hx hlive k hk
    obtain ⟨y, hy, hylive, hykind, -⟩ := hback x hx hlive
    rcases hflags k with hsame | ⟨hmk, hdone⟩
    · rw [hsame]
      exact hI.flag y hy hylive k (hykind.trans hk)
    -- the thread that clears the flag is the only live one of its kind
    · obtain ⟨j, hj⟩ := List.mem_iff_getElem?.mp hx
      rcases getElem?_set_cases s hj with ⟨-, rfl⟩ | ⟨hji, hj⟩
      · exact absurd hlive hdone
      · exact absurd (hI.kinds j i x m hj hget hlive hst.live (hk.trans hmk.symm)) hji
  · intro x hx hlive hkind
    obtain ⟨y, hy, hylive, hykind, -⟩ := hback x hx hlive
    rw [hloop]
    exact hI.startup y hy hylive (hykind.trans hkind)
  · intro k hk
    rw [hloop] at hk ⊢
    obtain ⟨hall, hflag⟩ := hI.preparing k hk
    refine ⟨fun x hx => ⟨fun hbusy => ?_, fun hlive hkind => ?_⟩, hflag.imp_right fun hset' => ?_⟩
    · obtain ⟨y, hy, -, -, hybusy⟩ := hback x hx hbusy.live
      exact (hall y hy).1 (hybusy hbusy)
    · obtain ⟨y, hy, hylive, hykind, -⟩ := hback x hx hlive
      exact (hall y hy).2 hylive (hykind.trans hkind)
    · rcases hflags k with hsame | ⟨hmk, -⟩
      · rw [hsame, hset']
      · exact absurd hmk ((hall m hmem).2 hst.live)
  · intro hpc x hx hlive hkind
    obtain ⟨y, hy, hylive, hykind, -⟩ := hback x hx hlive
    exact hI.entering (hloop ▸ hpc) y hy hylive (hykind.trans hkind)
  · intro hpc x hx hlive
    obtain ⟨y, hy, hylive, -, -⟩ := hback x hx hlive
    exact hI.streaming (hloop ▸ hpc) y hy hylive

theorem loopStep_stepsOf (env : Env) (i : ℕ) (a : ArmSide) :
    stepsOf (loopStep cfg s env).2.toList i a = 0 := by
  cases he : (loopStep cfg s env).2 with
  | none => rfl
  | some x => cases loopStep_records cfg s env he <;> rfl

theorem sourceInv_spawn {h : List Event} (hI : SourceInv s h) (env : Env) {k : MotionKind}
    (hpc : s.loop.pc = .spawn k) :
    SourceInv (loopStep cfg s env).1 ((loopStep cfg s env).2.toList ++ h) := by
  obtain ⟨hall, hflag⟩ := hI.preparing k (by rw [hpc]; rfl)
  have hset : s.inProgress k = true := hflag.resolve_left (by simp [hpc])
  have hnext : next cfg s = afterRequest k := by simp [next, hpc]
  have hflags : (loopStep cfg s env).1.inProgress = s.inProgress := by
    funext j
    simp [loopStep_inProgress, hpc]
  have hmotions : (loopStep cfg s env).1.motions = s.motions ++ [Motion.new (some k) s.loop.goal] := by
    simp [loopStep_motions, hpc]
  have hcases : ∀ {j : ℕ} {x : Motion},
      (s.motions ++ [Motion.new (some k) s.loop.goal])[j]? = some x →
      s.motions[j]? = some x ∨ j = s.motions.length ∧ x = Motion.new (some k) s.loop.goal := by
    intro j x hx
    rw [List.getElem?_append] at hx
    split at hx
    · exact .inl hx
    · rw [List.getElem?_singleton] at hx
      split at hx
      · exact .inr ⟨by omega, (Option.some.inj hx).symm⟩
      · cases hx
  have hmem : ∀ {x : Motion}, x ∈ s.motions ++ [Motion.new (some k) s.loop.goal] →
      x ∈ s.motions ∨ x = Motion.new (some k) s.loop.goal := by
    intro x hx
    simpa using hx
  refine ⟨fun i a => ?_, ?_, ?_, ?_, ?_, ?_, ?_, ?_, ?_⟩
  · rw [stepsOf_append, loopStep_stepsOf, Nat.zero_add, hI.steps, hmotions, List.getElem?_append]
    split
    · rfl
    · rename_i hlen
      rw [List.getElem?_eq_none (by omega), List.getElem?_singleton]
      split <;> rfl
  all_goals rw [hmotions]
  · intro x hx
    rcases hmem hx with hx | rfl
    · exact hI.sound x hx
    · exact Motion.sound_new _ _
  · intro i j x y hx hy hxl hyl hkind
    rcases hcases hx with hx | ⟨rfl, rfl⟩ <;> rcases hcases hy with hy | ⟨rfl, rfl⟩
    · exact hI.kinds i j x y hx hy hxl hyl hkind
    · exact absurd hkind ((hall x (List.mem_of_getElem? hx)).2 hxl)
    · exact absurd hkind.symm ((hall y (List.mem_of_getElem? hy)).2 hyl)
    · rfl
  · intro i j x y hx hy hxb hyb
    rcases hcases hx with hx | ⟨rfl, rfl⟩
    · exact absurd hxb (hall x (List.mem_of_getElem? hx)).1
    · rcases hcases hy with hy | ⟨rfl, rfl⟩
      · exact absurd hyb (hall y (List.mem_of_getElem? hy)).1
      · rfl
  · intro x hx hlive j hj
    rw [hflags]
    rcases hmem hx with hx | rfl
    · exact hI.flag x hx hlive j hj
    · obtain rfl := Option.some.inj hj
      exact hset
  · intro x hx hlive hkind
    rcases hmem hx with hx | rfl
    · rw [hI.startup x hx hlive hkind] at hpc
      cases hpc
    · cases hkind
  all_goals rw [loopStep_pc, hnext]
  · intro j hj
    cases k <;> cases hj
  · intro h
    cases k <;> cases h
  · intro h
    cases k <;> cases h

theorem sourceInv_loop {h : List Event} (hI : SourceInv s h) (env : Env)
    (hblocked : s.blocked = false) (hok : Exclusive s h (.loop env)) :
    SourceInv (loopStep cfg s env).1 ((loopStep cfg s env).2.toList ++ h) := by
  by_cases hspawn : ∃ k, s.loop.pc = .spawn k
  · obtain ⟨k, hpc⟩ := hspawn
    exact sourceInv_spawn cfg s hI env hpc
  have hmotions : (loopStep cfg s env).1.motions = s.motions := by
    rw [loopStep_motions]
    split
    · exact absurd ⟨_, by assumption⟩ hspawn
    · rfl
  have hkeep : ∀ k, s.inProgress k = true → s.loop.pc ≠ .clear k →
      (loopStep cfg s env).1.inProgress k = true := by
    intro k hset hpc
    rw [loopStep_inProgress, if_neg hpc, hset]
    exact ite_self _
  refine ⟨fun i a => ?_, ?_, ?_, ?_, ?_, ?_, ?_, ?_, ?_⟩
  · rw [stepsOf_append, loopStep_stepsOf, Nat.zero_add, hmotions]
    exact hI.steps i a
  all_goals rw [hmotions]
  · exact hI.sound
  · exact hI.kinds
  · exact hI.busy
  · intro m hm hlive k hk
    refine hkeep k (hI.flag m hm hlive k hk) fun hpc => ?_
    exact ((hI.preparing k (by rw [hpc]; rfl)).1 m hm).2 hlive hk
  · intro m hm hlive hkind
    have hpc := hI.startup m hm hlive hkind
    simp only [State.blocked, hpc, List.any_eq_false, decide_eq_true_eq] at hblocked
    exact absurd hlive (hblocked m hm)
  · intro k hk
    rw [loopStep_pc] at hk ⊢
    rcases next_preparing cfg s k hk with ⟨hk, hclear⟩ | ⟨hpc, hreq, hmark⟩
    · obtain ⟨hall, hflag⟩ := hI.preparing k hk
      refine ⟨hall, .inr ?_⟩
      rcases hflag with hpc | hset
      · rw [loopStep_inProgress, if_pos hpc]
      · exact hkeep k hset hclear
    · obtain ⟨hidle, hclear⟩ := hok.1 k hpc hreq
      refine ⟨fun m hm => ⟨hidle m hm, fun hlive hkind => ?_⟩, .inl hmark⟩
      rw [hI.flag m hm hlive k hkind] at hclear
      cases hclear
  · intro hpc m hm hlive hkind
    rw [loopStep_pc] at hpc
    have hclear := (next_guardRecover cfg s hpc).2
    rw [hI.flag m hm hlive _ hkind] at hclear
    cases hclear
  · intro hpc m hm hlive
    rw [loopStep_pc] at hpc
    rcases next_streaming cfg s hpc with hpc | ⟨hpc, hrecover⟩
    · exact hI.streaming hpc m hm hlive
    · obtain ⟨k, hkind, hset⟩ := hI.live_kind s (by simp [hpc]) hm hlive
      cases k with
      | recover => simp [hrecover] at hset
      | init => exact hI.entering hpc m hm hlive hkind
      | goto => simp [hok.2 hpc hrecover] at hset

theorem sourceInv_step {h : List Event} (hI : SourceInv s h) {act : Action} {s' : State}
    {e : Option Event} (hok : Exclusive s h act) (hs : Step cfg s act s' e) :
    SourceInv s' (e.toList ++ h) := by
  have haccess : ∀ (s : State) x i a, stepsOf (s.access x).2.toList i a = 0 := by
    intro s x i a
    cases x <;> rfl
  cases hs with
  | receive => exact sourceInv_congr s hI rfl rfl rfl fun _ _ => rfl
  | sigint | packet | drop => exact sourceInv_congr s hI rfl rfl rfl fun _ _ => rfl
  | control x rest _ | signal x rest _ =>
    exact sourceInv_congr s hI (access_motions _ x) (access_inProgress _ x) (access_loop _ x)
      (haccess _ x)
  | loop env hblocked => exact sourceInv_loop cfg s hI env hblocked hok
  | motion i a measured m s' e hget hm => exact sourceInv_motion s hI hget hm

end Invariant

/-- **One motion source per arm.** When each request waits until no thread has steps left and
its own flag is clear, and streaming waits for `goto_pose` too, every command to an arm comes
while no other thread is between its first and its last step for it. -/
theorem one_source [Rounding] (cfg : Config) (s : State) (h : List Event)
    (hr : (machine cfg).RunWhere Exclusive s h) : Always OneSource h := by
  refine (hr.always (I := SourceInv) (sourceInv_start cfg) ?_ ?_).2
  · intro s h act s' e hI hok hs
    exact sourceInv_step cfg s hI hok (step_cases cfg s act s' e hs)
  · intro s h act s' e hI hok hs
    have hs := step_cases cfg s act s' _ hs
    cases e with
    | unilateralStep a =>
      intro j hb
      obtain ⟨m, hget, hbusy⟩ := hI.between s hb
      have hpc := step_unilateralStep cfg s hs
      exact hI.streaming (by rw [hpc]; rfl) m (List.mem_of_getElem? hget) hbusy.live
    | interpolate i a n command =>
      rintro j ⟨hji, hb⟩
      obtain ⟨m, hget, hbusy⟩ := hI.between s hb
      obtain ⟨m', hget', hphase, hlt⟩ := step_interpolate cfg s hs
      exact hji (hI.busy j i m m' hget hget' hbusy (.inr ⟨hphase, a, hlt⟩))
    | _ => exact fun _ => id

section Runs

attribute [local instance] Rounding.exact

/-- An `init_position` that the loop waits for, and a command after it. -/
theorem one_source_init :
    ∃ s h, (machine (follower {})).RunWhere Exclusive s h ∧
      (stepsOf h 1 .right = nstep ∧ .unilateralStep .right ∈ h) ∧ Always OneSource h := by
  obtain ⟨s, h, hr, hh⟩ := (machine (follower {})).exists_runWhere Exclusive
    (moveBoth 0 ++ [.packet .right (datagram 0 1) 0, .receive .initPosition, .control] ++
      loops 21 5000000 ++ moveBoth 1 ++ List.replicate 3 (.motion 1 .right still) ++
      loops 16 5000000)
    (fun _ h => stepsOf h 1 .right = nstep ∧ .unilateralStep .right ∈ h) (by decide +kernel)
  exact ⟨s, h, hr, hh, one_source (follower {}) s h hr⟩

theorem not_oneSource {h : List Event} {j : ℕ} (hv : ¬ Always (fun e h => ¬ Clash j e h) h) :
    ¬ Always OneSource h :=
  fun hall => hv (hall.mono fun _ _ hone => hone j)

/-- The loop streams to an arm that `goto_pose` has just begun to move, and the threads of two
requests move an arm at once. -/
theorem two_sources :
    (∃ s h, (machine (follower {})).Runs s h ∧ h.head? = some (.unilateralStep .right) ∧
      ¬ Always OneSource h) ∧
    ∃ s h, (machine (follower {})).Runs s h ∧ (h.head?.any (isStep 2 .right)) = true ∧
      ¬ Always OneSource h := by
  constructor
  · obtain ⟨s, h, hr, hh, hv⟩ := (machine (follower {})).exists_violation (fun e h => ¬ Clash 1 e h)
      (moveBoth 0 ++ [.packet .right (datagram 0 1) 0, .receive (.gotoPose (.replicate 16 0)),
        .control, .control] ++ loops 8 5000000 ++
        List.replicate 2 (.motion 1 .right still) ++ loops 12 5000000)
      (fun _ h => h.head? = some (.unilateralStep .right)) (by decide +kernel)
    exact ⟨s, h, hr, hh, not_oneSource hv⟩
  · obtain ⟨s, h, hr, hh, hv⟩ := (machine (follower {})).exists_violation (fun e h => ¬ Clash 1 e h)
      (moveBoth 0 ++ [.receive .initPosition, .control, .receive (.gotoPose (.replicate 16 0)),
        .control, .control] ++ loops 10 5000000 ++
        List.replicate 2 (.motion 1 .right still) ++ List.replicate 2 (.motion 2 .right still))
      (fun _ h => (h.head?.any (isStep 2 .right)) = true) (by decide +kernel)
    exact ⟨s, h, hr, hh, not_oneSource hv⟩

end Runs

end OpenArmTeleop.Follower
