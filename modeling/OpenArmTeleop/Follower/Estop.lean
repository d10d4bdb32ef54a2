import OpenArmTeleop.Follower.Steps

/-!
# An emergency stop is not lost

After `trigger_estop` an arm gets no position command, and no motion clears the stop, until a
later `recover_estop` or `reset_safety` has been processed, as far as the stop finds nothing
under way.
-/

open Num Run OpenArmTeleop.Net OpenArmTeleop.Core OpenArmTeleop.Control OpenArmTeleop.Safety

namespace OpenArmTeleop.Follower

/-! ## Stops that nobody has answered -/

/-- What has happened since the latest stop of an arm. -/
structure Watch where
  /-- Not answered yet. -/
  pending : Bool
  /-- A `recover_estop` came in. -/
  asked : Bool
  /-- It stands in the flag that the control loop reads. -/
  stored : Bool
  /-- A `reset_safety` came in. -/
  cleared : Bool

def Watch.next (a : ArmSide) (w : Watch) : Event → Watch
  | .estop b => if b = a then ⟨true, false, false, false⟩ else w
  | .received .recoverEstop => { w with asked := true }
  | .received .resetSafety => { w with cleared := true }
  | .requested .recover => { w with stored := w.asked }
  | .taken .recover => { w with pending := w.pending && !w.stored }
  | .commandReset b => if b = a then { w with pending := w.pending && !w.cleared } else w
  | _ => w

def watch (a : ArmSide) : List Event → Watch
  | [] => ⟨false, false, false, false⟩
  | e :: h => (watch a h).next a e

/-- No command since the stop, and no reset by a motion. -/
def NotLost : Event → List Event → Prop
  | .unilateralStep a, h | .interpolate _ a _ _, h | .motionReset a, h =>
    (watch a h).pending = false
  | _, _ => True

instance : ∀ e h, Decidable (NotLost e h)
  | .unilateralStep a, h | .interpolate _ a _ _, h | .motionReset a, h =>
    inferInstanceAs (Decidable ((watch a h).pending = false))
  | .received _, _ | .requested _, _ | .taken _, _ | .estop _, _ | .commandReset _, _
  | .iteration, _ | .enableAll _, _ | .disableAll _, _ | .safetyUpdate .., _ | .applied .., _
  | .feedback .., _ => isTrue trivial

/-! ## What is under way -/

def starts (mock : Bool) : MotionKind → Bool
  | .recover | .init => true
  | .goto => !mock

/-- It neither commands nor resets arm `a` any more. -/
def Motion.over (m : Motion) (a : ArmSide) : Bool :=
  match m.phase with
  | .sleeping => false
  | .moving => m.kind = none && nstep ≤ (m.arms a).issued
  | .resetting b => b = .left && a = .right
  | .clearing | .done => true

/-- What a handler does against a stop of arm `a`. -/
def Access.revives (mock : Bool) (a : ArmSide) : Access → Bool
  | .request k => starts mock k
  | .reset b => b = a
  | _ => false

/-- The loop has taken a request, and has neither spawned its motion nor reset arm `a`. -/
def Pc.starting (mock : Bool) (a : ArmSide) : Pc → Bool
  | .mark k => starts mock k
  | .enable _ | .spawn _ => true
  | .copyTarget => !mock
  | .resetSafety _ b => b = a || b = .right
  | _ => false

/-- The loop has read the state of arm `a`, and may still command it. -/
def Pc.deciding (mock : Bool) : ArmSide → Pc → Bool
  | .right, .getState .left | _, .guardInit => !mock
  | _, .guardRecover | _, .stream .right | .left, .stream .left => true
  | .left, .unilateralStep .right | .left, .disableAll .right => true
  | _, _ => false

/-- Nothing is under way for arm `a`, so that a stop of it is not lost. -/
def Quiet (cfg : Config) (s : State) (a : ArmSide) : Prop :=
  (∀ m ∈ s.motions, m.over a = true) ∧
  (∀ k, s.requested k = true → starts cfg.mock k = false) ∧
  (∀ x ∈ s.control, x.revives cfg.mock a = false) ∧
  s.loop.pc.starting cfg.mock a = false ∧
  (s.loop.pc.deciding cfg.mock a = true → SafetyManager.running (s.loop.st a) = false) ∧
  s.loop.pc ≠ .unilateralStep a

instance (cfg : Config) (s : State) (a : ArmSide) : Decidable (Quiet cfg s a) :=
  inferInstanceAs (Decidable (_ ∧ _ ∧ _ ∧ _ ∧ _ ∧ _))

/-- A stop comes when nothing is under way, and no `init_position` or `goto_pose` comes while a
stop is unanswered. -/
def Orderly (cfg : Config) (s : State) (h : List Event) : Action → Prop
  | .receive c => (∃ a, (watch a h).pending = true) →
    ∀ k, .request k ∈ handler c → starts cfg.mock k = true → k = .recover
  | .control => ∀ a, s.control.head? = some (.triggerEstop a) → Quiet cfg s a
  | .signal => ∀ a, s.signal.head? = some (.triggerEstop a) → Quiet cfg s a
  | _ => True

instance (cfg : Config) (s : State) (h : List Event) (act : Action) :
    Decidable (Orderly cfg s h act) :=
  match act with
  | .receive c => inferInstanceAs (Decidable ((∃ a, (watch a h).pending = true) →
      ∀ k, .request k ∈ handler c → starts cfg.mock k = true → k = .recover))
  | .control => inferInstanceAs (Decidable (∀ _, _ → _))
  | .signal => inferInstanceAs (Decidable (∀ _, _ → _))
  | .sigint | .packet .. | .loop _ | .motion .. => isTrue trivial

/-! ## The control flow of the loop -/

theorem next_starting (cfg : Config) (s : State) (a : ArmSide)
    (h : (next cfg s).starting cfg.mock a = true) :
    s.loop.pc.starting cfg.mock a = true ∨
      ∃ k, s.loop.pc = .exchange k ∧ s.requested k = true ∧ starts cfg.mock k = true := by
  have hflow := next_flow (P := fun mock pc pc' => ∀ a, pc'.starting mock a = true →
    pc.starting mock a = true ∨ ∃ k, pc = .exchange k ∧ starts mock k = true) (by decide +kernel)
  rcases hflow cfg s a h with h' | ⟨k, hpc, hstarts⟩
  · exact .inl h'
  · refine .inr ⟨k, hpc, ?_, hstarts⟩
    simp only [next, hpc] at h
    split at h
    · assumption
    · cases k <;> cases h

theorem next_deciding (cfg : Config) (s : State) (a : ArmSide)
    (h : (next cfg s).deciding cfg.mock a = true) :
    s.loop.pc = .getState a ∨
      s.loop.pc ≠ .getState a ∧ s.loop.pc.deciding cfg.mock a = true := by
  have hflow := next_flow (P := fun mock pc pc' => ∀ a, pc'.deciding mock a = true →
    pc = .getState a ∨ pc ≠ .getState a ∧ pc.deciding mock a = true) (by decide +kernel)
  exact hflow cfg s a h

/-! ## The invariant -/

/-- What the handler still does has been asked for since the stop. -/
def Access.Answers (mock : Bool) (a : ArmSide) (w : Watch) : Access → Prop
  | .request k => starts mock k = true → k = .recover ∧ w.asked = true
  | .reset b => b = a → w.cleared = true
  | _ => True

/-- While a stop of arm `a` is unanswered it is latched, and nothing is under way but answers. -/
structure EstopInv (cfg : Config) (a : ArmSide) (s : State) (w : Watch) : Prop where
  latched : (s.safety a).estopTriggered = true ∧ (s.safety a).state = .estop
  motions : ∀ m ∈ s.motions, m.over a = true
  requests : ∀ k, s.requested k = true → starts cfg.mock k = true → k = .recover ∧ w.stored = true
  control : ∀ x ∈ s.control, x.Answers cfg.mock a w
  starting : s.loop.pc.starting cfg.mock a = false
  deciding : s.loop.pc.deciding cfg.mock a = true → SafetyManager.running (s.loop.st a) = false
  command : s.loop.pc ≠ .unilateralStep a

theorem watch_append (a : ArmSide) (e : Option Event) (h : List Event) :
    watch a (e.toList ++ h) = (e.map ((watch a h).next a)).getD (watch a h) := by
  cases e <;> rfl

section Handlers

variable {cfg : Config} {a : ArmSide} {s s' : State} {w : Watch}

theorem EstopInv.congr (hI : EstopInv cfg a s w) (hsafety : s'.safety a = s.safety a)
    (hmotions : s'.motions = s.motions) (hrequested : s'.requested = s.requested)
    (hcontrol : ∀ x ∈ s'.control, x ∈ s.control) (hloop : s'.loop = s.loop) :
    EstopInv cfg a s' w := by
  refine ⟨?_, ?_, ?_, fun x hx => hI.control x (hcontrol x hx), ?_, ?_, ?_⟩
  · rw [hsafety]
    exact hI.latched
  · rw [hmotions]
    exact hI.motions
  · rw [hrequested]
    exact hI.requests
  all_goals rw [hloop]
  · exact hI.starting
  · exact hI.deciding
  · exact hI.command

theorem Quiet.estopInv (hq : Quiet cfg s a) :
    EstopInv cfg a (s.setSafety a (s.safety a).triggerEstop) ⟨true, false, false, false⟩ := by
  obtain ⟨hmotions, hrequests, hcontrol, hstarting, hdeciding, hcommand⟩ := hq
  refine ⟨by simp [setSafety_apply], hmotions, ?_, ?_, hstarting, hdeciding, hcommand⟩
  · intro k hk hstarts
    rw [hrequests k hk] at hstarts
    cases hstarts
  · intro x hx
    have hrevives := hcontrol x hx
    cases x with
    | request k =>
      intro hstarts
      exact absurd (hstarts.symm.trans hrevives) nofun
    | reset b => exact fun hb => absurd hb (of_decide_eq_false hrevives)
    | _ => trivial

theorem estopInv_access {x : Access} (hI : w.pending = true → EstopInv cfg a s w)
    (hx : w.pending = true → x.Answers cfg.mock a w) (hq : x = .triggerEstop a → Quiet cfg s a)
    (hpending : (((s.access x).2.map (w.next a)).getD w).pending = true) :
    EstopInv cfg a (s.access x).1 (((s.access x).2.map (w.next a)).getD w) := by
  cases x with
  | request k =>
    have hw : w.pending = true := by
      cases k <;> exact hpending
    have hold := hI hw
    refine ⟨hold.latched, hold.motions, fun j hj hstarts => ?_, fun y hy => ?_, hold.starting,
      hold.deciding, hold.command⟩
    · rcases eq_or_ne j k with rfl | hjk
      · obtain ⟨rfl, hasked⟩ := hx hw hstarts
        exact ⟨rfl, hasked⟩
      · obtain ⟨rfl, hstored⟩ := hold.requests j (by simpa [State.access, hjk] using hj) hstarts
        cases k with
        | recover => exact absurd rfl hjk
        | init | goto => exact ⟨rfl, hstored⟩
    · have hy' := hold.control y hy
      cases k <;> exact hy'
  | storeTarget pose => exact (hI hpending).congr rfl rfl rfl (fun _ h => h) rfl
  | stop => exact (hI hpending).congr rfl rfl rfl (fun _ h => h) rfl
  | reset b =>
    by_cases hb : b = a
    · subst hb
      have hw : (w.pending && !w.cleared) = true := by
        simpa [State.access, Watch.next] using hpending
      rw [Bool.and_eq_true] at hw
      have hcleared := hx hw.1 rfl
      simp [hcleared] at hw
    · have hnext : w.next a (.commandReset b) = w := if_neg hb
      simp only [State.access, Option.map_some, Option.getD_some, hnext] at hpending ⊢
      exact (hI hpending).congr (by rw [setSafety_apply, if_neg hb]) rfl rfl (fun _ h => h) rfl
  | triggerEstop b =>
    by_cases hb : b = a
    · subst hb
      have hnext : w.next b (.estop b) = ⟨true, false, false, false⟩ := if_pos rfl
      simp only [State.access, Option.map_some, Option.getD_some, hnext]
      exact (hq rfl).estopInv
    · have hnext : w.next a (.estop b) = w := if_neg hb
      simp only [State.access, Option.map_some, Option.getD_some, hnext] at hpending ⊢
      exact (hI hpending).congr (by rw [setSafety_apply, if_neg hb]) rfl rfl (fun _ h => h) rfl

theorem estopInv_receive {c : Command} (hI : w.pending = true → EstopInv cfg a s w)
    (hok : w.pending = true → ∀ k, .request k ∈ handler c → starts cfg.mock k = true → k = .recover)
    (hpending : (w.next a (.received c)).pending = true) :
    EstopInv cfg a { s with control := handler c } (w.next a (.received c)) := by
  have hw : w.pending = true := by
    cases c <;> exact hpending
  have hold := hI hw
  refine ⟨hold.latched, hold.motions, fun k hk hstarts => ?_, fun x hx => ?_, hold.starting,
    hold.deciding, hold.command⟩
  · have hrecover := hold.requests k hk hstarts
    cases c <;> exact hrecover
  · cases x with
    | request k =>
      intro hstarts
      obtain rfl := hok hw k hx hstarts
      cases c with
      | recoverEstop => exact ⟨rfl, rfl⟩
      | gotoPose values =>
        simp only [handler] at hx
        split at hx <;> simp at hx
      | _ => simp [handler] at hx
    | reset b =>
      intro _
      cases c with
      | resetSafety => rfl
      | gotoPose values =>
        simp only [handler] at hx
        split at hx <;> simp at hx
      | _ => simp [handler] at hx
    | _ => trivial

end Handlers

section Threads

variable (cfg : Config) (s : State) {a : ArmSide} {w : Watch}

theorem arrive_over (m : Motion) (b : ArmSide) (hm : m.phase = .moving) (hover : m.over a = true) :
    (m.arrive b).over a = true := by
  simp only [Motion.over, hm, Bool.and_eq_true, decide_eq_true_eq] at hover
  obtain ⟨hkind, hissued⟩ := hover
  unfold Motion.arrive
  dsimp only
  split
  · simp [Motion.over, Motion.setArm, hkind]
  · simp only [Motion.over, Motion.setArm, hm, hkind, Function.update_apply]
    split <;> simp_all

theorem over_step {i : ℕ} {b : ArmSide} {measured : Measured Double} {m : Motion} {s' : State}
    {e : Option Event} (h : MotionStep s i b measured m s' e) (hover : m.over a = true) :
    (∃ m', s'.motions = s.motions.set i m' ∧ m'.over a = true) ∧ s'.safety a = s.safety a := by
  cases h with
  | wake hm => simp [Motion.over, hm] at hover
  | begin hm =>
    refine ⟨⟨_, rfl, ?_⟩, rfl⟩
    simp only [Motion.over, hm, Motion.setArm, Function.update_apply] at hover ⊢
    split <;> simp_all
  | issue command hm hlt =>
    refine ⟨⟨_, rfl, ?_⟩, rfl⟩
    simp only [Motion.over, hm, Motion.setArm, Function.update_apply, Bool.and_eq_true,
      decide_eq_true_eq] at hover ⊢
    refine ⟨hover.1, ?_⟩
    split
    · rename_i hab
      subst hab
      exact hover.2.trans (Nat.le_succ _)
    · exact hover.2
  | arrive hm => exact ⟨⟨_, rfl, arrive_over m b hm hover⟩, rfl⟩
  | reset c hm =>
    simp only [Motion.over, hm, Bool.and_eq_true, decide_eq_true_eq] at hover
    obtain ⟨rfl, rfl⟩ := hover
    exact ⟨⟨_, rfl, rfl⟩, by simp [setSafety_apply, State.setMotion]⟩
  | clear hm =>
    exact ⟨⟨_, clearFlag_motions _ _, rfl⟩, by rw [clearFlag_safety]; rfl⟩

theorem motionStep_watch {i : ℕ} {b : ArmSide} {measured : Measured Double} {m : Motion}
    {s' : State} {e : Option Event} (hm : MotionStep s i b measured m s' e) :
    (e.map (w.next a)).getD w = w := by
  cases hm <;> rfl

theorem estopInv_motion {i : ℕ} {b : ArmSide} {measured : Measured Double} {m : Motion}
    {s' : State} {e : Option Event} (hI : EstopInv cfg a s w) (hget : s.motions[i]? = some m)
    (hm : MotionStep s i b measured m s' e) : EstopInv cfg a s' w := by
  obtain ⟨⟨m', hset, hover⟩, hsafety⟩ := over_step s hm (hI.motions m (List.mem_of_getElem? hget))
  obtain ⟨hrequested, hcontrol, -⟩ := motionStep_handlers s hm
  have hloop := (motionStep_loop s hm).1
  refine ⟨?_, ?_, ?_, ?_, ?_, ?_, ?_⟩
  · rw [hsafety]
    exact hI.latched
  · rw [hset]
    intro x hx
    rcases List.mem_or_eq_of_mem_set hx with hx | rfl
    · exact hI.motions x hx
    · exact hover
  · rw [hrequested]
    exact hI.requests
  · rw [hcontrol]
    exact hI.control
  all_goals rw [hloop]
  · exact hI.starting
  · exact hI.deciding
  · exact hI.command

end Threads

section Steps

variable [Rounding] (cfg : Config) (s : State) {a : ArmSide} {w : Watch}

theorem loopStep_watch (env : Env) :
    ((loopStep cfg s env).2.map (w.next a)).getD w =
      if s.loop.pc = .exchange .recover ∧ s.requested .recover = true then
        { w with pending := w.pending && !w.stored }
      else w := by
  cases he : (loopStep cfg s env).2 with
  | none =>
    rw [if_neg]
    · rfl
    · rintro ⟨hpc, hrequested⟩
      simp [loopStep, hpc, hrequested] at he
  | some x =>
    cases loopStep_records cfg s env he with
    | taken k hpc hrequested => cases k <;> simp [hpc, hrequested, Watch.next]
    | _ =>
      rw [if_neg]
      · rfl
      · simp_all

theorem estopInv_loop (env : Env) (hI : w.pending = true → EstopInv cfg a s w)
    (hpending : (((loopStep cfg s env).2.map (w.next a)).getD w).pending = true) :
    EstopInv cfg a (loopStep cfg s env).1 (((loopStep cfg s env).2.map (w.next a)).getD w) := by
  rw [loopStep_watch] at hpending ⊢
  have hno : ¬ (s.loop.pc = .exchange .recover ∧ s.requested .recover = true) := by
    intro hyes
    rw [if_pos hyes, Bool.and_eq_true] at hpending
    have hstored := ((hI hpending.1).requests .recover hyes.2 rfl).2
    simp [hstored] at hpending
  rw [if_neg hno] at hpending ⊢
  have hold := hI hpending
  -- no request is taken that would start something
  have hidle : (next cfg s).starting cfg.mock a = false := by
    by_contra hstarting
    rcases next_starting cfg s a (by simpa using hstarting) with h | ⟨k, hpc, hk, hstarts⟩
    · exact absurd (hold.starting.symm.trans h) nofun
    · obtain ⟨rfl, -⟩ := hold.requests k hk hstarts
      exact hno ⟨hpc, hk⟩
  refine ⟨?_, ?_, ?_, ?_, ?_, ?_, ?_⟩
  · rcases loopStep_safety_cases cfg s env a with h | ⟨p, -, -, h⟩ | ⟨k, hpc, -⟩
    · rw [h]
      exact hold.latched
    · rw [h, SafetyManager.update_estopTriggered]
      exact ⟨hold.latched.1,
        (SafetyManager.update_estop_iff _ p _ hold.latched.2).mpr (.inl hold.latched.1)⟩
    · have hstarting := hold.starting
      simp [hpc, Pc.starting] at hstarting
  · intro m hm
    rw [loopStep_motions] at hm
    split at hm
    · rename_i k hpc
      have hstarting := hold.starting
      rw [hpc] at hstarting
      cases hstarting
    · exact hold.motions m hm
  · intro k hk
    rw [loopStep_requested] at hk
    split at hk
    · cases hk
    · exact hold.requests k hk
  · rw [loopStep_control]
    exact hold.control
  · rw [loopStep_pc]
    exact hidle
  · rw [loopStep_pc, loopStep_st]
    intro hdeciding
    rcases next_deciding cfg s a hdeciding with hpc | ⟨hpc, hdec⟩
    · rw [if_pos hpc, hold.latched.2]
      rfl
    · rw [if_neg hpc]
      exact hold.deciding hdec
  · rw [loopStep_pc]
    intro hnext
    obtain ⟨hpc, hrunning⟩ := next_unilateralStep cfg s a hnext
    have hdeciding := hold.deciding (by rw [hpc]; cases a <;> rfl)
    exact absurd (hdeciding.symm.trans hrunning) nofun

/-- The handlers of signals only stop. -/
structure EstopInvs (cfg : Config) (s : State) (h : List Event) : Prop where
  signal : ∀ x ∈ s.signal, x ∈ signalHandler
  pending : ∀ a, (watch a h).pending = true → EstopInv cfg a s (watch a h)

theorem estopInvs_step {h : List Event} (hI : EstopInvs cfg s h) {act : Action} {s' : State}
    {e : Option Event} (hok : Orderly cfg s h act) (hs : Step cfg s act s' e) :
    EstopInvs cfg s' (e.toList ++ h) := by
  have hsignal : ∀ x ∈ signalHandler, ∀ (a : ArmSide) (w : Watch), x.Answers cfg.mock a w := by
    intro x hx a w
    simp only [signalHandler, List.mem_cons, List.not_mem_nil, or_false] at hx
    rcases hx with rfl | rfl | rfl <;> trivial
  refine ⟨step_signalHandler cfg s hs hI.signal, fun a hpending => ?_⟩
  rw [watch_append] at hpending ⊢
  cases hs with
  | receive c _ =>
    exact estopInv_receive (hI.pending a) (fun hw => hok ⟨a, hw⟩) hpending
  | sigint | packet | drop => exact (hI.pending a hpending).congr rfl rfl rfl (fun _ h => h) rfl
  | control x rest hx =>
    refine estopInv_access (fun hw => ?_) (fun hw => ?_) ?_ hpending
    · exact (hI.pending a hw).congr rfl rfl rfl
        (fun y hy => hx ▸ List.mem_cons_of_mem x hy) rfl
    · exact (hI.pending a hw).control x (hx ▸ List.mem_cons_self)
    · rintro rfl
      obtain ⟨hmotions, hrequests, hcontrol, hrest⟩ := hok a (by rw [hx]; rfl)
      exact ⟨hmotions, hrequests, fun y hy => hcontrol y (hx ▸ List.mem_cons_of_mem _ hy), hrest⟩
  | signal x rest hx =>
    refine estopInv_access (fun hw => ?_) (fun hw => ?_) ?_ hpending
    · exact (hI.pending a hw).congr rfl rfl rfl (fun _ h => h) rfl
    · exact hsignal x (hI.signal x (hx ▸ List.mem_cons_self)) a _
    · rintro rfl
      exact hok a (by rw [hx]; rfl)
  | loop env _ => exact estopInv_loop cfg s env (hI.pending a) hpending
  | motion i b measured m s' e hget hm =>
    rw [motionStep_watch s hm] at hpending ⊢
    exact estopInv_motion cfg s (hI.pending a hpending) hget hm

end Steps

/-- **An emergency stop is not lost.** When each stop comes with nothing under way, and the other
two commands wait for its answer, the arm stays stopped until then: no command, no reset by a
motion, and the latch set. -/
theorem estop_not_lost [Rounding] (cfg : Config) (s : State) (h : List Event)
    (hr : (machine cfg).RunWhere (Orderly cfg) s h) :
    Always NotLost h ∧ ∀ a, (watch a h).pending = true →
      (s.safety a).estopTriggered = true ∧ (s.safety a).state = .estop := by
  have hstart : EstopInvs cfg (State.start cfg) [] := ⟨nofun, nofun⟩
  have hall := hr.always (I := EstopInvs cfg) (P := NotLost) hstart
    (fun s h act s' e hI hok hs => estopInvs_step cfg s hI hok (step_cases cfg s act s' e hs)) ?_
  · exact ⟨hall.2, fun a hpending => (hall.1.pending a hpending).latched⟩
  · intro s h act s' e hI hok hs
    have hs := step_cases cfg s act s' _ hs
    cases e with
    | unilateralStep a =>
      rw [NotLost, ← Bool.not_eq_true]
      intro hpending
      exact (hI.pending a hpending).command (step_unilateralStep cfg s hs)
    | interpolate i a n command =>
      rw [NotLost, ← Bool.not_eq_true]
      intro hpending
      obtain ⟨m, hget, hphase, hlt⟩ := step_interpolate cfg s hs
      have hover := (hI.pending a hpending).motions m (List.mem_of_getElem? hget)
      simp only [Motion.over, hphase, Bool.and_eq_true, decide_eq_true_eq] at hover
      exact absurd hlt (not_lt.mpr hover.2)
    | motionReset a =>
      rw [NotLost, ← Bool.not_eq_true]
      intro hpending
      have hold := hI.pending a hpending
      rcases step_motionReset cfg s hs with ⟨k, hpc⟩ | ⟨m, hm, hphase⟩
      · have hstarting := hold.starting
        simp [hpc, Pc.starting] at hstarting
      · have hover := hold.motions m hm
        cases a <;> simp [Motion.over, hphase] at hover
    | _ => trivial

section Runs

attribute [local instance] Rounding.exact

/-- A stop between two iterations, and the recovery that answers it. -/
theorem estop_not_lost_recovery :
    ∃ s h, (machine (follower {})).RunWhere (Orderly (follower {})) s h ∧
      (.unilateralStep .right ∈ h ∧ .estop .right ∈ h ∧ .disableAll .right ∈ h ∧
        .motionReset .right ∈ h) ∧
      Always NotLost h ∧ ∀ a, (watch a h).pending = true →
        (s.safety a).estopTriggered = true ∧ (s.safety a).state = .estop := by
  obtain ⟨s, h, hr, hh⟩ := (machine (follower {})).exists_runWhere (Orderly (follower {}))
    (moveBoth 0 ++ .packet .right (datagram 0 1) 0 :: loops 23 5000000 ++
      [.receive .estop, .control, .control] ++ loops 23 5000000 ++
      [.receive .recoverEstop, .control] ++ loops 6 5000000 ++
      .motion 1 .right still :: moveBoth 1 ++ List.replicate 3 (.motion 1 .right still))
    (fun _ h => .unilateralStep .right ∈ h ∧ .estop .right ∈ h ∧ .disableAll .right ∈ h ∧
      .motionReset .right ∈ h) (by decide +kernel)
  exact ⟨s, h, hr, hh, estop_not_lost (follower {}) s h hr⟩

/-- A stop in the middle of an `init_position`: the motion goes on to its end and clears the
stop, and the loop commands the arm again, without an answer. -/
theorem estop_lost :
    ∃ s h, (machine (follower {})).Runs s h ∧ (watch .right h).pending = true ∧
      (s.safety .right).state = .active ∧ ¬ Always NotLost h := by
  obtain ⟨s, h, hr, ⟨hpending, hactive⟩, hv⟩ := (machine (follower {})).exists_violation NotLost
    (moveBoth 0 ++ [.packet .right (datagram 0 1) 0, .receive .initPosition, .control] ++
      loops 21 5000000 ++ (moveBoth 1).take 2 ++ [.receive .estop, .control, .control] ++
      (moveBoth 1).drop 2 ++ List.replicate 3 (.motion 1 .right still) ++ loops 16 5000000)
    (fun s h => (watch .right h).pending = true ∧ (s.safety .right).state = .active)
    (by decide +kernel)
  exact ⟨s, h, hr, hpending, hactive, hv⟩

end Runs

end OpenArmTeleop.Follower
