import OpenArmTeleop.Local.Machine

/-!
# What one step of the local programs can do

The steps of the four threads by kind, and the order that `main` keeps them in.
-/

open Num Run OpenArmTeleop.Control OpenArmTeleop.Controller

namespace OpenArmTeleop.Local

variable {cfg : Config} (st : State cfg)

section Steps

variable [Rounding]

inductive Step : State cfg → Option Event → Prop
  | same : Step st none
  | startThread (t : Thread) (rest : List Op) : st.main = .startThread t :: rest →
      Step (State.startThread { st with main := rest } t) none
  | go (rest : List Op) : st.main = .wait :: rest → Step { st with main := rest } none
  | stopRunning (t : Thread) (rest : List Op) : st.main = .stopRunning t :: rest →
      Step { st with main := rest, isRunning := Function.update st.isRunning t false } none
  | join (t : Thread) (rest : List Op) : st.main = .join t :: rest → st.ended t = true →
      Step { st with main := rest } none
  | disableAll (s : Side) (rest : List Op) : st.main = .disableAll s :: rest →
      Step { st with main := rest } (some (.disabled s))
  | sigint : Step { st with keepRunning := false } none
  | head (s : Side) (place : Place Access) (motors : Readings cfg.armNum cfg.handNum) :
      (st.arm s).place = .head → place = .inside (cfg.accesses s) ∨ place = .ended →
      Step (st.setArm s { st.arm s with place := place, motors := motors }) none
  | back (s : Side) : (st.arm s).place = .inside [] →
      Step (st.setArm s { st.arm s with place := .head }) none
  | setResponse (s : Side) (p : Part) (rest : List Access) :
      (st.arm s).place = .inside (.setResponse p :: rest) →
      Step ((st.setRobot s p { st.robot s p with
          response := motorToJoint p ((st.arm s).motors.part p) }).setArm s
            { st.arm s with place := .inside rest })
        (some (.setResponse s p ((st.arm s).motors.part p)))
  | getReference (s : Side) (p : Part) (rest : List Access) :
      (st.arm s).place = .inside (.getReference p :: rest) →
      Step (st.setArm s { st.arm s with
          place := .inside rest
          ref := Function.update (st.arm s).ref p (st.robot s p).reference })
        (some (.getReference s p (st.robot s p).reference))
  | send (s : Side) (rest : List Access) : (st.arm s).place = .inside (.send :: rest) →
      Step (st.setArm s { st.arm s with place := .inside rest })
        (some (.sent s (cfg.commands s (st.arm s))))
  | adminHead (place : Place Handover) : st.admin.place = .head →
      place = .inside handovers ∨ place = .ended →
      Step { st with admin := { st.admin with place := place } } none
  | adminBack : st.admin.place = .inside [] →
      Step { st with admin := { st.admin with place := .head } } none
  | getResponse (s : Side) (p : Part) (rest : List Handover) :
      st.admin.place = .inside (.getResponse s p :: rest) →
      Step { st with
          admin := ⟨.inside rest, Function.update st.admin.resp s
            (Function.update (st.admin.resp s) p (st.robot s p).response)⟩ }
        (some (.getResponse s p (st.robot s p).response))
  | setReference (s : Side) (p : Part) (rest : List Handover) :
      st.admin.place = .inside (.setReference s p :: rest) →
      Step (State.setRobot { st with admin := { st.admin with place := .inside rest } } s p
          { st.robot s p with reference := st.admin.resp s.other p })
        (some (.setReference s p (st.admin.resp s.other p)))

theorem stepMain_cases {st' : State cfg} {e : Option Event} (h : st.stepMain = some (st', e)) :
    Step st st' e := by
  unfold State.stepMain at h
  split at h
  · cases h
  · rename_i op rest hmain
    cases op with
    | startThread t => cases h; exact .startThread t rest hmain
    | wait =>
      dsimp only at h
      split at h <;> cases h
      · exact .same
      · exact .go rest hmain
    | stopRunning t => cases h; exact .stopRunning t rest hmain
    | join t =>
      dsimp only at h
      split at h <;> cases h
      exact .join t rest hmain (by assumption)
    | disableAll s => cases h; exact .disableAll s rest hmain

theorem stepControl_cases {s : Side} {motors : Readings cfg.armNum cfg.handNum} {st' : State cfg}
    {e : Option Event} (h : st.stepControl s motors = some (st', e)) : Step st st' e := by
  unfold State.stepControl at h
  dsimp only at h
  split at h
  · cases h
  · cases h
  · rename_i hplace
    split at h <;> cases h
    · exact .head s _ motors hplace (.inl rfl)
    · exact .head s _ _ hplace (.inr rfl)
  · rename_i hplace
    cases h
    exact .back s hplace
  · rename_i access rest hplace
    cases access with
    | setResponse p => cases h; exact .setResponse s p rest hplace
    | getReference p => cases h; exact .getReference s p rest hplace
    | send => cases h; exact .send s rest hplace

theorem stepAdmin_cases {st' : State cfg} {e : Option Event} (h : st.stepAdmin = some (st', e)) :
    Step st st' e := by
  unfold State.stepAdmin at h
  split at h
  · cases h
  · cases h
  · rename_i hplace
    cases h
    refine .adminHead _ hplace ?_
    split
    · exact .inl rfl
    · exact .inr rfl
  · rename_i hplace
    cases h
    exact .adminBack hplace
  · rename_i access rest hplace
    cases access with
    | getResponse s p => cases h; exact .getResponse s p rest hplace
    | setReference s p => cases h; exact .setReference s p rest hplace

theorem step_cases {act : Action cfg} {st' : State cfg} {e : Option Event}
    (h : (machine cfg).step st act = some (st', e)) : Step st st' e := by
  cases act with
  | main => exact stepMain_cases st h
  | sigint => cases h; exact .sigint
  | control s motors => exact stepControl_cases st h
  | admin => exact stepAdmin_cases st h

end Steps

/-! ## The order of the threads -/

/-- A thread starts once, and is joined after that. -/
theorem startThread_once {t : Thread} {rest : List Op} (h : .startThread t :: rest <:+ mainOps) :
    .startThread t ∉ rest ∧ .join t ∈ rest := by
  have hall : ∀ l ∈ mainOps.tails, ∀ t ∈ [Thread.control .leader, .control .follower, .admin],
      l.head? = some (.startThread t) → .startThread t ∉ l.tail ∧ .join t ∈ l.tail := by
    decide
  refine hall _ ((List.mem_tails _ _).mpr h) t ?_ rfl
  cases t with
  | control s => cases s <;> simp
  | admin => simp

/-- Both arms are joined before one is disabled. -/
theorem joined_of_disableAll {s : Side} {rest : List Op} (h : .disableAll s :: rest <:+ mainOps)
    (s' : Side) : .join (.control s') ∉ rest := by
  have hall : ∀ l ∈ mainOps.tails, ∀ s ∈ [Side.leader, .follower], ∀ s' ∈ [Side.leader, .follower],
      l.head? = some (.disableAll s) → .join (.control s') ∉ l.tail := by
    decide
  exact hall _ ((List.mem_tails _ _).mpr h) s (by cases s <;> simp) s' (by cases s' <;> simp) rfl

/-- Where the threads can be. -/
structure OrderInv (h : List Event) : Prop where
  main : st.main <:+ mainOps
  idle : ∀ s, .startThread (.control s) ∈ st.main → (st.arm s).place = .idle
  adminIdle : .startThread .admin ∈ st.main → st.admin.place = .idle
  arm : ∀ s rest, (st.arm s).place = .inside rest → rest <:+ cfg.accesses s
  admin : ∀ rest, st.admin.place = .inside rest → rest <:+ handovers
  ended : ∀ s, .join (.control s) ∉ st.main → (st.arm s).place = .ended
  disabled : (∃ s, .disabled s ∈ h) → ∀ s, .join (.control s) ∉ st.main

section OrderInv

variable {st} {st' : State cfg} {e : Option Event} {h : List Event}

theorem orderInv_start [Rounding] : OrderInv (State.start cfg) [] where
  main := List.suffix_refl _
  idle _ _ := rfl
  adminIdle _ := rfl
  arm _ _ hplace := by cases hplace
  admin _ hplace := by cases hplace
  ended s hjoin := by
    refine absurd (show .join (.control s) ∈ mainOps from ?_) hjoin
    cases s <;> decide
  disabled := by simp

theorem OrderInv.later (hI : OrderInv st h) {h' : List Event}
    (hsame : ∀ s, .disabled s ∈ h' → .disabled s ∈ h) : OrderInv st h' :=
  ⟨hI.main, hI.idle, hI.adminIdle, hI.arm, hI.admin, hI.ended,
    fun ⟨s, hs⟩ => hI.disabled ⟨s, hsame s hs⟩⟩

/-- `main` goes on, and the threads stay where they are. -/
theorem OrderInv.next (hI : OrderInv st h) {op : Op} {rest : List Op} (hmain : st.main = op :: rest)
    (hjoin : ∀ s, op = .join (.control s) → (st.arm s).place = .ended) :
    OrderInv { st with main := rest } h where
  main := (List.suffix_cons op rest).trans (hmain ▸ hI.main)
  idle s hs := hI.idle s (hmain ▸ List.mem_cons_of_mem op hs)
  adminIdle hs := hI.adminIdle (hmain ▸ List.mem_cons_of_mem op hs)
  arm := hI.arm
  admin := hI.admin
  ended s hs := by
    by_cases hop : op = .join (.control s)
    · exact hjoin s hop
    · refine hI.ended s ?_
      rw [hmain, List.mem_cons, not_or]
      exact ⟨fun heq => hop heq.symm, hs⟩
  disabled hd s hs := hI.disabled hd s (hmain ▸ List.mem_cons_of_mem op hs)

/-- A thread that has started and not ended moves on. -/
theorem OrderInv.setArm (hI : OrderInv st h) {s : Side} {n : ArmThread cfg}
    (hidle : (st.arm s).place ≠ .idle) (hended : (st.arm s).place ≠ .ended)
    (hrest : ∀ rest, n.place = .inside rest → rest <:+ cfg.accesses s) :
    OrderInv (st.setArm s n) h where
  main := hI.main
  idle s' hs := by
    rcases eq_or_ne s' s with rfl | hne
    · exact absurd (hI.idle s' hs) hidle
    · simpa [State.setArm, hne] using hI.idle s' hs
  adminIdle := hI.adminIdle
  arm s' rest hplace := by
    rcases eq_or_ne s' s with rfl | hne
    · exact hrest rest (by simpa [State.setArm] using hplace)
    · exact hI.arm s' rest (by simpa [State.setArm, hne] using hplace)
  admin := hI.admin
  ended s' hs := by
    rcases eq_or_ne s' s with rfl | hne
    · exact absurd (hI.ended s' hs) hended
    · simpa [State.setArm, hne] using hI.ended s' hs
  disabled := hI.disabled

theorem OrderInv.setAdmin (hI : OrderInv st h) {n : AdminThread} (hidle : st.admin.place ≠ .idle)
    (hrest : ∀ rest, n.place = .inside rest → rest <:+ handovers) :
    OrderInv { st with admin := n } h :=
  ⟨hI.main, hI.idle, fun hs => absurd (hI.adminIdle hs) hidle, hI.arm, hrest, hI.ended, hI.disabled⟩

theorem OrderInv.setRobot (hI : OrderInv st h) (s : Side) (p : Part) (r : RobotState Double) :
    OrderInv (st.setRobot s p r) h :=
  ⟨hI.main, hI.idle, hI.adminIdle, hI.arm, hI.admin, hI.ended, hI.disabled⟩

theorem OrderInv.startThread (hI : OrderInv st h) {t : Thread} {rest : List Op}
    (hmain : st.main = .startThread t :: rest) :
    OrderInv (State.startThread { st with main := rest } t) h := by
  obtain ⟨honce, hjoin⟩ := startThread_once (hmain ▸ hI.main)
  have hnext := hI.next hmain (by simp)
  cases t with
  | control s =>
    refine ⟨hnext.main, fun s' hs => ?_, hnext.adminIdle, fun s' rest' hplace => ?_, hnext.admin,
      fun s' hs => ?_, hnext.disabled⟩
    · rcases eq_or_ne s' s with rfl | hne
      · exact absurd hs honce
      · simpa [State.startThread, State.setArm, hne] using hnext.idle s' hs
    · rcases eq_or_ne s' s with rfl | hne
      · simp [State.startThread, State.setArm] at hplace
      · exact hnext.arm s' rest' (by simpa [State.startThread, State.setArm, hne] using hplace)
    · rcases eq_or_ne s' s with rfl | hne
      · exact absurd hjoin hs
      · simpa [State.startThread, State.setArm, hne] using hnext.ended s' hs
  | admin =>
    exact ⟨hnext.main, hnext.idle, fun hs => absurd hs honce, hnext.arm,
      (fun rest' hplace => by cases hplace), hnext.ended, hnext.disabled⟩

theorem OrderInv.step [Rounding] (hI : OrderInv st h) (hs : Step st st' e) : OrderInv st' (e.toList ++ h) := by
  cases hs with
  | same => exact hI
  | startThread t rest hmain => exact hI.startThread hmain
  | go rest hmain => exact hI.next hmain (by simp)
  | stopRunning t rest hmain =>
    have hnext := hI.next hmain (by simp)
    exact ⟨hnext.main, hnext.idle, hnext.adminIdle, hnext.arm, hnext.admin, hnext.ended,
      hnext.disabled⟩
  | join t rest hmain hended =>
    refine hI.next hmain fun s heq => ?_
    cases heq
    exact of_decide_eq_true hended
  | disableAll s rest hmain =>
    have hnext := hI.next hmain (by simp)
    exact ⟨hnext.main, hnext.idle, hnext.adminIdle, hnext.arm, hnext.admin, hnext.ended,
      fun _ s' => joined_of_disableAll (hmain ▸ hI.main) s'⟩
  | sigint =>
    exact ⟨hI.main, hI.idle, hI.adminIdle, hI.arm, hI.admin, hI.ended, hI.disabled⟩
  | head s place motors hplace hnew =>
    refine hI.setArm (by simp [hplace]) (by simp [hplace]) fun rest hrest => ?_
    rcases hnew with rfl | rfl
    · cases hrest
      exact List.suffix_refl _
    · cases hrest
  | back s hplace => exact hI.setArm (by simp [hplace]) (by simp [hplace]) (by simp)
  | setResponse s p rest hplace =>
    refine ((hI.setRobot s p _).setArm (by simp [State.setRobot, hplace])
      (by simp [State.setRobot, hplace]) fun rest' hrest => ?_).later (by simp)
    cases hrest
    exact (List.suffix_cons _ _).trans (hI.arm s _ hplace)
  | getReference s p rest hplace =>
    refine (hI.setArm (by simp [hplace]) (by simp [hplace]) fun rest' hrest => ?_).later (by simp)
    cases hrest
    exact (List.suffix_cons _ _).trans (hI.arm s _ hplace)
  | send s rest hplace =>
    refine (hI.setArm (by simp [hplace]) (by simp [hplace]) fun rest' hrest => ?_).later (by simp)
    cases hrest
    exact (List.suffix_cons _ _).trans (hI.arm s _ hplace)
  | adminHead place hplace hnew =>
    refine hI.setAdmin (by simp [hplace]) fun rest hrest => ?_
    rcases hnew with rfl | rfl
    · cases hrest
      exact List.suffix_refl _
    · cases hrest
  | adminBack hplace => exact hI.setAdmin (by simp [hplace]) (by simp)
  | getResponse s p rest hplace =>
    refine (hI.setAdmin (by simp [hplace]) fun rest' hrest => ?_).later (by simp)
    cases hrest
    exact (List.suffix_cons _ _).trans (hI.admin _ hplace)
  | setReference s p rest hplace =>
    refine ((hI.setAdmin (by simp [hplace]) fun rest' hrest => ?_).setRobot s p _).later (by simp)
    cases hrest
    exact (List.suffix_cons _ _).trans (hI.admin _ hplace)

end OrderInv

end OpenArmTeleop.Local
