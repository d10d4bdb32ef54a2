import OpenArmTeleop.Telemetry.View

/-!
# Telemetry in order

Where no datagram overtakes another one, what the VR leader sees of an arm never goes back.
-/

open Bytes Num Run Sampling OpenArmTeleop.Net OpenArmTeleop.Control

namespace OpenArmTeleop.Telemetry

variable (cfg : Config)

/-! ## Hops -/

def Event.taken? (k : ℕ) : Event → Option ℕ
  | .forwarded j i => if j = k then some i else none
  | .received i _ _ => if k = cfg.relays then some i else none
  | _ => none

/-- The datagrams that relay `k` took or, past the last one, the VR leader, newest first. -/
def taken (k : ℕ) (h : List Event) : List ℕ := h.filterMap (Event.taken? cfg k)

def Event.delivered? : Event → Option (List UInt8)
  | .received _ d _ => some d
  | _ => none

def delivered (h : List Event) : List (List UInt8) := h.filterMap Event.delivered?

/-- No datagram overtakes another one. -/
def InOrder (_ : State) (h : List Event) : Action → Prop
  | .forward k i => ∀ j ∈ taken cfg k h, j ≤ i
  | .deliver _ i => ∀ j ∈ taken cfg cfg.relays h, j ≤ i
  | _ => True

instance (s : State) (h : List Event) (act : Action) : Decidable (InOrder cfg s h act) :=
  match act with
  | .forward .. | .deliver .. => inferInstanceAs (Decidable (∀ j ∈ _, _))
  | .set .. | .due .. | .read | .publish | .leader _ => isTrue trivial

/-- What came out of a hop, newest first. -/
def handed (s : State) (h : List Event) (k : ℕ) : List (List UInt8) :=
  if k = cfg.relays then delivered h else (s.pools (k + 1)).reverse

def HopInv (s : State) (h : List Event) (k : ℕ) : Prop :=
  InTurn (s.pools k) (taken cfg k h) (handed cfg s h k)

/-! ## From the robot to the leader -/

def Event.published? (a : ArmSide) : Event → Option (Vector (JointState Double) 7)
  | .published _ seen => some (seen a).armResponse
  | _ => none

def published (a : ArmSide) (h : List Event) : List (Vector (JointState Double) 7) :=
  h.filterMap (Event.published? a)

/-- The joints that a datagram shows. -/
def shown (a : ArmSide) (d : List UInt8) : VrLeader.Joints :=
  ((received d).map fun pkt => VrLeader.observed pkt a).getD VrLeader.zeroJoints

structure PublisherInv (s : State) (h : List Event) (a : ArmSide) : Prop where
  robot : (measured a h).head? = some (s.robot a).armResponse
  sent : Sampled (measured a h) (published a h)
  seen : s.holds a → Sampled (measured a h) ((s.publisher.seen a).armResponse :: published a h)
  pool : (s.pools 0).reverse.map (shown a) = (published a h).map cfg.joints

structure LeaderInv (s : State) (h : List Event) (a : ArmSide) : Prop where
  latest : s.leader.telConnected = true →
    (delivered h).head?.map (shown a) = some (s.leader.robotQ a)
  cycles : Sampled ((delivered h).map (shown a)) (followed a h)

variable {cfg}

theorem shown_datagram {d : List UInt8} {seen : ArmSide → Robot} (hd : Shows cfg d seen)
    (a : ArmSide) : shown a d = cfg.joints (seen a).armResponse := by
  obtain ⟨pkt, hpkt, hobserved⟩ := hd.observed
  unfold shown
  rw [hpkt]
  exact hobserved a

/-! ## What steps keep -/

theorem hopInv_start (k : ℕ) : HopInv cfg .start [] k := by
  have hnothing : handed cfg .start [] k = [] := by
    unfold handed
    split <;> rfl
  rw [HopInv, hnothing]
  exact .nil _

section Hop

variable {s s' : State} {h h' : List Event} {k : ℕ}

/-- A hop through which nothing goes. Its datagrams may become more. -/
theorem HopInv.keep (hI : HopInv cfg s h k)
    (hpool : s'.pools k = s.pools k ∨ ∃ d, s'.pools k = s.pools k ++ [d])
    (htaken : taken cfg k h' = taken cfg k h) (hhanded : handed cfg s' h' k = handed cfg s h k) :
    HopInv cfg s' h' k := by
  unfold HopInv at hI ⊢
  rw [htaken, hhanded]
  rcases hpool with hpool | ⟨d, hpool⟩
  · rw [hpool]
    exact hI
  · rw [hpool]
    exact hI.grow d

/-- A hop through which datagram `i` goes. -/
theorem HopInv.pass (hI : HopInv cfg s h k) {i : ℕ} {d : List UInt8}
    (hd : (s.pools k)[i]? = some d) (hle : ∀ j ∈ taken cfg k h, j ≤ i)
    (hpool : s'.pools k = s.pools k) (htaken : taken cfg k h' = i :: taken cfg k h)
    (hhanded : handed cfg s' h' k = d :: handed cfg s h k) : HopInv cfg s' h' k := by
  unfold HopInv at hI ⊢
  rw [hpool, htaken, hhanded]
  exact hI.next hle hd

/-- Where nothing is handed on, the hops stay as they are. -/
theorem HopInv.quiet (hI : HopInv cfg s h k) (hpools : s'.pools = s.pools) {e : Option Event}
    (he : ∀ x, e = some x → x.taken? cfg k = none ∧ x.delivered? = none) :
    HopInv cfg s' (e.toList ++ h) k := by
  have htaken : taken cfg k (e.toList ++ h) = taken cfg k h :=
    append_eq_of_cons e fun x hx => List.filterMap_cons_none (he x hx).1
  have hdelivered : delivered (e.toList ++ h) = delivered h :=
    append_eq_of_cons e fun x hx => List.filterMap_cons_none (he x hx).2
  refine hI.keep (.inl (by rw [hpools])) htaken ?_
  unfold handed
  rw [hpools, hdelivered]

end Hop

section Steps

variable [Rounding] {s s' : State} {h : List Event} {e : Option Event} {act : Action}

theorem HopInv.step (hV : ViewInv cfg s h) (hok : InOrder cfg s h act)
    (hI : ∀ k ≤ cfg.relays, HopInv cfg s h k) (hs : Step cfg s act s' e) :
    ∀ k ≤ cfg.relays, HopInv cfg s' (e.toList ++ h) k := by
  intro k hk
  cases hs with
  | publish hreads =>
    refine (hI k hk).keep ?_ rfl ?_
    · rcases eq_or_ne k 0 with rfl | hne
      · exact .inr ⟨_, s.send_self 0 _⟩
      · exact .inl (s.send_of_ne _ hne)
    · unfold handed
      split
      · rfl
      · exact congrArg List.reverse
          (s.send_of_ne (cfg.datagram s.publisher) (Nat.succ_ne_zero k))
  | forward j i d hj hd =>
    obtain ⟨seen, -, hshows⟩ := hV.pools j d (List.mem_of_getElem? hd)
    rw [hshows.relayed]
    rcases eq_or_ne k j with rfl | hne
    · refine (hI k hk).pass hd hok ?_ ?_ ?_
      · exact s.send_of_ne d (Nat.ne_of_lt (Nat.lt_succ_self k))
      · simp [taken, Event.taken?]
      · unfold handed
        rw [if_neg hj.ne, if_neg hj.ne, State.send_self, List.reverse_append]
        rfl
    · refine (hI k hk).keep ?_ ?_ ?_
      · rcases eq_or_ne k (j + 1) with rfl | hnext
        · exact .inr ⟨d, s.send_self _ d⟩
        · exact .inl (s.send_of_ne d hnext)
      · exact List.filterMap_cons_none (if_neg hne.symm)
      · unfold handed
        split
        · rfl
        · rw [s.send_of_ne d (by omega)]
  | deliver timeNs i d pkt st hd hpkt hq hstep =>
    rcases eq_or_ne k cfg.relays with rfl | hne
    · refine (hI cfg.relays hk).pass hd hok rfl ?_ ?_
      · simp [taken, Event.taken?]
      · unfold handed
        rw [if_pos rfl, if_pos rfl]
        rfl
    · refine (hI k hk).keep (.inl rfl) (List.filterMap_cons_none (if_neg hne)) ?_
      unfold handed
      rw [if_neg hne, if_neg hne]
  | ignore => exact hI k hk
  | leader act x st e' => exact (hI k hk).quiet rfl fun y hy => by cases e' <;> cases hy; exact ⟨rfl, rfl⟩
  | set => exact (hI k hk).quiet rfl fun y hy => by cases hy; exact ⟨rfl, rfl⟩
  | due => exact hI k hk
  | read => exact hI k hk

end Steps

section Flow

variable {s s' : State} {h : List Event} {e : Option Event} {act : Action} {a : ArmSide}

theorem publisherInv_start : PublisherInv cfg .start [] a := by
  refine ⟨rfl, .nil _, ?_, rfl⟩
  rintro ⟨rest, hreads, -⟩
  cases hreads

theorem leaderInv_start : LeaderInv .start [] a := ⟨nofun, .nil _⟩

/-- The follower does nothing. -/
theorem PublisherInv.keep (hI : PublisherInv cfg s h a) (hrobot : s'.robot = s.robot)
    (hpool : s'.pools 0 = s.pools 0) (hpublisher : s'.publisher = s.publisher)
    (hmeasured : measured a (e.toList ++ h) = measured a h)
    (hpublished : published a (e.toList ++ h) = published a h) :
    PublisherInv cfg s' (e.toList ++ h) a := by
  refine ⟨?_, ?_, fun ha => ?_, ?_⟩
  · rw [hmeasured, hrobot]
    exact hI.robot
  · rw [hmeasured, hpublished]
    exact hI.sent
  · rw [State.holds, hpublisher] at ha
    rw [hmeasured, hpublished, hpublisher]
    exact hI.seen ha
  · rw [hpool, hpublished]
    exact hI.pool

/-- The VR leader does nothing. -/
theorem LeaderInv.keep (hI : LeaderInv s h a) (hleader : s'.leader = s.leader)
    (hdelivered : delivered (e.toList ++ h) = delivered h)
    (hfollowed : followed a (e.toList ++ h) = followed a h) : LeaderInv s' (e.toList ++ h) a := by
  refine ⟨fun hconn => ?_, ?_⟩
  · rw [hleader] at hconn ⊢
    rw [hdelivered]
    exact hI.latest hconn
  · rw [hdelivered, hfollowed]
    exact hI.cycles

variable [Rounding]

theorem PublisherInv.step (hmock : cfg.mock = false) (hI : PublisherInv cfg s h a)
    (hs : Step cfg s act s' e) : PublisherInv cfg s' (e.toList ++ h) a := by
  cases hs with
  | set b f r =>
    have hpublished : published a (.set b f r :: h) = published a h := rfl
    have hwritten : ∀ l, Sampled (measured a h) l → Sampled (measured a (.set b f r :: h)) l := by
      intro l hl
      rw [measured_set]
      split
      · exact .write _ hl
      · exact hl
    refine ⟨?_, hwritten _ hI.sent, fun ha => hwritten _ (hI.seen ha), hI.pool⟩
    rw [Option.toList_some, List.singleton_append, measured_set, take_update]
    split
    · rfl
    · exact hI.robot
  | due timeNs st hidle =>
    refine ⟨hI.robot, hI.sent, ?_, hI.pool⟩
    rintro ⟨rest, hreads, hnot⟩
    cases hreads
    exact absurd (mem_reads cfg hmock a) hnot
  | read b f rest hreads =>
    refine ⟨hI.robot, hI.sent, ?_, hI.pool⟩
    rintro ⟨rest', hrest, hnot⟩
    cases hrest
    dsimp only
    rw [take_update]
    split
    · -- the register is read now
      rename_i hread
      obtain ⟨old, hold⟩ := List.head?_eq_some_iff.mp hI.robot
      have hsent := hI.sent
      change Sampled (measured a h) ((s.robot b).armResponse :: published a h)
      rw [hread.1]
      rw [hold] at hsent ⊢
      exact .read hsent
    · rename_i hother
      refine hI.seen ⟨_, hreads, ?_⟩
      simp only [List.mem_cons, Prod.mk.injEq, not_or]
      exact ⟨fun heq => hother ⟨heq.1.symm, heq.2.symm⟩, hnot⟩
  | publish hreads =>
    refine ⟨hI.robot, hI.seen ⟨[], hreads, List.not_mem_nil⟩, ?_, ?_⟩
    · rintro ⟨rest, hnone, -⟩
      cases hnone
    · have hpool : (s.send 0 (cfg.datagram s.publisher)).pools 0 = _ := s.send_self 0 _
      change ((s.send 0 (cfg.datagram s.publisher)).pools 0).reverse.map (shown a) = _
      rw [hpool, List.reverse_append, List.map_append, hI.pool, List.reverse_singleton,
        List.map_singleton, shown_datagram (shows_datagram cfg hmock s.publisher)]
      rfl
  | forward k i d hk hd =>
    exact hI.keep rfl (s.send_of_ne _ (Nat.succ_ne_zero k).symm) rfl rfl rfl
  | deliver timeNs i d pkt st hd hpkt hq hstep => exact hI.keep rfl rfl rfl rfl rfl
  | ignore => exact hI
  | leader act x st e' => cases e' <;> exact hI.keep rfl rfl rfl rfl rfl

theorem LeaderInv.step (hI : LeaderInv s h a) (hs : Step cfg s act s' e) :
    LeaderInv s' (e.toList ++ h) a := by
  cases hs with
  | deliver timeNs i d pkt st hd hpkt hq hstep =>
    refine ⟨fun _ => ?_, .write _ hI.cycles⟩
    change some (shown a d) = some (st.robotQ a)
    rw [hq, shown, hpkt]
    rfl
  | leader act x st e' hstep hq htel hcycle =>
    have hlatest : st.telConnected = true →
        (delivered h).head?.map (shown a) = some (st.robotQ a) := by
      intro hconn
      rw [hq]
      exact hI.latest (htel ▸ hconn)
    cases e' with
    | none => exact ⟨hlatest, hI.cycles⟩
    | some y =>
      refine ⟨hlatest, ?_⟩
      change Sampled ((delivered h).map (shown a)) (followed a (.leader y :: h))
      cases y with
      | cycle c =>
        obtain ⟨hfb, hconnected⟩ := hcycle c rfl
        cases hconn : c.connected with
        | false =>
          have hsame : followed a (.leader (.cycle c) :: h) = followed a h :=
            List.filterMap_cons_none (by simp [Event.followed?, hconn])
          rw [hsame]
          exact hI.cycles
        | true =>
          have hnew : followed a (.leader (.cycle c) :: h) = c.fb a :: followed a h :=
            List.filterMap_cons_some (by simp [Event.followed?, hconn])
          have hhead := hI.latest (hconnected ▸ hconn)
          rw [← List.head?_map] at hhead
          obtain ⟨old, hold⟩ := List.head?_eq_some_iff.mp hhead
          have hcycles := hI.cycles
          rw [hnew, hfb]
          rw [hold] at hcycles ⊢
          exact .read hcycles
      | _ => exact hI.cycles
  | ignore => exact hI
  | _ => exact hI.keep rfl rfl rfl

end Flow

section Runs

variable {s : State} {h : List Event}

structure OrderInv (cfg : Config) (s : State) (h : List Event) : Prop where
  view : ViewInv cfg s h
  hops : ∀ k ≤ cfg.relays, HopInv cfg s h k
  publisher : ∀ a, PublisherInv cfg s h a
  leader : ∀ a, LeaderInv s h a

/-- What comes out at the end went in at the start, in the same order. -/
theorem OrderInv.sampled (hI : OrderInv cfg s h) : Sampled (s.pools 0).reverse (delivered h) := by
  have hpools : ∀ k ≤ cfg.relays, Sampled (s.pools 0).reverse (s.pools k).reverse := by
    intro k
    induction k with
    | zero => exact fun _ => .refl _
    | succ k ih =>
      intro hk
      have hhop := (hI.hops k (Nat.le_of_succ_le hk)).all
      rw [handed, if_neg (by omega)] at hhop
      exact (ih (Nat.le_of_succ_le hk)).trans hhop
  have hlast := (hI.hops cfg.relays le_rfl).all
  rw [handed, if_pos rfl] at hlast
  exact (hpools cfg.relays le_rfl).trans hlast

variable [Rounding]

theorem order_runs (hmock : cfg.mock = false) (hr : (machine cfg).RunWhere (InOrder cfg) s h) :
    OrderInv cfg s h := by
  refine hr.invariant (I := OrderInv cfg) ⟨viewInv_start, fun k _ => hopInv_start k,
    fun _ => publisherInv_start, fun _ => leaderInv_start⟩ ?_
  intro s h act s' e hI hok hs
  have hstep := step_cases hs
  exact ⟨hI.view.step hmock hstep, HopInv.step hI.view hok hI.hops hstep,
    fun a => (hI.publisher a).step hmock hstep, fun a => (hI.leader a).step hstep⟩

end Runs

section Example

attribute [local instance] Rounding.exact

end Example

end OpenArmTeleop.Telemetry
