import OpenArmTeleop.Control.Engager

/-!
# Engagement starts from an alignment

What the calls of an engager say about each call that leaves a scale above zero.
-/

open Num Run

namespace OpenArmTeleop.Control

namespace EngagerCall

variable {K : Type} [Zero K]

/-- The wanted update that finds the arm aligned, while it waits at scale zero. -/
def Starts (c : EngagerCall K) : Prop :=
  (match c.op with | .update want aligned _ => want && aligned | .reset => false) = true ∧
    c.before.state = .waitAlign ∧ c.before.scale = 0

def Wants (c : EngagerCall K) : Prop :=
  (match c.op with | .update want _ _ => want | .reset => false) = true

/-- It moves the machine to `rampDown`. -/
def Releases (c : EngagerCall K) : Prop :=
  c.before.state ≠ .rampDown ∧ c.after.state = .rampDown

def Resets (c : EngagerCall K) : Prop := c.op = .reset

/-- Each call before the release is a wanted update. The newest call comes first. -/
def Held : List (EngagerCall K) → Prop
  | [] => True
  | c :: h => Held h ∧ ((∃ r ∈ h, Releases r) ∨ Releases c ∨ Wants c)

variable [LT K] [LE K]

/-- A scale above zero goes back to a start. -/
def FromAlignment (c : EngagerCall K) (h : List (EngagerCall K)) : Prop :=
  0 < c.after.scale →
    ∃ new m old, h = new ++ m :: old ∧ Starts m ∧ (∀ x ∈ c :: new, ¬ Resets x) ∧ Held (c :: new)

/-- The scale rises only when there was a start since the last release or reset. -/
def RisesFromAlignment (c : EngagerCall K) (h : List (EngagerCall K)) : Prop :=
  c.before.scale < c.after.scale → Since Starts (fun x => Releases x ∨ Resets x) h

section Decide

variable [DecidableEq K]

instance : DecidablePred (Starts (K := K)) := fun _ => inferInstanceAs (Decidable (_ ∧ _ ∧ _))

instance : DecidablePred (Releases (K := K)) := fun _ => inferInstanceAs (Decidable (_ ∧ _))

instance : DecidablePred (Resets (K := K)) := fun _ => inferInstanceAs (Decidable (_ = _))

instance [DecidableLT K] (c : EngagerCall K) (h : List (EngagerCall K)) :
    Decidable (RisesFromAlignment c h) :=
  inferInstanceAs (Decidable (_ → _))

end Decide

end EngagerCall

namespace BilateralEngager

open EngagerCall

/-- A running engager goes back to a start, and to a release once it ramps down. -/
structure StartInv (e : BilateralEngager Double) (h : List (EngagerCall Double)) : Prop where
  idle : e.state = .off ∨ e.state = .waitAlign → e.scale = 0
  started : ¬ (e.state = .off ∨ e.state = .waitAlign) →
    ∃ new m old, h = new ++ m :: old ∧ Starts m ∧ (∀ x ∈ new, ¬ Resets x) ∧ Held new ∧
      (e.state = .rampDown → ∃ r ∈ new, Releases r)

theorem startInv_new (config : EngagerConfig Double) : StartInv (new config) [] :=
  ⟨fun _ => rfl, fun h => absurd (.inl rfl) h⟩

/-- A call that keeps the engagement comes after the same start. -/
theorem StartInv.extend {e : BilateralEngager Double} {h : List (EngagerCall Double)}
    (hI : StartInv e h) (c : EngagerCall Double) (hc : c.before = e) (hop : ¬ Resets c)
    (hrunning : ¬ (e.state = .off ∨ e.state = .waitAlign))
    (hheld : Releases c ∨ Wants c ∨ e.state = .rampDown) :
    ∃ new m old, c :: h = new ++ m :: old ∧ Starts m ∧ (∀ x ∈ new, ¬ Resets x) ∧ Held new ∧
      (c.after.state = .rampDown → ∃ r ∈ new, Releases r) := by
  obtain ⟨new, m, old, rfl, hstart, hreset, hnew, hreleased⟩ := hI.started hrunning
  refine ⟨c :: new, m, old, rfl, hstart, List.forall_mem_cons.mpr ⟨hop, hreset⟩, ⟨hnew, ?_⟩,
    fun hdown => ?_⟩
  · rcases hheld with hr | hw | hs
    · exact .inr (.inl hr)
    · exact .inr (.inr hw)
    · exact .inl (hreleased hs)
  · by_cases hs : e.state = .rampDown
    · obtain ⟨r, hmem, hr⟩ := hreleased hs
      exact ⟨r, List.mem_cons_of_mem c hmem, hr⟩
    · exact ⟨c, List.mem_cons_self, hc ▸ hs, hdown⟩

/-- After a call with a scale above zero the start is an earlier call. -/
theorem StartInv.fromAlignment {c : EngagerCall Double} {h : List (EngagerCall Double)}
    (hI : StartInv c.after (c :: h)) (hstart : Starts c → c.after.scale = 0) :
    FromAlignment c h := by
  intro hpos
  have hzero : c.after.scale ≠ 0 := fun h0 => Double.lt_irrefl 0 (h0 ▸ hpos)
  obtain ⟨new, m, old, heq, hm, hnew, hheld, -⟩ := hI.started fun hidle => hzero (hI.idle hidle)
  cases new with
  | nil =>
    obtain ⟨rfl, -⟩ := List.cons.inj heq
    exact absurd (hstart hm) hzero
  | cons x new =>
    obtain ⟨rfl, rfl⟩ := List.cons.inj heq
    exact ⟨new, m, old, rfl, hm, hnew, hheld⟩

theorem ramp_positive (rampS : Double) :
    stdMax rampS (1e-3 : Double) = .nan ∨ 0 < stdMax rampS (1e-3 : Double) := by
  have hfloor : (0 : Double) < 1e-3 := by decide +kernel
  unfold stdMax
  split
  · exact .inr hfloor
  · rename_i hnot
    exact Double.nan_or_lt_of_not_lt hfloor hnot

section Runs

variable [Rounding]

theorem startInv_update {e : BilateralEngager Double} {h : List (EngagerCall Double)}
    (hI : StartInv e h) (want aligned : Bool) (dtS : Double) :
    StartInv (e.update want aligned dtS)
      (⟨e, .update want aligned dtS, e.update want aligned dtS⟩ :: h) := by
  refine ⟨update_idle e want aligned dtS, fun hrunning => ?_⟩
  have hextend := hI.extend ⟨e, .update want aligned dtS, e.update want aligned dtS⟩ rfl nofun
  cases hstate : e.state with
  | off =>
    refine absurd ?_ hrunning
    cases want <;> simp [update, hstate]
  | waitAlign =>
    have hboth : want = true ∧ aligned = true := by
      by_contra hnot
      refine hrunning ?_
      cases want <;> cases aligned <;> simp_all [update]
    obtain ⟨rfl, rfl⟩ := hboth
    refine ⟨[], _, h, rfl, ⟨rfl, hstate, hI.idle (.inr hstate)⟩, by simp, trivial,
      fun hdown => ?_⟩
    simp [update, hstate] at hdown
  | rampUp =>
    refine hextend (by simp [hstate]) ?_
    cases want with
    | false => exact .inl ⟨by simp [hstate], by simp [update, hstate]⟩
    | true => exact .inr (.inl rfl)
  | engaged =>
    refine hextend (by simp [hstate]) ?_
    cases want with
    | false => exact .inl ⟨by simp [hstate], by simp [update, hstate]⟩
    | true => exact .inr (.inl rfl)
  | rampDown => exact hextend (by simp [hstate]) (.inr (.inr hstate))

theorem startInv_apply {e : BilateralEngager Double} {h : List (EngagerCall Double)}
    (hI : StartInv e h) (op : EngagerOp Double) :
    StartInv (e.apply op) (⟨e, op, e.apply op⟩ :: h) := by
  cases op with
  | update want aligned dtS => exact startInv_update hI want aligned dtS
  | reset => exact ⟨fun _ => rfl, fun hrunning => absurd (.inl rfl) hrunning⟩

/-! ## Time that does not go backwards -/

def onward (_ : BilateralEngager Double) (_ : List (EngagerCall Double)) : EngagerOp Double → Prop
  | .update _ _ dtS => ¬ dtS < 0
  | .reset => True

instance (e : BilateralEngager Double) (h : List (EngagerCall Double)) (op : EngagerOp Double) :
    Decidable (onward e h op) :=
  match op with
  | .update _ _ dtS => inferInstanceAs (Decidable (¬ dtS < 0))
  | .reset => inferInstanceAs (Decidable True)

structure RiseInv (e : BilateralEngager Double) (h : List (EngagerCall Double)) : Prop where
  magnitude : e.scale.Magnitude
  idle : e.state = .off ∨ e.state = .waitAlign → e.scale = 0
  since : e.state = .rampUp ∨ e.state = .engaged → Since Starts (fun x => Releases x ∨ Resets x) h

variable [Double.Lawful]

theorem riseInv_new (config : EngagerConfig Double) : RiseInv (new config) [] :=
  ⟨Double.magnitude_zero, fun _ => rfl, fun hs => by rcases hs with hs | hs <;> cases hs⟩

theorem riseInv_update {e : BilateralEngager Double} {h : List (EngagerCall Double)}
    (hI : RiseInv e h) (want aligned : Bool) (dtS : Double) (hdt : ¬ dtS < 0) :
    RiseInv (e.update want aligned dtS)
      (⟨e, .update want aligned dtS, e.update want aligned dtS⟩ :: h) := by
  have hup : ¬ upStep e.config dtS < 0 := Double.not_div_lt_zero hdt (ramp_positive _)
  have hdown : ¬ downStep e.config dtS < 0 := Double.not_div_lt_zero hdt (ramp_positive _)
  refine ⟨?_, update_idle e want aligned dtS, fun hrunning => ?_⟩
  · unfold update
    split
    · exact Double.magnitude_zero
    · exact Double.magnitude_zero
    · split
      · exact hI.magnitude
      · exact Double.magnitude_stdMin_one_add hI.magnitude hup
    · exact Double.magnitude_one
    · exact Double.magnitude_stdMax_zero_sub hI.magnitude hdown
  · -- a running engager has just started, or has been running without a release
    have hkeep : Wants ⟨e, .update want aligned dtS, e.update want aligned dtS⟩ →
        e.state = .rampUp ∨ e.state = .engaged →
        Since Starts (fun x => Releases x ∨ Resets x)
          (⟨e, .update want aligned dtS, e.update want aligned dtS⟩ :: h) := by
      intro _ hs
      refine .inr ⟨?_, hI.since hs⟩
      rintro (⟨-, hr⟩ | hr)
      · rcases hrunning with h' | h' <;> exact absurd (hr.symm.trans h') nofun
      · cases hr
    cases hstate : e.state with
    | off =>
      exfalso
      cases want <;> simp [update, hstate] at hrunning
    | waitAlign =>
      refine .inl ⟨?_, hstate, hI.idle (.inr hstate)⟩
      cases want <;> cases aligned <;> simp_all [update]
    | rampUp =>
      cases want with
      | false => simp [update, hstate] at hrunning
      | true => exact hkeep rfl (.inl hstate)
    | engaged =>
      cases want with
      | false => simp [update, hstate] at hrunning
      | true => exact hkeep rfl (.inr hstate)
    | rampDown =>
      exfalso
      simp only [update, hstate] at hrunning
      split at hrunning <;> cases want <;> simp at hrunning

theorem riseInv_apply {e : BilateralEngager Double} {h : List (EngagerCall Double)}
    (hI : RiseInv e h) (op : EngagerOp Double) (hop : onward e h op) :
    RiseInv (e.apply op) (⟨e, op, e.apply op⟩ :: h) := by
  cases op with
  | update want aligned dtS => exact riseInv_update hI want aligned dtS hop
  | reset =>
    refine ⟨Double.magnitude_zero, fun _ => rfl, fun hs => ?_⟩
    rcases hs with hs | hs <;> cases hs

/-- A scale that rises is on its way up. -/
theorem RiseInv.rises {e : BilateralEngager Double} {h : List (EngagerCall Double)}
    (hI : RiseInv e h) (op : EngagerOp Double) (hop : onward e h op) :
    RisesFromAlignment ⟨e, op, e.apply op⟩ h := by
  intro hrise
  have hnonneg : ¬ e.scale < 0 := by
    obtain ⟨x, hx, hx0, -⟩ := hI.magnitude
    rw [hx]
    simpa using hx0
  cases op with
  | reset => exact absurd hrise hnonneg
  | update want aligned dtS =>
    change e.scale < (e.update want aligned dtS).scale at hrise
    cases hstate : e.state with
    | off | waitAlign =>
      have hzero : (e.update want aligned dtS).scale = 0 := by simp [update, hstate]
      rw [hzero] at hrise
      exact absurd hrise hnonneg
    | rampUp => exact hI.since (.inl hstate)
    | engaged => exact hI.since (.inr hstate)
    | rampDown =>
      exfalso
      have hdown : ¬ downStep e.config dtS < 0 := Double.not_div_lt_zero hop (ramp_positive _)
      simp only [update, hstate, stdMax] at hrise
      split at hrise
      · exact Double.not_lt_sub hI.magnitude hdown hrise
      · exact hnonneg hrise

end Runs

/-- **Engagement starts from an alignment.** In every run a scale above zero goes back to an update
that found the arm aligned at scale zero, with no reset since and the command held until the
release. Unless time goes backwards, the scale rises only if no release came after that update. -/
theorem engaged_from_alignment [Rounding] [Double.Lawful] (config : EngagerConfig Double) :
    (∀ e h, (machine config).Runs e h → Always FromAlignment h) ∧
      ∀ e h, (machine config).RunWhere onward e h → Always RisesFromAlignment h := by
  constructor
  · intro e h hr
    refine (hr.always (I := StartInv) (startInv_new config) ?_ ?_).2
    · rintro e h op e' c hI - hs
      obtain ⟨rfl, rfl⟩ := Prod.mk.inj (Option.some.inj hs)
      exact startInv_apply hI op
    · rintro e h op e' c hI - hs
      obtain ⟨rfl, hc⟩ := Prod.mk.inj (Option.some.inj hs)
      obtain rfl := Option.some.inj hc
      refine (startInv_apply hI op).fromAlignment fun ⟨_, hwait, _⟩ => ?_
      cases op with
      | update want aligned dtS =>
        change e.state = _ at hwait
        simp [apply, update, hwait]
      | reset => rfl
  · intro e h hr
    refine (hr.always (I := RiseInv) (riseInv_new config) ?_ ?_).2
    · intro e h op e' c hI hop hs
      obtain ⟨rfl, rfl⟩ := Prod.mk.inj (Option.some.inj hs)
      exact riseInv_apply hI op hop
    · intro e h op e' c hI hop hs
      obtain ⟨rfl, hc⟩ := Prod.mk.inj (Option.some.inj hs)
      obtain rfl := Option.some.inj hc
      exact hI.rises op hop

attribute [local instance] Rounding.exact

/-- Request, alignment, full scale, release, and the request again while it ramps down. -/
theorem engaged_from_alignment_release :
    ∃ e h, (machine defaultConfig).RunWhere onward e h ∧ (e.state = .rampDown ∧ 0 < e.scale) ∧
      Always FromAlignment h ∧ Always RisesFromAlignment h := by
  obtain ⟨e, h, hr, hq⟩ := (machine (K := Double) defaultConfig).exists_runWhere onward
    [.update true false 0, .update true true 0, .update true false 1, .update false false 0.01,
      .update true true 0.01]
    (fun e _ => e.state = .rampDown ∧ 0 < e.scale) (by decide +kernel)
  have hgo := @engaged_from_alignment Rounding.exact Double.exact_lawful defaultConfig
  exact ⟨e, h, hr, hq, hgo.1 e h (hr.mono fun _ _ _ _ => trivial), hgo.2 e h hr⟩

/-- The same release with time going backwards: the scale rises while the machine ramps down. -/
theorem scale_rises_backwards :
    ∃ e h, (machine (K := Double) defaultConfig).Runs e h ∧ e.state = .rampDown ∧
      ¬ Always RisesFromAlignment h :=
  (machine defaultConfig).exists_violation RisesFromAlignment
    [.update true false 0, .update true true 0, .update true false 1, .update false false 0.01,
      .update false false (-0.01)]
    (fun e _ => e.state = .rampDown) (by decide +kernel)

end BilateralEngager

end OpenArmTeleop.Control
