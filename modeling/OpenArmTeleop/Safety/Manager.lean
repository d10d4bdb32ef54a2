import OpenArmTeleop.Net.Packet

/-!
# The safety state machine of one arm

`watchdog.cpp` and `safety_manager.cpp`.
-/

open Num OpenArmTeleop.Net

namespace OpenArmTeleop.Safety

inductive SafetyState
  | disabled
  | waitingForEnable
  | ready
  | active
  | warningTimeout
  | hold
  | estop
  | fault
  deriving DecidableEq

def SafetyState.toUInt8 : SafetyState → UInt8
  | .disabled => 0
  | .waitingForEnable => 1
  | .ready => 2
  | .active => 3
  | .warningTimeout => 4
  | .hold => 5
  | .estop => 6
  | .fault => 7

/-! ## The watchdog -/

inductive Watchdog.Status
  | ok
  | warning
  | hold
  | disable
  deriving DecidableEq

structure Watchdog where
  warningMs : Double
  holdMs : Double
  disableMs : Double

def Watchdog.check (w : Watchdog) (timeSinceLastPacketMs : Double) : Watchdog.Status :=
  if w.disableMs ≤ timeSinceLastPacketMs then .disable
  else if w.holdMs ≤ timeSinceLastPacketMs then .hold
  else if w.warningMs ≤ timeSinceLastPacketMs then .warning
  else .ok

theorem Watchdog.check_eq_disable_iff (w : Watchdog) (ms : Double) :
    w.check ms = .disable ↔ w.disableMs ≤ ms := by
  unfold check
  split_ifs with hd <;> simp [hd]

/-! ## The manager -/

structure SafetyConfig where
  requireEnable : Bool := true
  watchdogWarningMs : Double := 20.0
  watchdogHoldMs : Double := 50.0
  watchdogDisableMs : Double := 100.0
  maxTargetDeltaRadPerCycle : Double := 0.02
  maxJointVelocityRadS : Double := 1.5

def SafetyConfig.watchdog (c : SafetyConfig) : Watchdog :=
  ⟨c.watchdogWarningMs, c.watchdogHoldMs, c.watchdogDisableMs⟩

structure SafetyManager where
  config : SafetyConfig
  state : SafetyState
  estopTriggered : Bool

inductive SafetyOp (F : Type)
  | update (latestPacket : TeleopPacket F) (timeSinceLastPacketMs : Double)
  | triggerEstop
  | reset
  deriving DecidableEq

namespace SafetyManager

variable {F : Type}

def new (config : SafetyConfig) : SafetyManager where
  config := config
  state := if config.requireEnable then .waitingForEnable else .ready
  estopTriggered := false

/-- The states that an enabled command keeps alive. -/
def running : SafetyState → Bool
  | .ready | .active | .warningTimeout | .hold => true
  | _ => false

def update (m : SafetyManager) (latestPacket : TeleopPacket F) (timeSinceLastPacketMs : Double) :
    SafetyManager :=
  if m.estopTriggered = true ∨ latestPacket.estop = 1 then { m with state := .estop }
  else if m.state = .disabled then m
  else if m.config.requireEnable = true ∧ latestPacket.enable = 0 then
    { m with state := .waitingForEnable }
  else
    let status := m.config.watchdog.check timeSinceLastPacketMs
    if status = .disable then { m with state := .fault }
    else if m.state = .waitingForEnable ∧ latestPacket.enable ≠ 1 then m
    else
      let state := if m.state = .waitingForEnable then .ready else m.state
      if running state then
        { m with
          state := match status with
            | .hold => .hold
            | .warning => .warningTimeout
            | _ => .active }
      else { m with state := state }

def triggerEstop (m : SafetyManager) : SafetyManager :=
  { m with estopTriggered := true, state := .estop }

def reset (m : SafetyManager) : SafetyManager :=
  { m with
    estopTriggered := false
    state := if m.config.requireEnable then .waitingForEnable else .ready }

def apply (m : SafetyManager) : SafetyOp F → SafetyManager
  | .update p ms => m.update p ms
  | .triggerEstop => m.triggerEstop
  | .reset => m.reset

def run (m : SafetyManager) (ops : List (SafetyOp F)) : SafetyManager := ops.foldl apply m

/-! ## What one call does -/

@[simp] theorem triggerEstop_state (m : SafetyManager) : m.triggerEstop.state = .estop := rfl
@[simp] theorem triggerEstop_estopTriggered (m : SafetyManager) :
    m.triggerEstop.estopTriggered = true := rfl
@[simp] theorem triggerEstop_config (m : SafetyManager) : m.triggerEstop.config = m.config := rfl
@[simp] theorem reset_estopTriggered (m : SafetyManager) : m.reset.estopTriggered = false := rfl
@[simp] theorem reset_config (m : SafetyManager) : m.reset.config = m.config := rfl

theorem update_eq (m : SafetyManager) (p : TeleopPacket F) (ms : Double) :
    m.update p ms = { m with state := (m.update p ms).state } := by
  unfold update
  dsimp only
  split_ifs <;> rfl

@[simp] theorem update_estopTriggered (m : SafetyManager) (p : TeleopPacket F) (ms : Double) :
    (m.update p ms).estopTriggered = m.estopTriggered := by
  rw [update_eq]

@[simp] theorem update_config (m : SafetyManager) (p : TeleopPacket F) (ms : Double) :
    (m.update p ms).config = m.config := by
  rw [update_eq]

theorem apply_config (m : SafetyManager) (op : SafetyOp F) : (m.apply op).config = m.config := by
  cases op with
  | update p ms => exact update_config m p ms
  | triggerEstop => rfl
  | reset => rfl

/-- What an update needs to leave a running state behind. -/
theorem update_running (m : SafetyManager) (p : TeleopPacket F) (ms : Double)
    (h : running (m.update p ms).state = true) :
    m.estopTriggered = false ∧ p.estop ≠ 1 ∧
      (m.config.requireEnable = true → p.enable ≠ 0) ∧ ¬ m.config.watchdogDisableMs ≤ ms := by
  unfold update at h
  dsimp only at h
  split at h
  · simp [running] at h
  · rename_i hestop
    rw [not_or, Bool.not_eq_true] at hestop
    split at h
    · rename_i hs
      simp [hs, running] at h
    · split at h
      · simp [running] at h
      · rename_i henable
        split at h
        · simp [running] at h
        · rename_i hage
          rw [Watchdog.check_eq_disable_iff] at hage
          exact ⟨hestop.1, hestop.2, fun hr he => henable ⟨hr, he⟩, hage⟩

/-- Only the watchdog brings a fault about. -/
theorem update_fault (m : SafetyManager) (p : TeleopPacket F) (ms : Double)
    (h : (m.update p ms).state = .fault) (hm : m.state ≠ .fault) :
    m.config.watchdogDisableMs ≤ ms := by
  unfold update at h
  dsimp only at h
  split at h
  · cases h
  split at h
  · exact absurd h hm
  split at h
  · cases h
  split at h
  · rename_i hdisable
    exact (Watchdog.check_eq_disable_iff _ ms).mp hdisable
  split at h
  · exact absurd h hm
  by_cases hrunning : running (if m.state = .waitingForEnable then .ready else m.state) = true
  · rw [if_pos hrunning] at h
    cases hstatus : m.config.watchdog.check ms <;> rw [hstatus] at h <;> cases h
  · rw [if_neg hrunning] at h
    dsimp only at h
    split at h
    · cases h
    · exact absurd h hm

theorem reset_running (m : SafetyManager) (hreq : m.config.requireEnable = true) :
    running m.reset.state = false := by
  simp [reset, hreq, running]

/-- An enabled packet ends the wait for one. -/
def Rearms (m : SafetyManager) (p : TeleopPacket F) (ms : Double) : Prop :=
  m.state = .waitingForEnable ∧ p.enable = 1 ∧ p.estop ≠ 1 ∧ m.estopTriggered = false ∧
    ¬ m.config.watchdogDisableMs ≤ ms

instance (m : SafetyManager) (p : TeleopPacket F) (ms : Double) : Decidable (m.Rearms p ms) :=
  inferInstanceAs (Decidable (_ ∧ _ ∧ _ ∧ _ ∧ ¬ _))

/-- An update leads to a running state only from one, or when it ends the wait. -/
theorem update_running_cases (m : SafetyManager) (p : TeleopPacket F) (ms : Double)
    (h : running (m.update p ms).state = true) : running m.state = true ∨ m.Rearms p ms := by
  obtain ⟨hlatch, hestop, -, hage⟩ := update_running m p ms h
  by_cases hr : running m.state = true
  · exact .inl hr
  refine .inr ⟨?_, ?_, hestop, hlatch, hage⟩ <;> by_contra hne <;> unfold update at h <;>
    simp only [hlatch, hestop] at h <;> (repeat' split at h) <;> simp_all [running]

/-- A packet that cannot take the manager out of `ESTOP`. -/
def Harmless (config : SafetyConfig) : SafetyOp F → Prop
  | .update p ms =>
    p.estop = 1 ∨ ¬ (config.requireEnable = true ∧ p.enable = 0) ∧ ¬ config.watchdogDisableMs ≤ ms
  | _ => True

theorem update_estop_iff (m : SafetyManager) (p : TeleopPacket F) (ms : Double)
    (hs : m.state = .estop) :
    (m.update p ms).state = .estop ↔
      m.estopTriggered = true ∨ Harmless m.config (.update p ms) := by
  have hage := Watchdog.check_eq_disable_iff m.config.watchdog ms
  simp only [Harmless, update, hs]
  by_cases hl : m.estopTriggered = true
  · simp [hl]
  · by_cases he : p.estop = 1
    · simp [he]
    · by_cases hr : m.config.requireEnable = true ∧ p.enable = 0
      · simp [hl, he, hr]
      · by_cases hd : m.config.watchdogDisableMs ≤ ms
        · rw [hage.mpr hd]
          simp [hl, he, hr, hd]
        · have hstatus : m.config.watchdog.check ms ≠ .disable := fun hc => hd (hage.mp hc)
          simp [hl, he, hr, hd, hstatus, running]

/-! ## The latch over whole runs -/

/-- Nothing before the first `trigger_estop` takes the manager out of `ESTOP`. -/
def KeepsEstop (m : SafetyManager) (ops : List (SafetyOp F)) : Prop :=
  m.estopTriggered = true ∨
    ∀ op ∈ ops.takeWhile (fun op => op matches .update ..), Harmless m.config op

theorem run_estop_cons (m : SafetyManager) (op : SafetyOp F) (ops : List (SafetyOp F)) :
    (∀ k, (m.run ((op :: ops).take k)).state = .estop) ↔
      m.state = .estop ∧ ∀ k, ((m.apply op).run (ops.take k)).state = .estop := by
  constructor
  · intro h
    exact ⟨h 0, fun k => h (k + 1)⟩
  · rintro ⟨hm, h⟩ k
    cases k with
    | zero => exact hm
    | succ k => exact h k

theorem run_estop_iff (m : SafetyManager) (ops : List (SafetyOp F)) (hs : m.state = .estop)
    (hreset : .reset ∉ ops) :
    (∀ k, (m.run (ops.take k)).state = .estop) ↔ KeepsEstop m ops := by
  induction ops generalizing m with
  | nil => simp [run, hs, KeepsEstop]
  | cons op ops ih =>
    obtain ⟨hop, hops⟩ := not_or.mp (mt List.mem_cons.mpr hreset)
    rw [run_estop_cons, and_iff_right hs]
    cases op with
    | reset => exact absurd rfl hop
    | triggerEstop =>
      rw [show m.apply (.triggerEstop : SafetyOp F) = m.triggerEstop from rfl, ih _ rfl hops]
      simp [KeepsEstop]
    | update p ms =>
      have hkeep := update_estop_iff m p ms hs
      constructor
      · intro h
        have hstate : (m.update p ms).state = .estop := h 0
        have hrest := (ih (m.update p ms) hstate hops).mp h
        rcases hkeep.mp hstate with hl | hp
        · exact Or.inl hl
        · simp only [KeepsEstop, update_estopTriggered, update_config] at hrest
          exact hrest.imp_right fun hall => by simpa using ⟨hp, hall⟩
      · intro h
        have hsplit : m.estopTriggered = true ∨ Harmless m.config (.update p ms) ∧
            ∀ op ∈ ops.takeWhile (fun op => op matches .update ..), Harmless m.config op := by
          simpa [KeepsEstop] using h
        have hstate := hkeep.mpr (hsplit.imp_right And.left)
        refine (ih (m.update p ms) hstate hops).mpr ?_
        simpa only [KeepsEstop, update_estopTriggered, update_config] using
          hsplit.imp_right And.right

/-- **When `ESTOP` is latched.** Until the next `reset` the manager stays in `ESTOP` exactly
when it entered by `trigger_estop`, or sees only harmless packets before one. -/
theorem estop_latched_iff (config : SafetyConfig) (pre ops : List (SafetyOp F))
    (hs : ((new config).run pre).state = .estop) (hreset : .reset ∉ ops) :
    (∀ k, ((new config).run (pre ++ ops.take k)).state = .estop) ↔
      KeepsEstop ((new config).run pre) ops := by
  have happend : ∀ k, (new config).run (pre ++ ops.take k) =
      ((new config).run pre).run (ops.take k) := fun _ => List.foldl_append
  simp only [happend]
  exact run_estop_iff _ ops hs hreset

def flagged (enable estop : UInt8) (ageMs : ℚ) : SafetyOp UInt64 :=
  .update { TeleopPacket.zero with enable := enable, estop := estop } (.fin ageMs)

/-- The latch set by the software, then a packet that clears the enable flag. -/
theorem estop_latched_software :
    ((new {}).run [.triggerEstop, flagged 0 0 5]).state = .estop :=
  (estop_latched_iff {} [.triggerEstop] [flagged 0 0 5] (by decide) (by decide)).mpr
    (.inl (by decide)) 1

/-- An emergency stop by packet is over with the next packet that clears the enable flag, or
when its own age reaches the watchdog limit, and the arm can be active again. -/
theorem packet_estop_not_latched :
    ((new {}).run [flagged 1 1 5]).state = .estop ∧
      ((new {}).run [flagged 1 1 5, flagged 0 0 5]).state = .waitingForEnable ∧
      ((new {}).run [flagged 1 1 5, flagged 1 0 150]).state = .fault ∧
      ((new {}).run [flagged 1 1 5, flagged 0 0 5, flagged 1 0 5]).state = .active := by
  decide +kernel

/-! ## Faults over whole runs -/

/-- The manager is in `FAULT` or in `ESTOP`. -/
def Faulted (m : SafetyManager) : Prop := m.state = .fault ∨ m.state = .estop

instance (m : SafetyManager) : Decidable m.Faulted := inferInstanceAs (Decidable (_ ∨ _))

/-- The call is no `reset` and clears no required enable flag. -/
def NoRecovery (config : SafetyConfig) : SafetyOp F → Prop
  | .update p _ => ¬ (config.requireEnable = true ∧ p.enable = 0)
  | .triggerEstop => True
  | .reset => False

instance (config : SafetyConfig) : ∀ op : SafetyOp F, Decidable (NoRecovery config op)
  | .update _ _ => inferInstanceAs (Decidable (¬ (_ ∧ _)))
  | .triggerEstop => isTrue trivial
  | .reset => isFalse id

theorem update_faulted (m : SafetyManager) (p : TeleopPacket F) (ms : Double) (hm : m.Faulted)
    (hp : NoRecovery m.config (.update p ms)) : (m.update p ms).Faulted := by
  have hdisabled : m.state ≠ .disabled := by
    rcases hm with h | h <;> simp [h]
  have hwaiting : m.state ≠ .waitingForEnable := by
    rcases hm with h | h <;> simp [h]
  have hrunning : ¬ running m.state = true := by
    rcases hm with h | h <;> simp [h, running]
  have hwaits : ¬ (m.state = .waitingForEnable ∧ p.enable ≠ 1) := fun h => hwaiting h.1
  unfold update
  dsimp only
  -- neither state waits for an enable flag or runs, so a fresh packet changes nothing
  rw [if_neg hdisabled, if_neg hp, if_neg hwaits, if_neg hwaiting, if_neg hrunning]
  split
  · exact .inr rfl
  · split
    · exact .inl rfl
    · exact hm

theorem apply_faulted (m : SafetyManager) (op : SafetyOp F) (hm : m.Faulted)
    (hop : NoRecovery m.config op) : (m.apply op).Faulted := by
  cases op with
  | update p ms => exact update_faulted m p ms hm hop
  | triggerEstop => exact .inr rfl
  | reset => exact hop.elim

/-- **`FAULT` is sticky.** Without a `reset`, and without a packet that clears a required enable
flag, a manager stays in `FAULT` or `ESTOP`, however fresh and enabled its packets are. -/
theorem fault_sticky (m : SafetyManager) (ops : List (SafetyOp F)) (hm : m.Faulted)
    (hops : ∀ op ∈ ops, NoRecovery m.config op) (k : ℕ) : (m.run (ops.take k)).Faulted := by
  induction ops generalizing m k with
  | nil => simpa [run] using hm
  | cons op ops ih =>
    obtain ⟨hop, hrest⟩ := List.forall_mem_cons.mp hops
    cases k with
    | zero => exact hm
    | succ k =>
      refine ih (m.apply op) (apply_faulted m op hm hop) ?_ k
      rw [apply_config]
      exact hrest

/-- A gap of 150 ms, then two fresh and enabled packets and an emergency stop. -/
theorem fault_sticky_fresh :
    (((new {}).run [flagged 1 0 5, flagged 1 0 150]).run
      [flagged 1 0 5, flagged 1 0 5, .triggerEstop, flagged 1 0 5]).Faulted :=
  fault_sticky ((new {}).run [flagged 1 0 5, flagged 1 0 150])
    [flagged 1 0 5, flagged 1 0 5, .triggerEstop, flagged 1 0 5] (by decide +kernel)
    (by decide +kernel) 4

end SafetyManager

end OpenArmTeleop.Safety
