import OpenArmTeleop.Lib.Num

/-!
# The datagrams

`teleop_packet.hpp` and `feedback_packet.hpp`. On the wire a `double` is a 64-bit pattern,
so a datagram is a packet over `UInt64`; the program computes with a packet over its numbers.
-/

open Num

namespace OpenArmTeleop.Net

inductive ArmSide
  | right
  | left
  deriving DecidableEq

instance : Fintype ArmSide := ⟨{.right, .left}, fun a => by cases a <;> decide⟩

inductive ControlMode
  | unilateral
  | bilateral
  deriving DecidableEq

def ControlMode.toUInt8 : ControlMode → UInt8
  | .unilateral => 0
  | .bilateral => 1

def ArmSide.toUInt8 : ArmSide → UInt8
  | .right => 0
  | .left => 1

structure TeleopPacket (F : Type) where
  magic : UInt32
  version : UInt16
  packetSize : UInt16
  seq : UInt32
  sendTimeNs : UInt64
  armSide : UInt8
  mode : UInt8
  enable : UInt8
  estop : UInt8
  armDof : UInt8
  handDof : UInt8
  reserved0 : UInt8
  reserved1 : UInt8
  armPos : Vector F 8
  armVel : Vector F 8
  handPos : Vector F 4
  handVel : Vector F 4
  crc32 : UInt32
  deriving DecidableEq

structure FeedbackPacket (F : Type) where
  magic : UInt32
  version : UInt16
  packetSize : UInt16
  seq : UInt32
  sendTimeNs : UInt64
  armSide : UInt8
  mode : UInt8
  enabled : UInt8
  estop : UInt8
  armDof : UInt8
  handDof : UInt8
  safetyState : UInt8
  linkOk : UInt8
  echoCmdSeq : UInt32
  echoCmdSendTimeNs : UInt64
  cmdHoldNs : UInt64
  armPos : Vector F 8
  armVel : Vector F 8
  armTau : Vector F 8
  handPos : Vector F 4
  handVel : Vector F 4
  handTau : Vector F 4
  crc32 : UInt32
  deriving DecidableEq

variable {F G : Type}

/-! ## Reads -/

/-- Reads an array with no check of the index. -/
def readAt {n : ℕ} (xs : Vector F n) (wild : ℕ → F) (i : ℕ) : F := xs[i]?.getD (wild i)

theorem getElem?_eq_readAt {n : ℕ} (xs : Vector F n) (wild : ℕ → F) (i : ℕ) :
    xs[i]? = if i < n then some (readAt xs wild i) else none := by
  unfold readAt
  split
  · rename_i hi
    rw [Vector.getElem?_eq_getElem hi]
    rfl
  · rename_i hi
    exact Vector.getElem?_eq_none (not_lt.mp hi)

/-- Where no element fails, a pass in a monad is a map. -/
theorem mapM_eq_pure {α β : Type} {m : Type → Type} [Monad m] [LawfulMonad m] {f : α → m β}
    {g : α → β} (xs : List α) (hf : ∀ x ∈ xs, f x = pure (g x)) : xs.mapM f = pure (xs.map g) := by
  induction xs with
  | nil => rfl
  | cons x xs ih =>
    obtain ⟨hx, hxs⟩ := List.forall_mem_cons.mp hf
    rw [List.mapM_cons, hx, ih hxs, pure_bind, pure_bind]
    rfl

/-- Checked reads give all values, or fail when one of them does. -/
theorem mapM_eq_ite {α β : Type} {f : α → Option β} (p : α → Prop) [DecidablePred p] (g : α → β)
    (hf : ∀ x, f x = if p x then some (g x) else none) (xs : List α) :
    xs.mapM f = if ∀ x ∈ xs, p x then some (xs.map g) else none := by
  induction xs with
  | nil => simp
  | cons x xs ih =>
    rw [List.mapM_cons, hf, ih]
    by_cases hx : p x
    · rw [if_pos hx]
      by_cases hxs : ∀ y ∈ xs, p y
      · rw [if_pos hxs, if_pos (List.forall_mem_cons.mpr ⟨hx, hxs⟩)]
        rfl
      · rw [if_neg hxs, if_neg fun h => hxs (List.forall_mem_cons.mp h).2]
        rfl
    · rw [if_neg hx, if_neg fun h => hx (List.forall_mem_cons.mp h).1]
      rfl

/-- The first entries of an array, as many as a packet states. -/
def readFirst? {n : ℕ} (xs : Vector F n) (count : UInt8) : Option (List F) :=
  (List.range count.toNat).mapM fun i => xs[i]?

theorem readFirst?_eq {n : ℕ} (xs : Vector F n) (wild : ℕ → F) (count : UInt8) :
    readFirst? xs count =
      if count.toNat ≤ n then some ((List.range count.toNat).map (readAt xs wild)) else none := by
  rw [readFirst?, mapM_eq_ite (· < n) (readAt xs wild) (getElem?_eq_readAt xs wild)]
  refine if_congr ?_ rfl rfl
  simp only [List.mem_range]
  constructor
  · intro h
    by_contra hlt
    exact absurd (h n (not_le.mp hlt)) (lt_irrefl n)
  · exact fun h i hi => hi.trans_le h

namespace TeleopPacket

def map (f : F → G) (p : TeleopPacket F) : TeleopPacket G :=
  { p with
    armPos := p.armPos.map f
    armVel := p.armVel.map f
    handPos := p.handPos.map f
    handVel := p.handVel.map f }

def zero [Zero F] : TeleopPacket F where
  magic := 0
  version := 0
  packetSize := 0
  seq := 0
  sendTimeNs := 0
  armSide := 0
  mode := 0
  enable := 0
  estop := 0
  armDof := 0
  handDof := 0
  reserved0 := 0
  reserved1 := 0
  armPos := .replicate 8 0
  armVel := .replicate 8 0
  handPos := .replicate 4 0
  handVel := .replicate 4 0
  crc32 := 0

@[simp] theorem map_seq (f : F → G) (p : TeleopPacket F) : (p.map f).seq = p.seq := rfl
@[simp] theorem map_enable (f : F → G) (p : TeleopPacket F) : (p.map f).enable = p.enable := rfl
@[simp] theorem map_estop (f : F → G) (p : TeleopPacket F) : (p.map f).estop = p.estop := rfl
@[simp] theorem map_armDof (f : F → G) (p : TeleopPacket F) : (p.map f).armDof = p.armDof := rfl
@[simp] theorem map_handDof (f : F → G) (p : TeleopPacket F) : (p.map f).handDof = p.handDof := rfl

end TeleopPacket

namespace FeedbackPacket

def map (f : F → G) (p : FeedbackPacket F) : FeedbackPacket G :=
  { p with
    armPos := p.armPos.map f
    armVel := p.armVel.map f
    armTau := p.armTau.map f
    handPos := p.handPos.map f
    handVel := p.handVel.map f
    handTau := p.handTau.map f }

def zero [Zero F] : FeedbackPacket F where
  magic := 0
  version := 0
  packetSize := 0
  seq := 0
  sendTimeNs := 0
  armSide := 0
  mode := 0
  enabled := 0
  estop := 0
  armDof := 0
  handDof := 0
  safetyState := 0
  linkOk := 0
  echoCmdSeq := 0
  echoCmdSendTimeNs := 0
  cmdHoldNs := 0
  armPos := .replicate 8 0
  armVel := .replicate 8 0
  armTau := .replicate 8 0
  handPos := .replicate 4 0
  handVel := .replicate 4 0
  handTau := .replicate 4 0
  crc32 := 0

end FeedbackPacket

end OpenArmTeleop.Net
