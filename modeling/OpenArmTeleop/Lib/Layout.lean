import Mathlib

/-!
# Layouts of bytes

A layout writes each value of a type in a fixed number of bytes, and reads each value from them.
-/

namespace Bytes

/-! ## Numbers -/

/-- The number with these bytes, least significant first. -/
def value : List UInt8 → ℕ
  | [] => 0
  | b :: bs => b.toNat + 256 * value bs

theorem value_lt (bs : List UInt8) : value bs < 256 ^ bs.length := by
  induction bs with
  | nil => simp [value]
  | cons b bs ih =>
    have hb : b.toNat < 256 := b.toNat_lt
    rw [value, List.length_cons, pow_succ]
    omega

theorem value_inj {as bs : List UInt8} (hlen : as.length = bs.length) (h : value as = value bs) :
    as = bs := by
  induction as generalizing bs with
  | nil => exact (List.eq_nil_of_length_eq_zero hlen.symm).symm
  | cons a as ih =>
    obtain ⟨b, bs, rfl⟩ := List.exists_cons_of_length_eq_add_one hlen.symm
    have ha : a.toNat < 256 := a.toNat_lt
    have hb : b.toNat < 256 := b.toNat_lt
    simp only [value] at h
    have hhead : a = b := UInt8.toNat_inj.mp (by omega)
    have htail : as = bs := ih (by simpa using hlen) (by omega)
    rw [hhead, htail]

/-! ## Layouts -/

structure Layout (α : Type) where
  size : ℕ
  put : α → List UInt8
  get : List UInt8 → α
  length_put : ∀ a, (put a).length = size
  get_put : ∀ a, get (put a) = a
  put_get : ∀ bs, bs.length = size → put (get bs) = bs

namespace Layout

variable {α β : Type}

def byte : Layout UInt8 where
  size := 1
  put b := [b]
  get bs := bs.headD 0
  length_put _ := rfl
  get_put _ := rfl
  put_get bs h := by
    obtain ⟨b, rfl⟩ := List.length_eq_one_iff.mp h
    rfl

def pair (l : Layout α) (m : Layout β) : Layout (α × β) where
  size := l.size + m.size
  put ab := l.put ab.1 ++ m.put ab.2
  get bs := (l.get (bs.take l.size), m.get (bs.drop l.size))
  length_put ab := by rw [List.length_append, l.length_put, m.length_put]
  get_put ab := by
    rw [← l.length_put ab.1, List.take_left, List.drop_left, l.get_put, m.get_put]
  put_get bs h := by
    rw [l.put_get _ (by rw [List.length_take]; omega), m.put_get _ (by rw [List.length_drop]; omega)]
    exact List.take_append_drop l.size bs

/-- A layout of a type with the same values. -/
def iso (l : Layout α) (e : α ≃ β) : Layout β where
  size := l.size
  put b := l.put (e.symm b)
  get bs := e (l.get bs)
  length_put b := l.length_put _
  get_put b := by rw [l.get_put, e.apply_symm_apply]
  put_get bs h := by rw [e.symm_apply_apply, l.put_get bs h]

/-! ## Arrays -/

def getList (l : Layout α) : ℕ → List UInt8 → List α
  | 0, _ => []
  | n + 1, bs => l.get (bs.take l.size) :: getList l n (bs.drop l.size)

theorem length_getList (l : Layout α) (n : ℕ) (bs : List UInt8) :
    (l.getList n bs).length = n := by
  induction n generalizing bs with
  | zero => rfl
  | succ n ih => rw [getList, List.length_cons, ih]

theorem length_flatMap_put (l : Layout α) (as : List α) :
    (as.flatMap l.put).length = as.length * l.size := by
  induction as with
  | nil => simp
  | cons a as ih =>
    rw [List.flatMap_cons, List.length_append, l.length_put, ih, List.length_cons]
    ring

theorem getList_put (l : Layout α) (as : List α) : l.getList as.length (as.flatMap l.put) = as := by
  induction as with
  | nil => rfl
  | cons a as ih =>
    rw [List.length_cons, getList, List.flatMap_cons, ← l.length_put a, List.take_left,
      List.drop_left, l.get_put, ih]

theorem put_getList (l : Layout α) (n : ℕ) (bs : List UInt8) (h : bs.length = n * l.size) :
    (l.getList n bs).flatMap l.put = bs := by
  induction n generalizing bs with
  | zero =>
    rw [zero_mul] at h
    exact (List.eq_nil_of_length_eq_zero h).symm
  | succ n ih =>
    rw [Nat.succ_mul] at h
    rw [getList, List.flatMap_cons, l.put_get _ (by rw [List.length_take]; omega),
      ih _ (by rw [List.length_drop]; omega)]
    exact List.take_append_drop l.size bs

def array (l : Layout α) (n : ℕ) : Layout (Vector α n) where
  size := n * l.size
  put v := v.toList.flatMap l.put
  get bs := ⟨(l.getList n bs).toArray, by rw [List.size_toArray, length_getList]⟩
  length_put v := by rw [length_flatMap_put, Vector.length_toList]
  get_put v := by
    have hv := l.getList_put v.toList
    rw [Vector.length_toList] at hv
    exact Vector.toList_inj.mp hv
  put_get bs h := l.put_getList n bs h

end Layout

end Bytes
