import Mathlib.Data.BitVec

namespace TouchHLE

/-- Guest addresses and sizes are `u32`, as `cpu.rs` names them. -/
abbrev VAddr := BitVec 32

abbrev GuestUSize := BitVec 32

/-- Modelled from the spec: `crate::mem` is not in src/. The guest address space is
byte-addressable memory with typed accessors keyed by a 32-bit virtual address. -/
structure Mem where
  bytes : VAddr → BitVec 8

/-- The `size` bytes from `base` on, counted modulo 2^32. -/
def inRange (base : VAddr) (size : Nat) (x : VAddr) : Prop := (x - base).toNat < size

instance (base : VAddr) (size : Nat) (x : VAddr) : Decidable (inRange base size x) :=
  inferInstanceAs (Decidable (_ < _))

/-- Two byte ranges with no address in common. -/
def Separate (a : VAddr) (n : Nat) (b : VAddr) (m : Nat) : Prop :=
  ∀ x, inRange a n x → ¬ inRange b m x

namespace Mem

/-- `mem.read` of a `u32`: four bytes, little-endian. -/
def read (m : Mem) (a : VAddr) : BitVec 32 :=
  m.bytes (a + 3) ++ m.bytes (a + 2) ++ m.bytes (a + 1) ++ m.bytes a

def write (m : Mem) (a : VAddr) (v : BitVec 32) : Mem :=
  ⟨fun x => if inRange a 4 x then v.extractLsb' (8 * (x - a).toNat) 8 else m.bytes x⟩

variable {m m' : Mem} {a b x : VAddr} {v : BitVec 32}

theorem bytes_write_of_not_inRange (h : ¬ inRange a 4 x) : (m.write a v).bytes x = m.bytes x :=
  if_neg h

theorem read_congr (h : ∀ x, inRange a 4 x → m.bytes x = m'.bytes x) : m.read a = m'.read a := by
  simp only [read, h a (by simp [inRange]), h (a + 1) (by simp [inRange]), h (a + 2) (by simp [inRange]),
    h (a + 3) (by simp [inRange])]

theorem concat_bytes (v : BitVec 32) :
    v.extractLsb' 24 8 ++ v.extractLsb' 16 8 ++ v.extractLsb' 8 8 ++ v.extractLsb' 0 8 = v := by
  ext ⟨i, hi⟩
  have h3 : i - 8 - 8 - 8 < 8 := by omega
  simp only [BitVec.getLsbD_append, BitVec.getLsbD_extractLsb', h3, decide_True, Bool.true_and]
  by_cases h0 : i < 8 <;> by_cases h1 : i - 8 < 8 <;> by_cases h2 : i - 8 - 8 < 8 <;>
    simp only [h0, h1, h2, decide_True, decide_False, Bool.true_and, cond_true, cond_false] <;> congr 1 <;> omega

@[simp] theorem read_write_self (m : Mem) (a : VAddr) (v : BitVec 32) : (m.write a v).read a = v := by
  have hb : ∀ k : VAddr, k.toNat < 4 → (m.write a v).bytes (a + k) = v.extractLsb' (8 * k.toNat) 8 :=
    fun k hk => by simp only [write, inRange, add_sub_cancel_left, if_pos hk]
  have h0 := hb 0 (by decide)
  rw [add_zero] at h0
  rw [read, hb 3 (by decide), hb 2 (by decide), hb 1 (by decide), h0]
  exact concat_bytes v

theorem read_write_of_separate (h : Separate a 4 b 4) : (m.write b v).read a = m.read a :=
  read_congr fun x hx => bytes_write_of_not_inRange (h x hx)

theorem getLsbD_read (m : Mem) (a : VAddr) (k : Fin 4) {b : Nat} (hb : b < 8) :
    (m.read a).getLsbD (8 * k + b) = (m.bytes (a + BitVec.ofNat 32 k)).getLsbD b := by
  obtain ⟨k, hk⟩ := k
  simp only [read, BitVec.getLsbD_append]
  obtain rfl | rfl | rfl | rfl : k = 0 ∨ k = 1 ∨ k = 2 ∨ k = 3 := by omega
  all_goals simp (disch := omega) only [decide_eq_true, decide_eq_false, cond_true, cond_false,
    Nat.add_sub_cancel_left, Nat.add_sub_cancel, BitVec.ofNat_eq_ofNat, BitVec.add_zero]
  all_goals (congr 1; omega)

theorem bytes_eq_of_read_eq (h : m.read a = m'.read a) (hx : inRange a 4 x) : m.bytes x = m'.bytes x := by
  have hk : a + BitVec.ofNat 32 (x - a).toNat = x := by bv_omega
  rw [← hk]
  apply BitVec.eq_of_getLsbD_eq
  intro ⟨b, hb⟩
  have h1 := getLsbD_read m a ⟨(x - a).toNat, hx⟩ hb
  have h2 := getLsbD_read m' a ⟨(x - a).toNat, hx⟩ hb
  simp only at h1 h2
  rw [← h1, ← h2, h]

end Mem

theorem separate_of_toNat {a b : VAddr} {n m : Nat} (hab : n ≤ (b - a).toNat) (hba : m ≤ (a - b).toNat) :
    Separate a n b m := by
  intro x hx hy
  unfold inRange at hx hy
  bv_omega

theorem Separate.symm {a b : VAddr} {n m : Nat} (h : Separate a n b m) : Separate b m a n :=
  fun x hb ha => h x ha hb

theorem inRange.mono {a x : VAddr} {n m : Nat} (h : inRange a n x) (hnm : n ≤ m) : inRange a m x :=
  Nat.lt_of_lt_of_le h hnm

theorem Separate.mono {a b a' b' : VAddr} {n m n' m' : Nat} (h : Separate a n b m)
    (ha : ∀ x, inRange a' n' x → inRange a n x) (hb : ∀ x, inRange b' m' x → inRange b m x) :
    Separate a' n' b' m' :=
  fun x hx hy => h x (ha x hx) (hb x hy)

end TouchHLE
