import Mathlib.Data.Nat.Bitwise
import Mathlib.Tactic.Ring

/-!
# Byte images of numbers

The bytes a little-endian machine keeps in memory for an unsigned number of a given width, and the
number a run of bytes stands for. Reversing an image changes the byte order.
-/

namespace ByteImage

/-- The memory image of `value`, `width` bytes wide. -/
def littleEndian : Nat → Nat → List UInt8
  | 0, _ => []
  | width + 1, value => UInt8.ofNat (value % 256) :: littleEndian width (value / 256)

/-- The number a memory image stands for. -/
def value : List UInt8 → Nat
  | [] => 0
  | byte :: bytes => byte.toNat + 256 * value bytes

@[simp]
theorem littleEndian_length (width v : Nat) : (littleEndian width v).length = width := by
  induction width generalizing v with
  | zero => rfl
  | succ width ih => simp [littleEndian, ih]

theorem value_lt (bytes : List UInt8) : value bytes < 256 ^ bytes.length := by
  induction bytes with
  | nil => simp [value]
  | cons byte bytes ih =>
      have hbyte := byte.toNat_lt
      rw [value, List.length_cons, pow_succ]
      omega

theorem value_littleEndian {width v : Nat} (h : v < 256 ^ width) :
    value (littleEndian width v) = v := by
  induction width generalizing v with
  | zero =>
      rw [pow_zero] at h
      simp only [littleEndian, value]
      omega
  | succ width ih =>
      have hdiv : v / 256 < 256 ^ width := by
        rw [Nat.div_lt_iff_lt_mul (by decide)]
        rwa [pow_succ] at h
      rw [littleEndian, value, ih hdiv, UInt8.toNat_ofNat', Nat.mod_eq_of_lt (by omega)]
      omega

theorem littleEndian_value (bytes : List UInt8) : littleEndian bytes.length (value bytes) = bytes := by
  induction bytes with
  | nil => rfl
  | cons byte bytes ih =>
      have hbyte := byte.toNat_lt
      rw [List.length_cons, littleEndian, value]
      congr 1
      · apply UInt8.toNat_inj.mp
        rw [UInt8.toNat_ofNat', Nat.mod_eq_of_lt (by omega)]
        omega
      · rw [show (byte.toNat + 256 * value bytes) / 256 = value bytes by omega]
        exact ih

theorem value_append (xs ys : List UInt8) :
    value (xs ++ ys) = value xs + 256 ^ xs.length * value ys := by
  induction xs with
  | nil => simp [value]
  | cons x xs ih =>
      rw [List.cons_append, value, value, ih, List.length_cons, pow_succ]
      ring

theorem littleEndian_add (a b v : Nat) :
    littleEndian (a + b) v = littleEndian a v ++ littleEndian b (v / 256 ^ a) := by
  induction a generalizing v with
  | zero => simp [littleEndian]
  | succ a ih =>
      rw [show a + 1 + b = (a + b) + 1 by omega, littleEndian, littleEndian, ih,
        Nat.div_div_eq_div_mul, pow_succ, Nat.mul_comm 256, List.cons_append]

/-- Only the low bytes of a number reach its image. -/
theorem littleEndian_mod (width v : Nat) :
    littleEndian width (v % 256 ^ width) = littleEndian width v := by
  induction width generalizing v with
  | zero => rfl
  | succ width ih =>
      rw [littleEndian, littleEndian, pow_succ, Nat.mul_comm, Nat.mod_mul_right_div_self, ih,
        Nat.mod_mul_right_mod]

/-- The number with the bytes of its image in the other order. -/
def swap (width v : Nat) : Nat := value (littleEndian width v).reverse

theorem swap_lt (width v : Nat) : swap width v < 256 ^ width := by
  have h := value_lt (littleEndian width v).reverse
  rwa [List.length_reverse, littleEndian_length] at h

theorem littleEndian_swap (width v : Nat) :
    littleEndian width (swap width v) = (littleEndian width v).reverse := by
  have h := littleEndian_value (littleEndian width v).reverse
  rwa [List.length_reverse, littleEndian_length] at h

theorem swap_value_reverse (bytes : List UInt8) :
    swap bytes.length (value bytes.reverse) = value bytes := by
  have h := littleEndian_value bytes.reverse
  rw [List.length_reverse] at h
  rw [swap, h, List.reverse_reverse]

/-- Swapping a double-width number swaps its halves and exchanges them. -/
theorem swap_add (w v : Nat) :
    swap (w + w) v = swap w (v / 256 ^ w) + 256 ^ w * swap w v := by
  rw [swap, littleEndian_add, List.reverse_append, value_append, List.length_reverse,
    littleEndian_length]
  rfl

end ByteImage
