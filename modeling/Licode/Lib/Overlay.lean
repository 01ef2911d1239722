import Licode.Lib.ByteImage
import Mathlib.Data.List.Basic

/-!
# Fields overlaid on a run of bytes

A struct laid over a buffer reads and writes fields at fixed places. A field is a run of elements; what
is written outside of the buffer is not seen in it. Numbers in network order are the reversed images of
a little-endian machine.
-/

namespace Overlay

variable {α : Type*}

def read (data : List α) (offset width : Nat) : List α := (data.drop offset).take width

def write (data : List α) (offset : Nat) (field : List α) : List α :=
  data.take offset ++ (field.take (data.length - offset) ++ data.drop (offset + field.length))

/-! ### What is read after a write -/

section Write

variable {data : List α} {offset width : Nat} {field : List α}

theorem length_read (h : offset + width ≤ data.length) : (read data offset width).length = width := by
  rw [read, List.length_take, List.length_drop]
  omega

theorem write_of_le (h : offset + field.length ≤ data.length) :
    write data offset field = data.take offset ++ (field ++ data.drop (offset + field.length)) := by
  have hfield : field.take (data.length - offset) = field := List.take_of_length_le (by omega)
  rw [write, hfield]

@[simp]
theorem length_write (data : List α) (offset : Nat) (field : List α) :
    (write data offset field).length = data.length := by
  simp only [write, List.length_append, List.length_take, List.length_drop]
  omega

theorem read_write (h : offset + field.length ≤ data.length) :
    read (write data offset field) offset field.length = field := by
  have htake : (data.take offset).length = offset := by
    rw [List.length_take]
    omega
  rw [write_of_le h, read, List.drop_append_of_le_length (by omega), List.drop_of_length_le (by omega),
    List.nil_append, List.take_left]

/-- A field before the one that is written. -/
theorem read_write_before (data : List α) (field : List α) {offset' : Nat} (h : offset' + width ≤ offset) :
    read (write data offset field) offset' width = read data offset' width := by
  by_cases hat : offset ≤ data.length
  · have htake : (data.take offset).length = offset := List.length_take_of_le hat
    rw [write, read, read, List.drop_append_of_le_length (by omega),
      List.take_append_of_le_length (by rw [List.length_drop]; omega), List.drop_take, List.take_take]
    congr 1
    omega
  · have hnone : data.length - offset = 0 := by omega
    rw [write, hnone, List.take_zero, List.take_of_length_le (by omega),
      List.drop_of_length_le (by omega), List.append_nil, List.append_nil]

/-- A field behind the one that is written. -/
theorem read_write_after (data : List α) {field : List α} {offset' : Nat} (width : Nat)
    (h : offset + field.length ≤ offset') :
    read (write data offset field) offset' width = read data offset' width := by
  have hdrop : (write data offset field).drop offset' = data.drop offset' := by
    apply List.ext_getElem?
    intro i
    have hlen := length_write data offset field
    by_cases hi : offset' + i < data.length
    · have htake : (data.take offset).length = offset := List.length_take_of_le (by omega)
      rw [List.getElem?_drop, List.getElem?_drop, write_of_le (by omega), ← List.append_assoc,
        List.getElem?_append_right (by rw [List.length_append]; omega), List.getElem?_drop]
      congr 1
      rw [List.length_append]
      omega
    · rw [List.getElem?_drop, List.getElem?_drop, List.getElem?_eq_none (by omega),
        List.getElem?_eq_none (by omega)]
  rw [read, read, hdrop]

theorem read_add (data : List α) (offset width width' : Nat) :
    read data offset (width + width') = read data offset width ++ read data (offset + width) width' := by
  rw [read, read, read, List.take_add, List.drop_drop]

theorem read_congr {data data' : List α} (h : ∀ i, offset ≤ i → i < offset + width → data'[i]? = data[i]?) :
    read data' offset width = read data offset width := by
  apply List.ext_getElem?
  intro i
  by_cases hi : i < width
  · rw [read, read, List.getElem?_take_of_lt hi, List.getElem?_take_of_lt hi, List.getElem?_drop,
      List.getElem?_drop]
    exact h _ (by omega) (by omega)
  · have hnone : ∀ data : List α, (read data offset width)[i]? = none := by
      intro data
      refine List.getElem?_eq_none ((List.length_take_le _ _).trans ?_)
      omega
    rw [hnone, hnone]

/-- Fields of the first part of a buffer. -/
theorem read_append (rest : List α) (h : offset + width ≤ data.length) :
    read (data ++ rest) offset width = read data offset width := by
  rw [read, read, List.drop_append_of_le_length (by omega),
    List.take_append_of_le_length (by rw [List.length_drop]; omega)]

theorem write_append (rest : List α) (h : offset + field.length ≤ data.length) :
    write (data ++ rest) offset field = write data offset field ++ rest := by
  rw [write_of_le h, write_of_le (by rw [List.length_append]; omega),
    List.take_append_of_le_length (by omega), List.drop_append_of_le_length h]
  simp

/-- A field with something before and behind it. -/
theorem read_field {before : List α} (hbefore : before.length = offset) (hfield : field.length = width)
    (behind : List α) : read (before ++ (field ++ behind)) offset width = field := by
  rw [read, ← hbefore, ← hfield, List.drop_left, List.take_left]

theorem write_field {before old : List α} (hbefore : before.length = offset) (hold : old.length = field.length)
    (behind : List α) : write (before ++ (old ++ behind)) offset field = before ++ (field ++ behind) := by
  subst hbefore
  rw [write_of_le (by simp only [List.length_append]; omega), List.take_left, ← hold, ← List.drop_drop, List.drop_left,
    List.drop_left]

/-- Two buffers differ at most in a field. -/
def SameOutside (data data' : List α) (offset width : Nat) : Prop :=
  data'.length = data.length ∧ ∀ i, i < offset ∨ offset + width ≤ i → data'[i]? = data[i]?

theorem sameOutside_write (data : List α) (offset : Nat) (field : List α) :
    SameOutside data (write data offset field) offset field.length := by
  refine ⟨length_write _ _ _, ?_⟩
  have hread : ∀ {i}, read (write data offset field) i 1 = read data i 1 →
      (write data offset field)[i]? = data[i]? := by
    intro i h
    have hhead := congrArg List.head? h
    simpa [read, List.head?_take, List.head?_drop] using hhead
  rintro i (hbefore | hafter)
  · exact hread (read_write_before data field (by omega))
  · exact hread (read_write_after data 1 hafter)

end Write

/-! ### Numbers in network order -/

def number (bytes : List UInt8) : Nat := ByteImage.value bytes.reverse

def image (width value : Nat) : List UInt8 := (ByteImage.littleEndian width value).reverse

@[simp]
theorem length_image (width value : Nat) : (image width value).length = width := by
  rw [image, List.length_reverse, ByteImage.littleEndian_length]

theorem number_image {width value : Nat} (h : value < 256 ^ width) : number (image width value) = value := by
  rw [number, image, List.reverse_reverse, ByteImage.value_littleEndian h]

/-- A number that does not fit is cut off. -/
theorem number_image_mod (width value : Nat) : number (image width value) = value % 256 ^ width := by
  rw [image, ← ByteImage.littleEndian_mod]
  exact number_image (Nat.mod_lt _ (Nat.pow_pos (by omega)))

theorem number_append (xs ys : List UInt8) :
    number (xs ++ ys) = number ys + 256 ^ ys.length * number xs := by
  rw [number, List.reverse_append, ByteImage.value_append, List.length_reverse]
  rfl

theorem number_lt (bytes : List UInt8) : number bytes < 256 ^ bytes.length := by
  rw [← List.length_reverse]
  exact ByteImage.value_lt _

theorem number_read_lt (data : List UInt8) (offset width : Nat) :
    number (read data offset width) < 256 ^ width := by
  refine (number_lt _).trans_le (Nat.pow_le_pow_right (by omega) ?_)
  exact List.length_take_le _ _

end Overlay
