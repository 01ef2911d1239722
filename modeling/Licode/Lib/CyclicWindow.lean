import Mathlib.Data.List.Basic
import Mathlib.Tactic.Ring

/-!
# Windows on a cyclic array

A ring buffer keeps its contents in a fixed array and lets them run over the array's end back to
its beginning. What a client of the ring sees is a *window*: the cells met when walking forward from
a start index, wrapping once. Two facts carry every ring argument: a window splits at any inner
point, and storing a block right behind a window extends the window by exactly that block.
-/

namespace CyclicWindow

variable {α : Type*}

/-- The index reached from `start` after `offset` steps around an array of `size` cells. -/
def advance (size start offset : Nat) : Nat :=
  if start + offset < size then start + offset else start + offset - size

/-- The `len` cells of the array met from `start` on, continuing at cell `0` behind the last one. -/
def window (cells : List α) (start len : Nat) : List α :=
  (cells.drop start ++ cells.take start).take len

/-- Overwrite the cells from `pos` on with a block. -/
def store (cells : List α) (pos : Nat) (block : List α) : List α :=
  cells.take pos ++ block ++ cells.drop (pos + block.length)

theorem advance_cases (size start offset : Nat) :
    (start + offset < size ∧ advance size start offset = start + offset)
      ∨ (size ≤ start + offset ∧ advance size start offset = start + offset - size) := by
  unfold advance
  split
  · exact Or.inl ⟨by assumption, rfl⟩
  · exact Or.inr ⟨by omega, rfl⟩

theorem advance_lt {size start offset : Nat} (hstart : start < size) (hoffset : offset ≤ size) :
    advance size start offset < size := by
  unfold advance
  split <;> omega

@[simp]
theorem advance_zero {size start : Nat} (hstart : start < size) : advance size start 0 = start := by
  simp [advance, hstart]

theorem advance_advance {size start a b : Nat} (hstart : start < size) (hab : a + b ≤ size) :
    advance size (advance size start a) b = advance size start (a + b) := by
  unfold advance
  split <;> split <;> split <;> omega

@[simp]
theorem window_zero (cells : List α) (start : Nat) : window cells start 0 = [] := by
  simp [window]

theorem window_length {cells : List α} {start len : Nat} (hstart : start ≤ cells.length)
    (hlen : len ≤ cells.length) : (window cells start len).length = len := by
  simp only [window, List.length_take, List.length_append, List.length_drop]
  omega

/-- The cell a window shows at an offset. -/
theorem window_getElem? {cells : List α} {start len i : Nat} (hstart : start < cells.length)
    (hlen : len ≤ cells.length) (hi : i < len) :
    (window cells start len)[i]? = cells[advance cells.length start i]? := by
  rw [window, List.getElem?_take_of_lt hi, List.getElem?_append, List.length_drop, advance]
  by_cases hwrap : start + i < cells.length
  · rw [if_pos (by omega), if_pos hwrap, List.getElem?_drop]
  · rw [if_neg (by omega), if_neg hwrap, List.getElem?_take_of_lt (by omega)]
    congr 1
    omega

/-- A window that does not reach the end of the array is a block of it. -/
theorem window_of_lt {cells : List α} {start len : Nat} (hfit : start + len ≤ cells.length) :
    window cells start len = (cells.drop start).take len := by
  rw [window, List.take_append_of_le_length (by rw [List.length_drop]; omega)]

/-- A window that reaches the end continues at the beginning. -/
theorem window_of_ge {cells : List α} {start len : Nat} (hstart : start ≤ cells.length)
    (hlen : len ≤ cells.length) (hwrap : cells.length ≤ start + len) :
    window cells start len = cells.drop start ++ cells.take (len - (cells.length - start)) := by
  rw [window, List.take_append, List.length_drop, List.take_of_length_le
    (by rw [List.length_drop]; omega), List.take_take]
  congr 2
  omega

/-- **A window splits.** The first `a` cells, then the window that starts behind them. -/
theorem window_add {cells : List α} {start a b : Nat} (hstart : start < cells.length)
    (hab : a + b ≤ cells.length) :
    window cells start (a + b)
      = window cells start a ++ window cells (advance cells.length start a) b := by
  have hnext : advance cells.length start a < cells.length := advance_lt hstart (by omega)
  apply List.ext_getElem?
  intro i
  rw [List.getElem?_append, window_length (by omega) (by omega)]
  by_cases hia : i < a
  · rw [if_pos hia, window_getElem? hstart hab (by omega), window_getElem? hstart (by omega) hia]
  · rw [if_neg hia]
    by_cases hib : i < a + b
    · rw [window_getElem? hstart hab hib, window_getElem? hnext (by omega) (by omega),
        advance_advance hstart (by omega)]
      congr 2
      omega
    · rw [List.getElem?_eq_none (by rw [window_length (by omega) hab]; omega),
        List.getElem?_eq_none (by rw [window_length (by omega) (by omega)]; omega)]

theorem take_window {cells : List α} {start a len : Nat} (ha : a ≤ len) :
    (window cells start len).take a = window cells start a := by
  rw [window, window, List.take_take, min_eq_left ha]

theorem drop_window {cells : List α} {start a len : Nat} (hstart : start < cells.length)
    (ha : a ≤ len) (hlen : len ≤ cells.length) :
    (window cells start len).drop a = window cells (advance cells.length start a) (len - a) := by
  obtain ⟨b, rfl⟩ : ∃ b, len = a + b := ⟨len - a, by omega⟩
  rw [window_add hstart hlen, List.drop_append, List.drop_of_length_le
    (by rw [window_length (by omega) (by omega)]), window_length (by omega) (by omega)]
  simp

@[simp]
theorem store_nil (cells : List α) (pos : Nat) : store cells pos [] = cells := by
  simp [store]

theorem store_length {cells block : List α} {pos : Nat} (hfit : pos + block.length ≤ cells.length) :
    (store cells pos block).length = cells.length := by
  simp only [store, List.length_append, List.length_take, List.length_drop]
  omega

theorem store_getElem? {cells block : List α} {pos i : Nat}
    (hfit : pos + block.length ≤ cells.length) :
    (store cells pos block)[i]?
      = if pos ≤ i ∧ i < pos + block.length then block[i - pos]? else cells[i]? := by
  have hpos : min pos cells.length = pos := by omega
  rw [store, List.getElem?_append, List.getElem?_append, List.length_append, List.length_take, hpos]
  by_cases hlow : i < pos
  · rw [if_pos (by omega), if_pos hlow, List.getElem?_take_of_lt hlow, if_neg (by omega)]
  · by_cases hblock : i < pos + block.length
    · rw [if_pos hblock, if_neg hlow, if_pos (by omega)]
    · rw [if_neg hblock, if_neg (by omega), List.getElem?_drop]
      congr 1
      omega

/-- **Storing behind a window extends it.** The block is stored in one piece, so it must not cross
the end of the array, and it must leave the cells of the window alone. -/
theorem window_store {cells block : List α} {start len : Nat} (hstart : start < cells.length)
    (hroom : len + block.length ≤ cells.length)
    (hfit : advance cells.length start len + block.length ≤ cells.length) :
    window (store cells (advance cells.length start len) block) start (len + block.length)
      = window cells start len ++ block := by
  have hsize := store_length hfit
  have hend := advance_cases cells.length start len
  apply List.ext_getElem?
  intro i
  have hcell := advance_cases cells.length start i
  rw [List.getElem?_append, window_length (by omega) (by omega)]
  by_cases hi : i < len + block.length
  · rw [window_getElem? (by omega) (by omega) hi, store_getElem? hfit, hsize]
    by_cases hold : i < len
    · rw [if_pos hold, window_getElem? hstart (by omega) hold, if_neg (by omega)]
    · rw [if_neg hold, if_pos (by omega)]
      congr 1
      omega
  · rw [List.getElem?_eq_none (by rw [window_length (by omega) (by omega)]; omega),
      if_neg (by omega), List.getElem?_eq_none (by omega)]

end CyclicWindow
