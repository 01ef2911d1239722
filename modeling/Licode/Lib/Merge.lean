import Mathlib.Data.Nat.Basic
import Mathlib.Order.Basic
import Mathlib.Order.Lattice

/-!
# Keeping the greater of two

Reports that are merged by keeping the greater value leave the same behind in any order, also where a
value comes with others that belong to it: then a report must be told by its rank.
-/

namespace Licode

variable {α : Type*} {rank : α → Nat}

/-- The one with the greater rank, and the first of two that have the same. -/
def greater (rank : α → Nat) (a b : α) : α := if rank a < rank b then b else a

theorem rank_greater (a b : α) : rank (greater rank a b) = max (rank a) (rank b) := by
  unfold greater
  split
  · next hlt => exact (max_eq_right hlt.le).symm
  · next hle => exact (max_eq_left (Nat.le_of_not_lt hle)).symm

theorem rank_le_greater (a b : α) : rank a ≤ rank (greater rank a b) := by
  calc rank a ≤ max (rank a) (rank b) := le_max_left _ _
    _ = rank (greater rank a b) := (rank_greater a b).symm

theorem greater_right_comm {b c : α} (hrank : rank b = rank c → b = c) (a : α) :
    greater rank (greater rank a b) c = greater rank (greater rank a c) b := by
  rcases lt_trichotomy (rank b) (rank c) with hlt | heq | hgt
  · unfold greater
    split_ifs
    all_goals first | rfl | omega
  · rw [hrank heq]
  · unfold greater
    split_ifs
    all_goals first | rfl | omega

/-- Where the ranks tell the values apart, what is kept on a tie does not matter. -/
theorem greater_eq_ite {b : α} (hrank : ∀ a, rank a = rank b → a = b) (a : α) :
    (if rank b < rank a then a else b) = greater rank a b := by
  unfold greater
  split_ifs
  all_goals first | rfl | omega | exact (hrank a (by omega)).symm

end Licode
