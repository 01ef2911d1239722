import Mathlib.Logic.Relation

/-!
# Lock orders

A state of some threads is told by the locks each of them holds and the lock it asks for. Where the
locks can be ranked so that no thread ever asks for one below a lock it holds, no threads wait for
each other in a circle. The ranking may be another one in every state.
-/

namespace Licode

variable {ι Lock : Type*}

/-- `i` asks for a lock that `j` holds. -/
def WaitsFor (holds : ι → Lock → Prop) (wants : ι → Option Lock) (i j : ι) : Prop :=
  i ≠ j ∧ ∃ lock, wants i = some lock ∧ holds j lock

/-- Some threads wait for each other in a circle. -/
def Deadlock (holds : ι → Lock → Prop) (wants : ι → Option Lock) : Prop :=
  ∃ i, Relation.TransGen (WaitsFor holds wants) i i

/-- Along a chain of waiting threads the locks do not go down. -/
theorem exists_held_of_transGen {holds : ι → Lock → Prop} {wants : ι → Option Lock}
    {rank : Lock → Nat}
    (hrank : ∀ i lock held, wants i = some lock → holds i held → rank held < rank lock) {i j : ι}
    (h : Relation.TransGen (WaitsFor holds wants) i j) {lock : Lock} (hwants : wants i = some lock) :
    ∃ held, holds j held ∧ rank lock ≤ rank held := by
  induction h with
  | single hwait =>
      obtain ⟨-, asked, hasked, hheld⟩ := hwait
      rw [hwants, Option.some.injEq] at hasked
      subst hasked
      exact ⟨lock, hheld, Nat.le_refl _⟩
  | tail _ hwait ih =>
      obtain ⟨held, hholds, hle⟩ := ih
      obtain ⟨-, asked, hasked, hheld⟩ := hwait
      exact ⟨asked, hheld, Nat.le_of_lt (Nat.lt_of_le_of_lt hle (hrank _ _ _ hasked hholds))⟩

/-- **Lock order.** No thread asks for a lock below one it holds: no deadlock. -/
theorem not_deadlock_of_rank {holds : ι → Lock → Prop} {wants : ι → Option Lock} (rank : Lock → Nat)
    (hrank : ∀ i lock held, wants i = some lock → holds i held → rank held < rank lock) :
    ¬ Deadlock holds wants := by
  rintro ⟨i, hcycle⟩
  have hwants : ∃ lock, wants i = some lock := by
    rw [Relation.TransGen.head'_iff] at hcycle
    obtain ⟨j, ⟨-, lock, hlock, -⟩, -⟩ := hcycle
    exact ⟨lock, hlock⟩
  obtain ⟨lock, hlock⟩ := hwants
  obtain ⟨held, hheld, hle⟩ := exists_held_of_transGen hrank hcycle hlock
  exact Nat.not_le_of_lt (hrank i lock held hlock hheld) hle

end Licode
