import Mathlib.Logic.Basic

/-!
# Mutual exclusion

A lock is known by its owner. The threads inside the sections it protects are told by a predicate on
the threads, and `Guards` says that the lock does its work: whoever is inside owns it.
-/

namespace Licode

variable {ι : Type*}

def Guards (inside : ι → Bool) (owner : Option ι) : Prop := ∀ i, inside i = true → owner = some i

theorem Guards.unique {inside : ι → Bool} {owner : Option ι} (h : Guards inside owner) {i j : ι}
    (hi : inside i = true) (hj : inside j = true) : i = j :=
  Option.some.inj ((h i hi).symm.trans (h j hj))

/-- A step of the thread `i`: it leaves the lock alone, takes it when it is free, or was inside and
gets out. -/
theorem Guards.move {inside inside' : ι → Bool} {owner owner' : Option ι} (h : Guards inside owner)
    (i : ι) (hother : ∀ j, j ≠ i → inside' j = inside j)
    (hmove : (inside' i = inside i ∧ owner' = owner) ∨ (owner = none ∧ owner' = some i)
      ∨ (inside i = true ∧ inside' i = false)) : Guards inside' owner' := by
  intro j hj
  by_cases hji : j = i
  · subst hji
    rcases hmove with ⟨hsame, howner⟩ | ⟨-, howner⟩ | ⟨-, hout⟩
    · rw [howner, h j (by rw [← hsame, hj])]
    · exact howner
    · rw [hj] at hout
      cases hout
  · rw [hother j hji] at hj
    rcases hmove with ⟨-, howner⟩ | ⟨hfree, -⟩ | ⟨hin, -⟩
    · rw [howner, h j hj]
    · rw [h j hj] at hfree
      cases hfree
    · exact absurd (h.unique hj hin) hji

end Licode
