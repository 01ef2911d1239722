import Mathlib.Logic.Function.Basic
import Mathlib.Order.Basic

/-!
# Objects that a map owns

A map owns objects that are made one after the other, each later than all before it. An object that the
map loses may be freed. As long as new objects come into it only, it owns each of its objects at one key,
and none that has been freed.
-/

namespace Licode

variable {κ ν : Type*} [Preorder ν]

/-- The map `held` has objects from before `bound` only, each of them once, and none of the `freed`. -/
structure Ownership (held : κ → Option ν) (freed : List ν) (bound : ν) : Prop where
  distinct : ∀ k k' x, held k = some x → held k' = some x → k = k'
  alive : ∀ k x, held k = some x → x ∉ freed
  made : ∀ k x, held k = some x → x < bound
  freed_lt : ∀ x ∈ freed, x < bound

namespace Ownership

variable {held : κ → Option ν} {freed freed' : List ν} {bound bound' : ν}

theorem empty (bound : ν) : Ownership (fun _ : κ => none) [] bound where
  distinct := by
    rintro _ _ _ ⟨⟩
  alive := by
    rintro _ _ ⟨⟩
  made := by
    rintro _ _ ⟨⟩
  freed_lt := List.forall_mem_nil _

theorem mono (h : Ownership held freed bound) (hbound : bound ≤ bound') : Ownership held freed bound' where
  distinct := h.distinct
  alive := h.alive
  made k x hx := (h.made k x hx).trans_le hbound
  freed_lt x hx := (h.freed_lt x hx).trans_le hbound

variable [DecidableEq κ]

/-- A new object takes the place of the old one, which may be freed. -/
theorem put (h : Ownership held freed bound) (k : κ) {x : ν} (hnew : bound ≤ x) (hx : x < bound')
    (hfreed : ∀ y ∈ freed', y ∈ freed ∨ held k = some y) :
    Ownership (Function.update held k (some x)) freed' bound' := by
  have hbound : bound < bound' := hnew.trans_lt hx
  have hold : ∀ k' y, held k' = some y → y ≠ x := by
    rintro k' y hy rfl
    exact ((h.made k' y hy).trans_le hnew).false
  have hlt : ∀ y ∈ freed', y < bound := by
    intro y hy
    rcases hfreed y hy with hy | hy
    · exact h.freed_lt y hy
    · exact h.made k y hy
  constructor
  · intro k₁ k₂ y h₁ h₂
    rw [Function.update_apply] at h₁ h₂
    split at h₁ <;> split at h₂
    · next heq₁ heq₂ => exact heq₁.trans heq₂.symm
    · exact absurd (Option.some.inj h₁).symm (hold k₂ y h₂)
    · exact absurd (Option.some.inj h₂).symm (hold k₁ y h₁)
    · exact h.distinct k₁ k₂ y h₁ h₂
  · intro k' y hy hmem
    rw [Function.update_apply] at hy
    split at hy
    · rw [← Option.some.inj hy] at hmem
      exact ((hlt x hmem).trans_le hnew).false
    · next hne =>
        rcases hfreed y hmem with hmem | hat
        · exact h.alive k' y hy hmem
        · exact hne (h.distinct k' k y hy hat)
  · intro k' y hy
    rw [Function.update_apply] at hy
    split at hy
    · exact Option.some.inj hy ▸ hx
    · exact (h.made k' y hy).trans hbound
  · intro y hy
    exact (hlt y hy).trans hbound

/-- An object leaves the map, and may be freed. -/
theorem drop (h : Ownership held freed bound) (k : κ)
    (hfreed : ∀ y ∈ freed', y ∈ freed ∨ held k = some y) :
    Ownership (Function.update held k none) freed' bound := by
  have hkept : ∀ k' y, Function.update held k none k' = some y → k' ≠ k ∧ held k' = some y := by
    intro k' y hy
    rw [Function.update_apply] at hy
    split at hy
    · cases hy
    · next hne => exact ⟨hne, hy⟩
  constructor
  · intro k₁ k₂ y h₁ h₂
    exact h.distinct k₁ k₂ y (hkept k₁ y h₁).2 (hkept k₂ y h₂).2
  · intro k' y hy hmem
    obtain ⟨hne, hy⟩ := hkept k' y hy
    rcases hfreed y hmem with hmem | hat
    · exact h.alive k' y hy hmem
    · exact hne (h.distinct k' k y hy hat)
  · intro k' y hy
    exact h.made k' y (hkept k' y hy).2
  · intro y hy
    rcases hfreed y hy with hy | hy
    · exact h.freed_lt y hy
    · exact h.made k y hy

end Ownership

end Licode
