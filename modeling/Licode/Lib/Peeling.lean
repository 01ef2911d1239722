import Mathlib.Data.Set.Function

/-!
# Peeling

Of some elements a few are known, and there are groups of them such that all but one of a group give
the last one. What can be recovered is the least set that has the known elements and is closed under
this rule; no order of the groups is part of it. A procedure that follows the rule is sound, and it has
found all there is as soon as every group is complete or lacks two.
-/

namespace Peeling

variable {α : Type*}

/-- What is known or follows from a group by its other elements. -/
inductive Recoverable (groups : Set (List α)) (known : Set α) : α → Prop
  | known {a : α} (h : a ∈ known) : Recoverable groups known a
  | last {group : List α} {a : α} (hgroup : group ∈ groups) (ha : a ∈ group)
      (hothers : ∀ b ∈ group, b ≠ a → Recoverable groups known b) : Recoverable groups known a

theorem Recoverable.mono {groups groups' : Set (List α)} {known known' : Set α} {a : α}
    (h : Recoverable groups known a) (hgroups : groups ⊆ groups') (hknown : known ⊆ known') :
    Recoverable groups' known' a := by
  induction h with
  | known h => exact .known (hknown h)
  | last hgroup ha _ ih => exact .last (hgroups hgroup) ha ih

/-- A group that is complete or lacks at least two of its elements. -/
def Settled (found : Set α) (group : List α) : Prop :=
  (∀ a ∈ group, a ∈ found) ∨ ∃ a ∈ group, ∃ b ∈ group, a ≠ b ∧ a ∉ found ∧ b ∉ found

/-- Where every group is settled, nothing more can be recovered. -/
theorem Recoverable.mem_of_settled {groups : Set (List α)} {known found : Set α} {a : α}
    (h : Recoverable groups known a) (hknown : known ⊆ found)
    (hsettled : ∀ group ∈ groups, Settled found group) : a ∈ found := by
  induction h with
  | known h => exact hknown h
  | @last group a hgroup ha _ ih =>
      rcases hsettled group hgroup with hall | ⟨b, hb, c, hc, hne, hbmissing, hcmissing⟩
      · exact hall a ha
      · -- one of the two is not the element itself, so that it has been found after all
        by_cases hba : b = a
        · exact absurd (ih c hc fun hca => hne (hba.trans hca.symm)) hcmissing
        · exact absurd (ih b hb hba) hbmissing

/-- **What peeling finds.** Elements that are found by the rule alone are all that can be recovered
once every group is settled. -/
theorem mem_iff_recoverable {groups : Set (List α)} {known found : Set α} (hknown : known ⊆ found)
    (hsound : ∀ a ∈ found, Recoverable groups known a)
    (hsettled : ∀ group ∈ groups, Settled found group) (a : α) :
    a ∈ found ↔ Recoverable groups known a :=
  ⟨hsound a, fun h => h.mem_of_settled hknown hsettled⟩

/-- Elements that have got other names. -/
theorem recoverable_map_iff {β : Type*} {f : α → β} {names : Set α} {groups : Set (List α)} {known : Set α} {a : α}
    (hf : Set.InjOn f names) (hgroups : ∀ group ∈ groups, ∀ a ∈ group, a ∈ names) (hknown : known ⊆ names)
    (ha : a ∈ names) :
    Recoverable (List.map f '' groups) (f '' known) (f a) ↔ Recoverable groups known a := by
  constructor
  · intro h
    generalize hb : f a = b at h
    induction h generalizing a with
    | known h =>
        obtain ⟨a', ha', rfl⟩ := h
        rw [hf ha (hknown ha') hb]
        exact .known ha'
    | last hgroup hin _ ih =>
        obtain ⟨group, hgroup, rfl⟩ := hgroup
        obtain ⟨a', ha', rfl⟩ := List.mem_map.mp hin
        rw [hf ha (hgroups group hgroup a' ha') hb]
        refine .last hgroup ha' fun c hc hne => ih (f c) (List.mem_map_of_mem hc) ?_ (hgroups group hgroup c hc) rfl
        exact fun heq => hne (hf (hgroups group hgroup c hc) (hgroups group hgroup a' ha') heq)
  · intro h
    clear ha
    induction h with
    | known h => exact .known ⟨_, h, rfl⟩
    | @last group a hgroup hin _ ih =>
        refine .last ⟨group, hgroup, rfl⟩ (List.mem_map_of_mem hin) fun b hb hne => ?_
        obtain ⟨c, hc, rfl⟩ := List.mem_map.mp hb
        exact ih c hc fun heq => hne (congrArg f heq)

end Peeling
