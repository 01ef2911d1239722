import Mathlib.Data.List.Chain
import Mathlib.Data.Set.Function

/-!
# Relations that are orders locally

Numbers that count around a circle can only be compared where they lie close together. A relation
of that kind is an order among the elements of some sets and not beyond them, so what is sorted by
it is sorted set by set.
-/

namespace Licode

variable {α β : Type*}

/-- A strict total order among the elements of a set. -/
structure OrderedOn (less : α → α → Prop) (s : Set α) : Prop where
  irrefl : ∀ a ∈ s, ¬ less a a
  trans : ∀ a ∈ s, ∀ b ∈ s, ∀ c ∈ s, less a b → less b c → less a c
  total : ∀ a ∈ s, ∀ b ∈ s, less a b ∨ a = b ∨ less b a

/-- Elements with ranks of their own are ordered by the ranks. -/
theorem OrderedOn.of_rank {less : α → α → Prop} {s : Set α} (rank : α → Nat) (hrank : Set.InjOn rank s)
    (hless : ∀ a ∈ s, ∀ b ∈ s, (less a b ↔ rank a < rank b)) : OrderedOn less s where
  irrefl a ha := by
    rw [hless a ha a ha]
    exact lt_irrefl _
  trans a ha b hb c hc hab hbc := by
    rw [hless a ha b hb] at hab
    rw [hless b hb c hc] at hbc
    exact (hless a ha c hc).mpr (hab.trans hbc)
  total a ha b hb := by
    rw [hless a ha b hb, hless b hb a ha]
    rcases lt_trichotomy (rank a) (rank b) with hlt | heq | hgt
    · exact .inl hlt
    · exact .inr (.inl (hrank ha hb heq))
    · exact .inr (.inr hgt)

theorem OrderedOn.asymm {less : α → α → Prop} {s : Set α} (h : OrderedOn less s) {a b : α} (ha : a ∈ s) (hb : b ∈ s)
    (hab : less a b) : ¬ less b a :=
  fun hba => h.irrefl a ha (h.trans a ha b hb a ha hab hba)

/-- A list whose keys descend. -/
def Descending (less : β → β → Prop) (key : α → β) (l : List α) : Prop :=
  l.Pairwise fun a b => less (key b) (key a)

theorem Descending.insert {less : β → β → Prop} {key : α → β} {before after : List α} {a : α}
    (h : Descending less key (before ++ after)) (hbefore : ∀ b ∈ before, less (key a) (key b))
    (hafter : ∀ b ∈ after, less (key b) (key a)) : Descending less key (before ++ a :: after) := by
  rw [Descending, List.pairwise_append] at h
  obtain ⟨hfront, hback, hacross⟩ := h
  rw [Descending, List.pairwise_append]
  refine ⟨hfront, List.pairwise_cons.mpr ⟨hafter, hback⟩, ?_⟩
  intro b hb c hc
  rcases List.mem_cons.mp hc with rfl | hc
  · exact hbefore b hb
  · exact hacross b hb c hc

/-- What follows an element that is smaller than another is smaller as well. -/
theorem Descending.less_of_head {less : β → β → Prop} {key : α → β} {s : Set β} (hs : OrderedOn less s)
    {a b : α} {l : List α} (h : Descending less key (a :: l)) (hl : ∀ c ∈ a :: l, key c ∈ s) (hb : key b ∈ s)
    (hab : less (key a) (key b)) : ∀ c ∈ a :: l, less (key c) (key b) := by
  intro c hc
  rcases List.mem_cons.mp hc with rfl | hmem
  · exact hab
  · exact hs.trans _ (hl c hc) _ (hl a (by simp)) _ hb ((List.pairwise_cons.mp h).1 c hmem) hab

/-- The last of a descending list is smaller than all before it. -/
theorem Descending.less_of_concat {less : β → β → Prop} {key : α → β} {l : List α} {a : α}
    (h : Descending less key (l ++ [a])) : ∀ b ∈ l, less (key a) (key b) := by
  rw [Descending, List.pairwise_append] at h
  exact fun b hb => h.2.2 b hb a (by simp)

theorem isChain_concat {less : β → β → Prop} {l : List β} {a : β} (h : l.IsChain less)
    (hlast : ∀ b ∈ l.getLast?, less b a) : (l ++ [a]).IsChain less := by
  rw [List.isChain_append]
  refine ⟨h, List.isChain_singleton a, ?_⟩
  intro b hb c hc
  obtain rfl : a = c := by simpa using hc
  exact hlast b hb

end Licode
