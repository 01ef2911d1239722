import Mathlib.Data.List.Basic
import Mathlib.Data.List.Count
import Mathlib.Data.List.Induction

/-!
# Folds that count and folds that keep the last

A map that is written by its keys may be looked at one key after the other: what a list of entries makes
of a value is a fold over those with its key. A value that is counted up and one that is overwritten are
the two kinds of it.
-/

namespace Licode

variable {α β κ σ : Type*}

/-- The fold of one key. -/
theorem foldl_at_key [DecidableEq κ] {key : α → κ} {view : σ → κ → β} {step : σ → α → σ} {effect : α → β → β}
    (hstep : ∀ s a k, view (step s a) k = if k = key a then effect a (view s k) else view s k) (l : List α) (s : σ)
    (k : κ) : view (l.foldl step s) k = (l.filter fun a => key a = k).foldl (fun b a => effect a b) (view s k) := by
  induction l generalizing s with
  | nil => rfl
  | cons a l ih =>
      rw [List.foldl_cons, ih, hstep, List.filter_cons]
      by_cases hkey : key a = k
      · rw [if_pos hkey.symm, if_pos (decide_eq_true hkey), List.foldl_cons]
      · rw [if_neg fun h => hkey h.symm, if_neg (mt of_decide_eq_true hkey)]

/-- The value that the last entry of a kind gives. -/
theorem foldl_keepLast (kind : α → Prop) [DecidablePred kind] (value : α → β) (l : List α) (b : Option β) :
    l.foldl (fun b a => if kind a then some (value a) else b) b
      = ((l.filter fun a => kind a).getLast?.map value).or b := by
  induction l using List.reverseRecOn with
  | nil => rfl
  | append_singleton l a ih =>
      rw [List.foldl_append, List.foldl_cons, List.foldl_nil, ih, List.filter_append, List.filter_cons, List.filter_nil]
      by_cases hkind : kind a
      · rw [if_pos hkind, if_pos (decide_eq_true hkind), List.getLast?_concat]
        rfl
      · rw [if_neg hkind, if_neg (mt of_decide_eq_true hkind), List.append_nil]

/-- The number of the entries of a kind, which is not there before the first. -/
theorem foldl_tally (kind : α → Prop) [DecidablePred kind] {bump : Option β → β} {number : Nat → β}
    (hfirst : bump none = number 1) (hnext : ∀ n, bump (some (number n)) = number (n + 1)) (l : List α) :
    l.foldl (fun b a => if kind a then some (bump b) else b) none
      = if l.countP (fun a => kind a) = 0 then none else some (number (l.countP fun a => kind a)) := by
  induction l using List.reverseRecOn with
  | nil => rfl
  | append_singleton l a ih =>
      rw [List.foldl_append, List.foldl_cons, List.foldl_nil, ih, List.countP_append]
      by_cases hkind : kind a
      · rw [if_pos hkind, List.countP_singleton, if_pos (decide_eq_true hkind), if_neg (Nat.succ_ne_zero _)]
        split
        · next hzero => rw [hzero, hfirst]
        · rw [hnext]
      · rw [if_neg hkind, List.countP_singleton, if_neg (mt of_decide_eq_true hkind), Nat.add_zero]

end Licode
