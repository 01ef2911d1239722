import Mathlib.Data.List.Basic
import Mathlib.Data.List.Sort

/-!
# Algorithms on sorted ranges

`std::lower_bound` and `std::set_intersection` as the library runs them, for any comparison. What they
give is only known where the range is partitioned or sorted by it.
-/

namespace SortedRange

variable {α β : Type*}

/-! ### `lower_bound` -/

/-- The search in the `len` places from `first` on; `before` tells what lies before the value. -/
def lowerBoundFrom (before : α → Bool) (xs : List α) (first len : Nat) : Nat :=
  if h : 0 < len then
    let half := len / 2
    if (xs[first + half]?).any before then lowerBoundFrom before xs (first + half + 1) (len - half - 1)
    else lowerBoundFrom before xs first half
  else first
termination_by len
decreasing_by
  · omega
  · omega

def lowerBound (before : α → Bool) (xs : List α) : Nat := lowerBoundFrom before xs 0 xs.length

/-- In a partitioned range the search comes to its border. -/
theorem lowerBoundFrom_eq {before : α → Bool} {xs : List α} {first len border : Nat}
    (hrange : first ≤ border) (hborder : border ≤ first + len)
    (hpart : ∀ i, first ≤ i → i < first + len → ((xs[i]?).any before = true ↔ i < border)) :
    lowerBoundFrom before xs first len = border := by
  fun_induction lowerBoundFrom before xs first len with
  | case1 first len hlen half hbefore ih =>
      have hmiddle := (hpart (first + half) (by omega) (by omega)).mp hbefore
      exact ih (by omega) (by omega) fun i hfirst hlast => hpart i (by omega) (by omega)
  | case2 first len hlen half hbefore ih =>
      have hmiddle : ¬ first + half < border := by rwa [← hpart (first + half) (by omega) (by omega)]
      exact ih hrange (by omega) fun i hfirst hlast => hpart i hfirst (by omega)
  | case3 first len hlen => omega

/-- In a list that the value parts into what lies before it and what does not, the search finds the
first that does not. -/
theorem lowerBound_append {before : α → Bool} {front back : List α} (hfront : ∀ a ∈ front, before a = true)
    (hback : ∀ a ∈ back, before a = false) : lowerBound before (front ++ back) = front.length := by
  apply lowerBoundFrom_eq (Nat.zero_le _)
  · rw [Nat.zero_add, List.length_append]
    omega
  · intro i _ hi
    rw [Nat.zero_add] at hi
    by_cases hlt : i < front.length
    · rw [List.getElem?_append_left hlt, List.getElem?_eq_getElem hlt]
      simpa [hlt] using hfront _ (List.getElem_mem hlt)
    · have hlen : i - front.length < back.length := by
        rw [List.length_append] at hi
        omega
      rw [List.getElem?_append_right (by omega), List.getElem?_eq_getElem hlen]
      simpa [hlt] using hback _ (List.getElem_mem hlen)

/-- A number parts a list whose ranks ascend. -/
theorem exists_split_of_rank {rank : α → Nat} {xs : List α} (h : xs.Pairwise fun a b => rank a < rank b) (k : Nat) :
    ∃ front back, xs = front ++ back ∧ (∀ a ∈ front, rank a < k) ∧ ∀ a ∈ back, k ≤ rank a := by
  induction xs with
  | nil => exact ⟨[], [], rfl, by simp, by simp⟩
  | cons a xs ih =>
      obtain ⟨hhead, htail⟩ := List.pairwise_cons.mp h
      by_cases ha : rank a < k
      · obtain ⟨front, back, hsplit, hfront, hback⟩ := ih htail
        refine ⟨a :: front, back, by rw [hsplit]; rfl, ?_, hback⟩
        intro b hb
        rcases List.mem_cons.mp hb with rfl | hb
        · exact ha
        · exact hfront b hb
      · refine ⟨[], a :: xs, rfl, by simp, ?_⟩
        intro b hb
        rcases List.mem_cons.mp hb with rfl | hb
        · omega
        · have hlt := hhead b hb
          omega

/-! ### `sort` -/

/-- A stable sort by a comparison that agrees with ranks among the elements. -/
theorem pairwise_mergeSort_of_rank {less : α → α → Bool} {rank : α → Nat} {xs : List α}
    (hless : ∀ a ∈ xs, ∀ b ∈ xs, (less a b = true ↔ rank a < rank b)) :
    (xs.mergeSort fun a b => !less b a).Pairwise fun a b => rank a ≤ rank b := by
  have hsame : ∀ a ∈ xs, ∀ b ∈ xs, (!less b a) = decide (rank (id a) ≤ rank (id b)) := by
    intro a ha b hb
    have hiff := hless b hb a ha
    cases hba : less b a
    · simp only [hba, Bool.false_eq_true, false_iff, not_lt] at hiff
      simpa using hiff
    · simp only [hba, true_iff] at hiff
      simpa using hiff
  have hmap := List.map_mergeSort (r := fun a b => !less b a) (s := fun a b => decide (rank a ≤ rank b)) (f := id) hsame
  rw [List.map_id, List.map_id] at hmap
  rw [hmap]
  have hpairwise : (xs.mergeSort fun a b => decide (rank a ≤ rank b)).Pairwise fun a b => decide (rank a ≤ rank b) := by
    apply List.pairwise_mergeSort
    · intro a b c hab hbc
      simp only [decide_eq_true_eq] at hab hbc ⊢
      exact hab.trans hbc
    · intro a b
      simp only [Bool.or_eq_true, decide_eq_true_eq]
      exact le_total _ _
  exact hpairwise.imp fun hab => by simpa using hab

/-- Elements with ranks of their own ascend strictly. -/
theorem pairwise_lt_mergeSort {less : α → α → Bool} {rank : α → Nat} {xs : List α}
    (hless : ∀ a ∈ xs, ∀ b ∈ xs, (less a b = true ↔ rank a < rank b))
    (hne : xs.Pairwise fun a b => rank a ≠ rank b) :
    (xs.mergeSort fun a b => !less b a).Pairwise fun a b => rank a < rank b := by
  have hperm : (xs.mergeSort fun a b => !less b a).Perm xs := List.mergeSort_perm _ _
  have hne' := hperm.symm.pairwise hne fun hab => hab.symm
  exact ((pairwise_mergeSort_of_rank hless).and hne').imp fun hab => by omega

/-! ### `set_intersection` -/

/-- The elements of the first range that meet their like in the second. -/
def setIntersection (less : α → β → Bool) (greater : β → α → Bool) : List α → List β → List α
  | [], _ => []
  | _ :: _, [] => []
  | a :: as, b :: bs =>
      if less a b then setIntersection less greater as (b :: bs)
      else if greater b a then setIntersection less greater (a :: as) bs
      else a :: setIntersection less greater as bs
termination_by as bs => as.length + bs.length

/-- Ranges that ascend in the ranks of their elements meet in what has the same rank. -/
theorem setIntersection_eq_filter {less : α → β → Bool} {greater : β → α → Bool} {rank : α → Nat}
    {rank' : β → Nat} {as : List α} {bs : List β}
    (hless : ∀ a ∈ as, ∀ b ∈ bs, (less a b = true ↔ rank a < rank' b))
    (hgreater : ∀ a ∈ as, ∀ b ∈ bs, (greater b a = true ↔ rank' b < rank a))
    (has : as.Pairwise fun a a' => rank a < rank a') (hbs : bs.Pairwise fun b b' => rank' b < rank' b') :
    setIntersection less greater as bs = as.filter fun a => bs.any fun b => rank' b = rank a := by
  fun_induction setIntersection less greater as bs with
  | case1 => rfl
  | case2 a as => simp
  | case3 a as b bs hlt ih =>
      have hrank := (hless a (by simp) b (by simp)).mp hlt
      have hnone : ((b :: bs).any fun b => decide (rank' b = rank a)) = false := by
        rw [List.any_eq_false]
        intro c hc
        rcases List.mem_cons.mp hc with rfl | hc
        · simpa using hrank.ne'
        · simpa using (hrank.trans ((List.pairwise_cons.mp hbs).1 c hc)).ne'
      rw [ih (fun a ha => hless a (by simp [ha])) (fun a ha => hgreater a (by simp [ha]))
        (List.pairwise_cons.mp has).2 hbs, List.filter_cons_of_neg (by rw [hnone]; exact Bool.false_ne_true)]
  | case4 a as b bs hge hgt ih =>
      have hrank := (hgreater a (by simp) b (by simp)).mp hgt
      rw [ih (fun a ha b hb => hless a ha b (by simp [hb])) (fun a ha b hb => hgreater a ha b (by simp [hb]))
        has (List.pairwise_cons.mp hbs).2]
      apply List.filter_congr
      intro c hc
      have hbelow : rank' b < rank c := by
        rcases List.mem_cons.mp hc with rfl | hc
        · exact hrank
        · exact hrank.trans ((List.pairwise_cons.mp has).1 c hc)
      rw [List.any_cons, decide_eq_false hbelow.ne, Bool.false_or]
  | case5 a as b bs hge hle ih =>
      have hrank : rank' b = rank a := by
        have hnot := mt (hless a (by simp) b (by simp)).mpr hge
        have hnot' := mt (hgreater a (by simp) b (by simp)).mpr hle
        omega
      rw [ih (fun a ha b hb => hless a (by simp [ha]) b (by simp [hb]))
        (fun a ha b hb => hgreater a (by simp [ha]) b (by simp [hb]))
        (List.pairwise_cons.mp has).2 (List.pairwise_cons.mp hbs).2,
        List.filter_cons_of_pos (by simp [hrank])]
      congr 1
      apply List.filter_congr
      intro c hc
      have habove := (List.pairwise_cons.mp has).1 c hc
      rw [List.any_cons, decide_eq_false (by omega), Bool.false_or]

end SortedRange
