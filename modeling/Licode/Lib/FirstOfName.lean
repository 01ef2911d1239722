import Mathlib.Data.List.Basic

/-!
# The first of a name

Entries of a list are looked up by a name, and the first one is found. Others of the same name may stand behind it as
long as they are idle: nothing is ever put into them.
-/

namespace Licode

variable {α β : Type*} [DecidableEq β] {name : α → β} {idle : α → Prop} {xs : List α} {x : α} {i : Nat}

/-- An entry behind another one of its name is idle. -/
def FirstOfName (name : α → β) (idle : α → Prop) (xs : List α) : Prop :=
  xs.Pairwise fun x y => name x = name y → idle y

namespace FirstOfName

omit [DecidableEq β] in
theorem append_idle (h : FirstOfName name idle xs) (hx : idle x) : FirstOfName name idle (xs ++ [x]) := by
  refine List.pairwise_append.mpr ⟨h, List.pairwise_singleton _ _, fun y hy z hz _ => ?_⟩
  rw [List.mem_singleton.mp hz]
  exact hx

theorem append_new (h : FirstOfName name idle xs) (hx : xs.findIdx? (fun y => name y = name x) = none) :
    FirstOfName name idle (xs ++ [x]) := by
  refine List.pairwise_append.mpr ⟨h, List.pairwise_singleton _ _, fun y hy z hz heq => ?_⟩
  rw [List.mem_singleton.mp hz] at heq
  have hnot := List.findIdx?_eq_none_iff.mp hx y hy
  rw [decide_eq_false_iff_not] at hnot
  exact absurd heq hnot

omit [DecidableEq β] in
theorem eraseIdx (h : FirstOfName name idle xs) (i : Nat) : FirstOfName name idle (xs.eraseIdx i) :=
  List.Pairwise.sublist (List.eraseIdx_sublist xs i) h

/-- The first of a name may be changed at will. -/
theorem modify (h : FirstOfName name idle xs) {n : β} (hi : xs.findIdx? (fun y => name y = n) = some i) {f : α → α}
    (hf : ∀ y, name (f y) = name y) : FirstOfName name idle (xs.modify i f) := by
  obtain ⟨hlt, hname, hbefore⟩ := List.findIdx?_eq_some_iff_getElem.mp hi
  rw [decide_eq_true_eq] at hname
  refine List.pairwise_iff_getElem.mpr fun a b ha hb hab => ?_
  rw [List.length_modify] at ha hb
  have hpair := List.pairwise_iff_getElem.mp h a b ha hb hab
  rw [List.getElem_modify, List.getElem_modify]
  by_cases hib : i = b
  · subst hib
    intro heq
    rw [if_neg (Nat.ne_of_gt hab), if_pos rfl, hf, hname] at heq
    exact absurd heq (by simpa using hbefore a hab)
  · rw [if_neg hib]
    intro heq
    refine hpair ?_
    split_ifs at heq
    · rwa [hf] at heq
    · exact heq

/-- There is no other entry of its name before one that is not idle. -/
theorem findIdx?_eq_none (h : FirstOfName name idle (xs ++ [x])) (hx : ¬ idle x) :
    xs.findIdx? (fun y => name y = name x) = none := by
  refine List.findIdx?_eq_none_iff.mpr fun y hy => decide_eq_false fun heq => ?_
  exact hx ((List.pairwise_append.mp h).2.2 y hy x (List.mem_singleton_self x) heq)

end FirstOfName

end Licode
