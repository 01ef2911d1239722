import Mathlib.Data.List.Basic
import Mathlib.Data.List.Infix

/-!
# Cutting a list

A list is cut at the first of the elements that a test picks. The parts are what is between the cuts, and
with the elements at the cuts put back they are the list again.
-/

namespace Licode

variable {α : Type*}

/-- What is between the cuts from `start` on, where the elements at the cuts are left out. -/
def between (xs : List α) : Nat → List Nat → List (List α)
  | start, [] => [xs.drop start]
  | start, cut :: cuts => xs.extract start cut :: between xs (cut + 1) cuts

/-- The parts, with an element put back after each of them while there are any. -/
def putBack : List (List α) → List α → List α
  | [], _ => []
  | part :: parts, [] => part ++ putBack parts []
  | part :: parts, x :: xs => part ++ x :: putBack parts xs

/-- The list is read as fields, which each are a part without cuts and the element they are cut at, up to
`last`. -/
inductive CutInto (p : α → Bool) (last : List α) : List α → List (List α × α) → Prop
  | done : CutInto p last last []
  | cut {part xs : List α} {x : α} {fields : List (List α × α)} (hpart : ∀ y ∈ part, p y = false)
      (hx : p x = true) (hxs : CutInto p last xs fields) :
      CutInto p last (part ++ x :: xs) ((part, x) :: fields)

variable {p : α → Bool} {xs last : List α} {fields : List (List α × α)}

/-- A list is cut as often as one likes, up to the number of elements that are picked. -/
theorem exists_cutInto {n : Nat} (hn : n ≤ xs.countP p) :
    ∃ fields last, CutInto p last xs fields ∧ fields.length = n := by
  induction n generalizing xs with
  | zero => exact ⟨[], xs, .done, rfl⟩
  | succ n ih =>
      obtain ⟨y, hy, hpick⟩ := List.countP_pos_iff.mp (Nat.zero_lt_of_lt hn)
      obtain ⟨x, hfind⟩ := Option.isSome_iff_exists.mp (List.find?_isSome.mpr ⟨y, hy, hpick⟩)
      obtain ⟨hx, part, rest, rfl, hclean⟩ := List.find?_eq_some_iff_append.mp hfind
      have hpart : ∀ y ∈ part, p y = false := by
        intro y hy
        simpa using hclean y hy
      have hcount : (part ++ x :: rest).countP p = rest.countP p + 1 := by
        rw [List.countP_append, List.countP_cons_of_pos hx, List.countP_eq_zero.mpr, Nat.zero_add]
        intro y hy
        simp [hpart y hy]
      have hle : n ≤ rest.countP p := by omega
      obtain ⟨fields, last, hrest, hlength⟩ := ih hle
      exact ⟨(part, x) :: fields, last, hrest.cut hpart hx, congrArg (· + 1) hlength⟩

/-- Where the cuts are, counted from `start` on. -/
theorem findIdxs_cut {part : List α} {x : α} (hpart : ∀ y ∈ part, p y = false) (hx : p x = true)
    (start : Nat) :
    (part ++ x :: xs).findIdxs p start
      = (start + part.length) :: xs.findIdxs p (start + part.length + 1) := by
  rw [List.findIdxs_append, List.findIdxs_eq_nil_iff.mpr hpart, List.nil_append, List.findIdxs_cons, if_pos hx]

namespace CutInto

theorem whole (h : CutInto p last xs fields) :
    xs = fields.flatMap (fun field => field.1 ++ [field.2]) ++ last := by
  induction h with
  | done => rfl
  | cut hpart hx hxs ih => simp [← ih]

theorem fields_spec (h : CutInto p last xs fields) :
    ∀ field ∈ fields, (∀ y ∈ field.1, p y = false) ∧ p field.2 = true := by
  induction h with
  | done => exact fun field hfield => absurd hfield List.not_mem_nil
  | cut hpart hx hxs ih => exact List.forall_mem_cons.mpr ⟨⟨hpart, hx⟩, ih⟩

theorem countP (h : CutInto p last xs fields) : xs.countP p = fields.length + last.countP p := by
  induction h with
  | done => exact (Nat.zero_add _).symm
  | @cut part xs x fields hpart hx hxs ih =>
      have hnone : part.countP p = 0 := List.countP_eq_zero.mpr fun y hy => by simp [hpart y hy]
      rw [List.countP_append, List.countP_cons_of_pos hx, hnone, ih, List.length_cons]
      omega

/-- Nothing to cut is left after as many cuts as elements are picked. -/
theorem last_clean (h : CutInto p last xs fields) (hall : fields.length = xs.countP p) :
    ∀ y ∈ last, p y = false := by
  have hnone : last.countP p = 0 := by
    have := h.countP
    omega
  intro y hy
  simpa using List.countP_eq_zero.mp hnone y hy

/-- The parts are what is between the first of the elements that are picked. -/
theorem between_eq (h : CutInto p last xs fields) (before : List α) :
    between (before ++ xs) before.length ((xs.findIdxs p before.length).take fields.length)
      = fields.map Prod.fst ++ [last] := by
  induction h generalizing before with
  | done => simp [between]
  | @cut part xs x fields hpart hx hxs ih =>
      have hnext := ih (before ++ part ++ [x])
      simp only [List.append_assoc, List.singleton_append, List.length_append, List.length_singleton,
        ← Nat.add_assoc] at hnext
      rw [findIdxs_cut hpart hx, List.length_cons, List.take_succ_cons, between, hnext, List.map_cons]
      simp

/-- The elements at the cuts are those that the fields end with. -/
theorem removed_eq (h : CutInto p last xs fields) (before : List α) :
    ((xs.findIdxs p before.length).take fields.length).filterMap ((before ++ xs)[·]?)
      = fields.map Prod.snd := by
  induction h generalizing before with
  | done => rfl
  | @cut part xs x fields hpart hx hxs ih =>
      have hnext := ih (before ++ part ++ [x])
      simp only [List.append_assoc, List.singleton_append, List.length_append, List.length_singleton,
        ← Nat.add_assoc] at hnext
      have hcut : (before ++ (part ++ x :: xs))[before.length + part.length]? = some x := by
        rw [← List.append_assoc, ← List.length_append, List.getElem?_append_right (le_refl _)]
        simp
      rw [findIdxs_cut hpart hx, List.length_cons, List.take_succ_cons, List.filterMap_cons_some hcut, hnext]
      rfl

/-- The elements put back between the parts give the list, with or without a last part that is empty. -/
theorem putBack_eq (h : CutInto p last xs fields) {rest : List (List α)} (hrest : rest.flatten = last) :
    putBack (fields.map Prod.fst ++ rest) (fields.map Prod.snd) = xs := by
  induction h with
  | done =>
      subst hrest
      induction rest with
      | nil => rfl
      | cons part rest ih => exact congrArg (part ++ ·) ih
  | cut hpart hx hxs ih =>
      rw [List.map_cons, List.map_cons, List.cons_append, putBack, ih]

end CutInto

end Licode
