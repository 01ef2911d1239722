import Mathlib.Data.List.Perm.Basic

/-!
# Parities

The parity of some elements is their combination under an operation that is its own inverse, such as
the exclusive or. All but one of the elements and their parity give the one that is missing, in
whatever order they come.
-/

namespace Parity

variable {α : Type*} (op : α → α → α) (e : α)

def parity (xs : List α) : α := xs.foldr op e

@[simp]
theorem parity_nil : parity op e [] = e := rfl

@[simp]
theorem parity_cons (x : α) (xs : List α) : parity op e (x :: xs) = op x (parity op e xs) := rfl

section Laws

variable [Std.Associative op]

theorem parity_perm [Std.Commutative op] {xs ys : List α} (h : xs.Perm ys) :
    parity op e xs = parity op e ys := by
  have hassoc : ∀ a b c, op (op a b) c = op a (op b c) := Std.Associative.assoc
  have hcomm : ∀ a b, op a b = op b a := Std.Commutative.comm
  induction h with
  | nil => rfl
  | cons x _ ih => rw [parity_cons, parity_cons, ih]
  | swap x y xs => rw [parity_cons, parity_cons, parity_cons, parity_cons, ← hassoc, ← hassoc, hcomm y x]
  | trans _ _ ih ih' => exact ih.trans ih'

variable [Std.LawfulIdentity op e]

/-- The elements may as well be taken in one by one. -/
theorem parity_concat (xs : List α) (x : α) : parity op e (xs ++ [x]) = op (parity op e xs) x := by
  have hassoc : ∀ a b c, op (op a b) c = op a (op b c) := Std.Associative.assoc
  have hleft : ∀ a, op e a = a := Std.LawfulLeftIdentity.left_id
  have hright : ∀ a, op a e = a := Std.LawfulRightIdentity.right_id
  induction xs with
  | nil => rw [List.nil_append, parity_cons, parity_nil, hleft, hright]
  | cons y xs ih => rw [List.cons_append, parity_cons, parity_cons, ih, hassoc]

/-- **The missing element.** -/
theorem parity_missing [Std.Commutative op] (hself : ∀ a, op a a = e) {x : α} {xs ys : List α}
    (h : xs.Perm (x :: ys)) : op (parity op e xs) (parity op e ys) = x := by
  have hassoc : ∀ a b c, op (op a b) c = op a (op b c) := Std.Associative.assoc
  have hright : ∀ a, op a e = a := Std.LawfulRightIdentity.right_id
  rw [parity_perm op e h, parity_cons, hassoc, hself, hright]

end Laws

end Parity
