import Licode.Lib.Outcome

/-!
# Runs that may go wrong

The C++ code is translated into the exception monad over the ways in which a run stops being
meaningful: a failed `ASSERT` of a debug build, a failed `VERIFY` (which calls `exit(1)` in every
build), an access outside an allocation, a null pointer used, a shift by the operand's width or
more, an exception that nothing catches, and a loop that does not come to its end. That a function
returns `ok` is therefore a statement of safety.
-/

namespace Licode

inductive Fault where
  | assertion
  | verification
  | outOfBounds
  | nullPointer
  | shiftRange
  | exception
  | diverged
  deriving DecidableEq, Repr

abbrev Checked := Except Fault

/-- `ASSERT(x)`. -/
def assert (condition : Prop) [Decidable condition] : Checked Unit :=
  if condition then .ok () else .error .assertion

/-- `VERIFY(x)`. -/
def verify (condition : Bool) : Checked Unit :=
  if condition then .ok () else .error .verification

theorem assert_of {condition : Prop} [Decidable condition] (h : condition) :
    assert condition = .ok () :=
  if_pos h

@[simp]
theorem verify_true : verify true = .ok () := rfl

@[simp]
theorem Checked.ok_bind {α β : Type} (a : α) (f : α → Checked β) :
    ((Except.ok a : Checked α) >>= f) = f a := rfl

@[simp]
theorem Checked.error_bind {α β : Type} (e : Fault) (f : α → Checked β) :
    ((Except.error e : Checked α) >>= f) = .error e := rfl

@[simp]
theorem Checked.pure_eq_ok {α : Type} (a : α) : (pure a : Checked α) = .ok a := rfl

theorem Checked.eq_ok_of_toOption {α : Type} {x : Checked α} {a : α} (h : x.toOption = some a) :
    x = .ok a := by
  cases x with
  | error e => cases h
  | ok b =>
      cases h
      rfl

/-- `while (a_Size > 0)` over a buffer, at most `size` elements at a time. -/
def forChunks {α σ : Type} (size : Nat) (body : σ → List α → Checked σ) :
    Nat → σ → List α → Checked σ
  | _, s, [] => .ok s
  | 0, _, _ :: _ => .error .diverged
  | fuel + 1, s, a :: data => do
      let s ← body s ((a :: data).take size)
      forChunks size body fuel s ((a :: data).drop size)

/-- A property of the state and the elements still to come, kept by every piece, holds at the
end with none to come. -/
theorem forChunks_induct {α σ : Type} {size : Nat} (hsize : 0 < size)
    {body : σ → List α → Checked σ} (P : σ → List α → Prop)
    (hstep : ∀ s chunk rest, chunk ≠ [] → chunk.length ≤ size → P s (chunk ++ rest) →
      ∃ s', body s chunk = .ok s' ∧ P s' rest)
    {fuel : Nat} {s : σ} {data : List α} (hfuel : data.length ≤ fuel) (h : P s data) :
    ∃ s', forChunks size body fuel s data = .ok s' ∧ P s' [] := by
  induction fuel generalizing s data with
  | zero =>
      obtain rfl := List.eq_nil_of_length_eq_zero (Nat.le_zero.mp hfuel)
      exact ⟨s, rfl, h⟩
  | succ fuel ih =>
      cases data with
      | nil => exact ⟨s, rfl, h⟩
      | cons a data =>
          have hne : (a :: data).take size ≠ [] := by
            intro hnil
            have hzero : ((a :: data).take size).length = 0 := by rw [hnil]; rfl
            simp at hzero
            omega
          have hsplit : P s ((a :: data).take size ++ (a :: data).drop size) := by
            rw [List.take_append_drop]
            exact h
          obtain ⟨s', hbody, hrest⟩ := hstep _ _ _ hne (List.length_take_le size _) hsplit
          have hshort : ((a :: data).drop size).length ≤ fuel := by
            rw [List.length_drop]
            omega
          obtain ⟨s'', hloop, hend⟩ := ih hshort hrest
          refine ⟨s'', ?_, hend⟩
          rw [forChunks, hbody, Checked.ok_bind]
          exact hloop

end Licode
