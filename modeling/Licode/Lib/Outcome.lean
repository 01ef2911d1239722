import Mathlib.Data.List.Basic

/-!
# Postconditions of computations that may fail

`Ends allowed post x` says of a computation that it returns a value with the postcondition or fails
in a way that is allowed. `Needs e needs post x` says that it returns such a value if it has what it
needs, and that it fails with `e` otherwise. The rules follow the constructs of a `do` block.
-/

namespace Licode

variable {ε α β σ : Type} {allowed : ε → Prop}

/-- A sequence returns only through its first part. -/
theorem exists_of_bind_ok {x : Except ε α} {f : α → Except ε β} {b : β} (h : (x >>= f) = .ok b) :
    ∃ a, x = .ok a ∧ f a = .ok b := by
  cases x with
  | ok a => exact ⟨a, rfl, h⟩
  | error e => cases h

def Ends (allowed : ε → Prop) (post : α → Prop) : Except ε α → Prop
  | .ok a => post a
  | .error e => allowed e

theorem Ends.ok {post : α → Prop} {a : α} (h : post a) : Ends allowed post (.ok a) := h

theorem Ends.mono {post post' : α → Prop} {x : Except ε α} (hx : Ends allowed post x)
    (h : ∀ a, post a → post' a) : Ends allowed post' x := by
  cases x with
  | ok a => exact h a hx
  | error e => exact hx

theorem Ends.bind {post : α → Prop} {post' : β → Prop} {x : Except ε α} {f : α → Except ε β}
    (hx : Ends allowed post x) (hf : ∀ a, post a → Ends allowed post' (f a)) :
    Ends allowed post' (x >>= f) := by
  cases x with
  | ok a => exact hf a hx
  | error e => exact hx

/-- The value that a computation has returned meets the postcondition. -/
theorem Ends.value {post : α → Prop} {x : Except ε α} {a : α} (hx : Ends allowed post x)
    (h : x = .ok a) : post a := by
  rw [h] at hx
  exact hx

theorem Ends.failure {post : α → Prop} {x : Except ε α} {e : ε} (hx : Ends allowed post x)
    (h : x = .error e) : allowed e := by
  rw [h] at hx
  exact hx

/-- The failures alone, with the postcondition from elsewhere. -/
theorem Ends.of_forall {post : α → Prop} {x : Except ε α} (herror : ∀ e, x = .error e → allowed e)
    (hok : ∀ a, x = .ok a → post a) : Ends allowed post x := by
  cases x with
  | ok a => exact hok a rfl
  | error e => exact herror e rfl

/-- A loop over a list keeps its invariant. -/
theorem Ends.foldlM {inv : σ → Prop} {f : σ → α → Except ε σ} {items : List α} {s : σ} (hs : inv s)
    (hf : ∀ s, ∀ a ∈ items, inv s → Ends allowed inv (f s a)) :
    Ends allowed inv (items.foldlM f s) := by
  induction items generalizing s with
  | nil => exact hs
  | cons a items ih =>
      rw [List.foldlM_cons]
      refine (hf s a List.mem_cons_self hs).bind fun s' hs' => ?_
      exact ih hs' fun s'' b hb => hf s'' b (List.mem_cons_of_mem a hb)

/-- A loop is the same without the elements that do nothing. -/
theorem foldlM_filter {f : σ → α → Except ε σ} {keep : α → Bool} {items : List α}
    (h : ∀ a ∈ items, keep a = false → ∀ s, f s a = .ok s) (s : σ) :
    items.foldlM f s = (items.filter keep).foldlM f s := by
  induction items generalizing s with
  | nil => rfl
  | cons a items ih =>
      have hitems : ∀ s, items.foldlM f s = (items.filter keep).foldlM f s :=
        ih fun b hb => h b (List.mem_cons_of_mem a hb)
      cases hkeep : keep a with
      | true => simp only [List.filter_cons_of_pos hkeep, List.foldlM_cons, hitems]
      | false =>
          rw [List.filter_cons_of_neg (by simp [hkeep]), List.foldlM_cons, h a List.mem_cons_self hkeep,
            ← hitems]
          rfl

def Needs (e : ε) (needs : Prop) (post : α → Prop) (x : Except ε α) : Prop :=
  (needs → ∃ a, x = .ok a ∧ post a) ∧ (¬ needs → x = .error e)

section Needs

variable {e : ε} {needs needs' : Prop} {post : α → Prop} {x : Except ε α}

theorem Needs.ok {a : α} (hneeds : needs) (h : post a) : Needs e needs post (.ok a) :=
  ⟨fun _ => ⟨a, rfl, h⟩, fun hnot => absurd hneeds hnot⟩

theorem Needs.error (hneeds : ¬ needs) : Needs e needs post (.error e) :=
  ⟨fun h => absurd h hneeds, fun _ => rfl⟩

theorem Needs.congr (hx : Needs e needs post x) (h : needs ↔ needs') : Needs e needs' post x := by
  rw [← propext h]
  exact hx

/-- What the first part needs is part of what is needed as a whole. -/
theorem Needs.bind {post' : β → Prop} {f : α → Except ε β} (hx : Needs e needs post x)
    (hpart : needs' → needs) (hf : needs → ∀ a, post a → Needs e needs' post' (f a)) :
    Needs e needs' post' (x >>= f) := by
  by_cases hneeds : needs
  · obtain ⟨a, rfl, ha⟩ := hx.1 hneeds
    exact hf hneeds a ha
  · rw [hx.2 hneeds]
    exact Needs.error fun h => hneeds (hpart h)

/-- What a conditional needs if there is nothing to do otherwise. -/
theorem Needs.ite {found : Bool} {a : α} (hx : found = true → Needs e needs post x)
    (ha : found = false → post a) :
    Needs e (found = true → needs) post (if found then x else .ok a) := by
  cases found with
  | true =>
      rw [if_pos rfl]
      exact (hx rfl).congr (by simp)
  | false =>
      rw [if_neg Bool.false_ne_true]
      exact Needs.ok (fun h => absurd h Bool.false_ne_true) (ha rfl)

theorem Needs.ne_error_iff (hx : Needs e needs post x) : x ≠ .error e ↔ needs := by
  by_cases hneeds : needs
  · obtain ⟨a, rfl, -⟩ := hx.1 hneeds
    simp [hneeds]
  · simp [hx.2 hneeds, hneeds]

theorem Needs.returns_iff (hx : Needs e needs (fun _ => True) x) : (∃ a, x = .ok a) ↔ needs := by
  constructor
  · rintro ⟨a, rfl⟩
    exact hx.ne_error_iff.mp (by simp)
  · intro hneeds
    obtain ⟨a, ha, -⟩ := hx.1 hneeds
    exact ⟨a, ha⟩

theorem Needs.ne_error {e' : ε} (hx : Needs e needs post x) (he : e' ≠ e) : x ≠ .error e' := by
  intro h
  by_cases hneeds : needs
  · obtain ⟨a, rfl, -⟩ := hx.1 hneeds
    cases h
  · rw [hx.2 hneeds] at h
    exact he (Except.error.inj h).symm

theorem Needs.value {a : α} (hx : Needs e needs post x) (h : x = .ok a) : post a := by
  have hneeds : needs := hx.ne_error_iff.mp (by simp [h])
  obtain ⟨b, rfl, hb⟩ := hx.1 hneeds
  exact Except.ok.inj h ▸ hb

/-- Each element of a loop meets its condition in the state that the loop has reached by then. -/
def Along (fits : σ → α → Prop) (f : σ → α → Except ε σ) : List α → σ → Prop
  | [], _ => True
  | a :: items, s => fits s a ∧ ∀ s', f s a = .ok s' → Along fits f items s'

theorem Along.congr {fits fits' : σ → α → Prop} {f : σ → α → Except ε σ} (h : ∀ s a, fits s a ↔ fits' s a)
    (items : List α) (s : σ) : Along fits f items s ↔ Along fits' f items s := by
  rw [show fits = fits' from funext₂ fun s a => propext (h s a)]

/-- What a loop needs is what its turns need, one after the other. -/
theorem Needs.foldlM {inv : σ → Prop} {fits : σ → α → Prop} {f : σ → α → Except ε σ}
    (hf : ∀ s a, inv s → Needs e (fits s a) inv (f s a)) {items : List α} {s : σ} (hs : inv s) :
    Needs e (Along fits f items s) inv (items.foldlM f s) := by
  induction items generalizing s with
  | nil => exact Needs.ok trivial hs
  | cons a items ih =>
      rw [List.foldlM_cons]
      by_cases hfits : fits s a
      · obtain ⟨s', hs', hinv⟩ := (hf s a hs).1 hfits
        rw [hs']
        refine (ih hinv).congr ⟨fun halong => ⟨hfits, fun t ht => ?_⟩, fun halong => halong.2 s' hs'⟩
        rw [hs'] at ht
        cases ht
        exact halong
      · rw [(hf s a hs).2 hfits]
        exact Needs.error fun halong => hfits halong.1

end Needs

end Licode
