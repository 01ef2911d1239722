import Mathlib.Data.List.Induction

/-!
# Runs of a step relation

A run is told by the labels of its steps. It grows at its end, so that an induction over runs sees
the last step and what has happened before it.
-/

namespace Licode

variable {σ α : Type*}

/-- The runs from `start`, each with its labels and the state it has reached. -/
inductive Run (step : σ → α → σ → Prop) (start : σ) : List α → σ → Prop
  | nil : Run step start [] start
  | snoc {labels : List α} {s : σ} {label : α} {s' : σ} (hrun : Run step start labels s)
      (hstep : step s label s') : Run step start (labels ++ [label]) s'

/-- The steps whose state and label meet a condition. -/
def Guarded (guard : σ → α → Prop) (step : σ → α → σ → Prop) : σ → α → σ → Prop :=
  fun s label s' => guard s label ∧ step s label s'

theorem Run.trans {step : σ → α → σ → Prop} {s s' s'' : σ} {labels more : List α}
    (hfirst : Run step s labels s') (hsecond : Run step s' more s'') :
    Run step s (labels ++ more) s'' := by
  induction hsecond with
  | nil =>
      rw [List.append_nil]
      exact hfirst
  | snoc _ hlast ih =>
      rw [← List.append_assoc]
      exact ih.snoc hlast

theorem Run.cons {step : σ → α → σ → Prop} {s s' s'' : σ} {label : α} {labels : List α}
    (hstep : step s label s') (hrun : Run step s' labels s'') :
    Run step s (label :: labels) s'' :=
  (Run.nil.snoc hstep).trans hrun

/-- What holds at the start and is kept by every step that the run makes holds in every state of it. -/
theorem Run.invariant_of_mem {step : σ → α → σ → Prop} {start s : σ} {labels : List α}
    {Inv : σ → Prop} (hrun : Run step start labels s) (hstart : Inv start)
    (hstep : ∀ {s label s'}, label ∈ labels → Inv s → step s label s' → Inv s') : Inv s := by
  induction hrun with
  | nil => exact hstart
  | snoc _ hlast ih =>
      refine hstep (by simp) (ih fun hmem => hstep ?_) hlast
      exact List.mem_append_left _ hmem

/-- What holds at the start and is kept by every step holds in every state of a run. -/
theorem Run.invariant {step : σ → α → σ → Prop} {start s : σ} {labels : List α} {Inv : σ → Prop}
    (hrun : Run step start labels s) (hstart : Inv start)
    (hstep : ∀ {s label s'}, Inv s → step s label s' → Inv s') : Inv s :=
  hrun.invariant_of_mem hstart fun _ => hstep

theorem Run.unguarded {step : σ → α → σ → Prop} {guard : σ → α → Prop} {start s : σ} {labels : List α}
    (hrun : Run (Guarded guard step) start labels s) : Run step start labels s := by
  induction hrun with
  | nil => exact .nil
  | snoc _ hlast ih => exact ih.snoc hlast.2

theorem Run.guarded {step : σ → α → σ → Prop} {guard : σ → α → Prop} {start s : σ} {labels : List α}
    (hrun : Run step start labels s) (hguard : ∀ s, ∀ label ∈ labels, guard s label) :
    Run (Guarded guard step) start labels s := by
  induction hrun with
  | nil => exact .nil
  | snoc _ hlast ih =>
      refine (ih fun s label hmem => hguard s label ?_).snoc ⟨hguard _ _ (by simp), hlast⟩
      exact List.mem_append_left _ hmem

/-- A value that the first step sets and the later ones keep. -/
theorem Run.snoc_eq_of_head {β : Type*} {step : σ → α → σ → Prop} {start s s' : σ} {labels : List α} {label : α}
    {value : σ → β} {unset : β} {given : α → β} (hrun : Run step start labels s) (hlast : step s label s')
    (hstart : value start = unset) (hgiven : ∀ label, given label ≠ unset)
    (hset : ∀ {s label s'}, step s label s' → value s = unset → value s' = given label)
    (hkeep : ∀ {s label s'}, step s label s' → value s ≠ unset → value s' = value s) :
    value s' = given (labels.head?.getD label) := by
  induction hrun generalizing label s' with
  | nil => exact hset hlast hstart
  | @snoc labels s last s₁ _ hstep ih =>
      have hbefore : value s₁ = given (labels.head?.getD last) := ih hstep
      have hsame : value s' = value s₁ := by
        apply hkeep hlast
        rw [hbefore]
        exact hgiven _
      rw [hsame, hbefore]
      cases labels <;> rfl

/-- The run behind a list of labels, where each of the steps is possible in its turn. -/
theorem Run.of_foldlM {next : σ → α → Option σ} {s s' : σ} {labels : List α}
    (hrun : labels.foldlM next s = some s') :
    Run (fun s label s' => next s label = some s') s labels s' := by
  induction labels using List.reverseRecOn generalizing s' with
  | nil =>
      cases hrun
      exact .nil
  | append_singleton labels label ih =>
      rw [List.foldlM_append, Option.bind_eq_bind, Option.bind_eq_some_iff] at hrun
      obtain ⟨s₁, hfirst, hlast⟩ := hrun
      exact (ih hfirst).snoc (by simpa using hlast)

/-- The same with a condition on each of the steps. -/
theorem Run.guarded_of_foldlM {next : σ → α → Option σ} {guard : σ → α → Prop}
    [∀ s label, Decidable (guard s label)] {s s' : σ} {labels : List α}
    (hrun : labels.foldlM (fun s label => if guard s label then next s label else none) s = some s') :
    Run (Guarded guard fun s label s' => next s label = some s') s labels s' := by
  induction labels using List.reverseRecOn generalizing s' with
  | nil =>
      cases hrun
      exact .nil
  | append_singleton labels label ih =>
      rw [List.foldlM_append, Option.bind_eq_bind, Option.bind_eq_some_iff] at hrun
      obtain ⟨s₁, hfirst, hlast⟩ := hrun
      have hstep : (if guard s₁ label then next s₁ label else none) = some s' := by
        simpa using hlast
      split at hstep
      · exact (ih hfirst).snoc ⟨‹_›, hstep⟩
      · cases hstep

end Licode
