import Mathlib.Order.Defs.Unbundled

/-!
# Answers that last

A question may add to the state that it is put to, but once it has been answered the state has what the answer came
from: asked again, of this state or of any that has grown from it, it gives the same answer and adds nothing.
-/

namespace Licode

variable {σ α β : Type} {le : σ → σ → Prop} {good : σ → Prop} {ask : StateM σ α} {s s' : σ} {a : α}

/-- The answer from this state on. -/
def LastingAnswer (le : σ → σ → Prop) (ask : StateM σ α) (s : σ) (a : α) : Prop := ∀ s', le s s' → ask s' = (a, s')

structure Lasting (le : σ → σ → Prop) (good : σ → Prop) (ask : StateM σ α) : Prop where
  grows : ∀ s, le s (ask s).2
  lasting : ∀ s, LastingAnswer le ask (ask s).2 (ask s).1
  keeps : ∀ s, good s → good (ask s).2

theorem LastingAnswer.mono [IsTrans σ le] (h : LastingAnswer le ask s a) (hle : le s s') : LastingAnswer le ask s' a :=
  fun t ht => h t (IsTrans.trans _ _ _ hle ht)

theorem lasting_pure [Std.Refl le] (a : α) : Lasting le good (pure a : StateM σ α) where
  grows s := Std.Refl.refl s
  lasting _ _ _ := rfl
  keeps _ hs := hs

/-- A question after a question. -/
theorem Lasting.bind [IsTrans σ le] (h : Lasting le good ask) {next : α → StateM σ β}
    (hnext : ∀ a, Lasting le good (next a)) : Lasting le good (ask >>= next) where
  grows s := IsTrans.trans _ _ _ (h.grows s) ((hnext _).grows _)
  lasting s t ht := by
    have hfirst : ask t = ((ask s).1, t) := (h.lasting s).mono ((hnext _).grows _) t ht
    have hsecond : next (ask s).1 t = ((next (ask s).1 (ask s).2).1, t) := (hnext _).lasting _ t ht
    change next (ask t).1 (ask t).2 = _
    rw [hfirst]
    exact hsecond
  keeps s hs := (hnext _).keeps _ (h.keeps s hs)

end Licode
