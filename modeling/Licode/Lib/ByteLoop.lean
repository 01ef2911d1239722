import Mathlib.Data.List.Basic
import Mathlib.Data.List.Induction

/-!
# Loops that count with eight bits

`for (uint8_t i = 0; i < size; i++)` comes to its end only if `size` is a number of eight bits: after
255 the counter is 0 again, which is below every greater size.
-/

namespace ByteLoop

variable {σ : Type*}

/-- At most `fuel` turns of the loop, from the counter `i` on. -/
def loop (size : Nat) (body : σ → UInt8 → σ) : Nat → UInt8 → σ → Option σ
  | 0, _, _ => none
  | fuel + 1, i, s => if i.toNat < size then loop size body fuel (i + 1) (body s i) else some s

/-- More turns do not help a loop over too many elements. -/
theorem loop_eq_none {size : Nat} (h : 255 < size) (body : σ → UInt8 → σ) (fuel : Nat) (i : UInt8) (s : σ) :
    loop size body fuel i s = none := by
  induction fuel generalizing i s with
  | zero => rfl
  | succ fuel ih =>
      have hi := i.toNat_lt
      rw [loop, if_pos (by omega), ih]

theorem loop_eq_some {size : Nat} (h : size ≤ 255) (body : σ → UInt8 → σ) {i : Nat} (hi : i ≤ size)
    {fuel : Nat} (hfuel : size - i < fuel) (s : σ) :
    loop size body fuel (.ofNat i) s
      = some ((List.range' i (size - i)).foldl (fun s i => body s (.ofNat i)) s) := by
  have hval : (UInt8.ofNat i).toNat = i := by
    rw [UInt8.toNat_ofNat', Nat.mod_eq_of_lt (by omega)]
  induction hn : size - i generalizing i fuel s with
  | zero =>
      cases fuel with
      | zero => omega
      | succ fuel =>
          rw [loop, if_neg (by omega)]
          rfl
  | succ n ih =>
      cases fuel with
      | zero => omega
      | succ fuel =>
          have hnext : UInt8.ofNat i + 1 = .ofNat (i + 1) := by
            apply UInt8.toNat_inj.mp
            rw [UInt8.toNat_add, hval, UInt8.toNat_ofNat']
            rfl
          rw [loop, if_pos (by omega), hnext, ih (by omega) (by omega) _ ?_ (by omega),
            List.range'_succ, List.foldl_cons]
          rw [UInt8.toNat_ofNat', Nat.mod_eq_of_lt (by omega)]

/-- A loop comes to its end if it does so within 256 turns. -/
def run (size : Nat) (body : σ → UInt8 → σ) (s : σ) : Option σ := loop size body 256 0 s

theorem run_eq (size : Nat) (body : σ → UInt8 → σ) (s : σ) :
    run size body s = if size ≤ 255 then
      some ((List.range size).foldl (fun s i => body s (.ofNat i)) s) else none := by
  split_ifs with h
  · have hloop := loop_eq_some h body (Nat.zero_le size) (by omega : size - 0 < 256) s
    rw [Nat.sub_zero, ← List.range_eq_range'] at hloop
    exact hloop
  · exact loop_eq_none (by omega) body 256 0 s

/-- A loop that has not ended by then never ends. -/
theorem run_isSome_iff {size : Nat} {body : σ → UInt8 → σ} {s : σ} :
    (run size body s).isSome = true ↔ ∃ fuel, (loop size body fuel 0 s).isSome = true := by
  refine ⟨fun h => ⟨256, h⟩, ?_⟩
  rintro ⟨fuel, hfuel⟩
  by_cases h : size ≤ 255
  · rw [run_eq, if_pos h]
    rfl
  · rw [loop_eq_none (by omega)] at hfuel
    cases hfuel

/-- The loop over the elements of a vector. -/
def forEach {α : Type*} (v : List α) (body : σ → α → σ) (s : σ) : Option σ :=
  run v.length (fun s i => (v[i.toNat]?).elim s (body s)) s

theorem foldl_range_getElem {α : Type*} (v : List α) (body : σ → α → σ) (s : σ) :
    (List.range v.length).foldl (fun s i => (v[i]?).elim s (body s)) s = v.foldl body s := by
  induction v using List.reverseRecOn generalizing s with
  | nil => rfl
  | append_singleton v a ih =>
      rw [List.length_append, List.length_singleton, List.range_succ, List.foldl_append,
        List.foldl_append, ← ih]
      have hsame : ∀ s, ∀ i ∈ List.range v.length,
          ((v ++ [a])[i]?).elim s (body s) = (v[i]?).elim s (body s) := by
        intro s i hi
        rw [List.getElem?_append_left (List.mem_range.mp hi)]
      rw [List.foldl_ext _ _ _ hsame]
      simp

theorem forEach_eq {α : Type*} (v : List α) (body : σ → α → σ) (s : σ) :
    forEach v body s = if v.length ≤ 255 then some (v.foldl body s) else none := by
  rw [forEach, run_eq]
  by_cases h : v.length ≤ 255
  · rw [if_pos h, if_pos h]
    have hsame : ∀ s, ∀ i ∈ List.range v.length,
        (v[(UInt8.ofNat i).toNat]?).elim s (body s) = (v[i]?).elim s (body s) := by
      intro s i hi
      have hi := List.mem_range.mp hi
      rw [UInt8.toNat_ofNat', Nat.mod_eq_of_lt (by omega)]
    rw [List.foldl_ext _ _ _ hsame, foldl_range_getElem]
  · rw [if_neg h, if_neg h]

theorem getElem?_foldl_modify {α : Type*} (f : α → α) (v : List α) (n j : Nat) :
    ((List.range n).foldl (fun v i => v.modify i f) v)[j]? = if j < n then (v[j]?).map f else v[j]? := by
  induction n with
  | zero => rfl
  | succ n ih =>
      rw [List.range_succ, List.foldl_append, List.foldl_cons, List.foldl_nil]
      by_cases hj : n = j
      · subst hj
        rw [List.getElem?_modify_eq, ih, if_neg (Nat.lt_irrefl n), if_pos (Nat.lt_succ_self n)]
        rfl
      · rw [List.getElem?_modify_ne f _ hj, ih]
        exact if_congr (by omega) rfl rfl

/-- The loop that changes every element of a vector in its place. -/
theorem run_modify {α : Type*} (f : α → α) (v : List α) :
    run v.length (fun v i => v.modify i.toNat f) v = if v.length ≤ 255 then some (v.map f) else none := by
  rw [run_eq]
  by_cases h : v.length ≤ 255
  · rw [if_pos h, if_pos h]
    have hsame : ∀ w : List α, ∀ i ∈ List.range v.length,
        w.modify (UInt8.ofNat i).toNat f = w.modify i f := by
      intro w i hi
      have hi := List.mem_range.mp hi
      rw [UInt8.toNat_ofNat', Nat.mod_eq_of_lt (by omega)]
    rw [List.foldl_ext _ _ _ hsame]
    congr 1
    ext1 j
    rw [getElem?_foldl_modify, List.getElem?_map]
    split_ifs with hj
    · rfl
    · rw [List.getElem?_eq_none (by omega)]
      rfl
  · rw [if_neg h, if_neg h]

end ByteLoop
