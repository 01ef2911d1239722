import Licode.ByteBufferCodec
import Licode.Checked
import Mathlib.Data.List.Induction
import Mathlib.Data.List.Sort

/-!
# Settings that override others

The values of a key come from two repositories, and the ones of the second take the place of those of the
first that have the same name. `cOverridesSettingsRepository::GetValues` sorts both and merges them, with an
index into the overrides. It passes an override on only when a later name of the main repository comes by,
it reads past the end of them when a name is later than all, and an entry that moves the index to its own
name gets through although it is overridden.
-/

namespace Licode.Server

/-- A name and its value. -/
abbrev Entry := AString × AString

namespace Entry

/-- `operator<` of `std::pair`. -/
def Less (a b : Entry) : Prop := a.1 < b.1 ∨ (¬ b.1 < a.1 ∧ a.2 < b.2)

instance : DecidableRel Less := fun a b => inferInstanceAs (Decidable (a.1 < b.1 ∨ (¬ b.1 < a.1 ∧ a.2 < b.2)))

def NotAfter (a b : Entry) : Prop := ¬ b.Less a

instance : DecidableRel NotAfter := fun a b => inferInstanceAs (Decidable (¬ b.Less a))

theorem notAfter_iff {a b : Entry} : a.NotAfter b ↔ a.1 < b.1 ∨ (a.1 = b.1 ∧ a.2 ≤ b.2) := by
  rw [NotAfter, Less]
  grind

instance : Std.Total NotAfter where
  total a b := by
    rw [notAfter_iff, notAfter_iff]
    grind

instance : IsTrans Entry NotAfter where
  trans a b c hab hbc := by
    rw [notAfter_iff] at hab hbc ⊢
    grind

end Entry

/-- `std::sort` with that order: entries of one rank are equal. -/
def sort (entries : List Entry) : List Entry := entries.insertionSort Entry.NotAfter

/-- `cSettingsRepositoryInterface`, as far as the values of a key go. -/
structure SettingsRepository where
  getValues : AString → List Entry

/-- The keys of a file with their entries: each two vectors that go together are one list of pairs. -/
structure IniFile where
  isCaseInsensitive : Bool
  keys : List (AString × List Entry)

namespace IniFile

def tolower (c : UInt8) : UInt8 := if 65 ≤ c ∧ c ≤ 90 then c + 32 else c

def checkCase (ini : IniFile) (s : AString) : AString :=
  if ini.isCaseInsensitive then s.map tolower else s

def findKey (ini : IniFile) (keyName : AString) : Option (AString × List Entry) :=
  ini.keys.find? fun key => ini.checkCase key.1 = ini.checkCase keyName

def getValues (ini : IniFile) (keyName : AString) : List Entry :=
  match ini.findKey keyName with
  | none => []
  | some key => key.2

def repository (ini : IniFile) : SettingsRepository := ⟨ini.getValues⟩

end IniFile

/-- `while (pair.first > overrides[overridesIndex].first)`. The index stands for the overrides from it on. -/
def pushOverrides (name : AString) : List Entry → List Entry → Checked (List Entry × List Entry)
  | [], _ => .error .outOfBounds
  | override :: rest, ret =>
      if name > override.1 then pushOverrides name rest (ret ++ [override]) else .ok (override :: rest, ret)

/-- One turn of the loop over the main repository's entries. -/
def mergeEntry (s : List Entry × List Entry) (pair : Entry) : Checked (List Entry × List Entry) :=
  match s with
  | ([], ret) => .ok ([], ret ++ [pair])
  | (override :: rest, ret) =>
      if pair.1 = override.1 then .ok (override :: rest, ret)
      else do
        let (rest, ret) ← pushOverrides pair.1 (override :: rest) ret
        return (rest, ret ++ [pair])

structure OverridesSettingsRepository where
  main : SettingsRepository
  overrides : SettingsRepository

def OverridesSettingsRepository.getValues (r : OverridesSettingsRepository) (keyName : AString) :
    Checked (List Entry) := do
  let (_, ret) ← (sort (r.main.getValues keyName)).foldlM mergeEntry (sort (r.overrides.getValues keyName), [])
  return ret

/-- What the values of a key ought to be: the overrides, and what they leave of the others. -/
def effective (overrides main : List Entry) : List Entry :=
  overrides ++ main.filter fun pair => ∀ override ∈ overrides, override.1 ≠ pair.1

/-- An entry that gets through although it is overridden. It is the least of its name, and no name before it
comes behind the last of the overrides before it. -/
structure Repushed (overrides main : List Entry) (e : Entry) : Prop where
  mem : e ∈ main
  least : ∀ pair ∈ main, pair.1 = e.1 → e.2 ≤ pair.2
  overridden : ∃ override ∈ overrides, override.1 = e.1
  moved : ∃ override ∈ overrides, override.1 < e.1 ∧ ∀ pair ∈ main, pair.1 < e.1 → pair.1 ≤ override.1

/-- The one entry that gets through makes up for the one override that is left out. -/
structure MakesUp (overrides main : List Entry) (e : Entry) : Prop where
  repushed_iff : ∀ e', Repushed overrides main e' ↔ e' = e
  last : ∀ pair ∈ main, pair.1 ≤ e.1
  left_out : (overrides.filter fun override => ¬ override.1 < e.1) = [e]

/-! ### One turn -/

/-- The index stops at the first override that is not before the name. -/
theorem pushOverrides_ok {name : AString} {rest ret : List Entry} {s : List Entry × List Entry}
    (h : pushOverrides name rest ret = .ok s) :
    ∃ pushed override tail, rest = pushed ++ s.1 ∧ s.2 = ret ++ pushed ∧ (∀ o ∈ pushed, o.1 < name)
      ∧ s.1 = override :: tail ∧ ¬ override.1 < name := by
  induction rest generalizing ret with
  | nil => cases h
  | cons override rest ih =>
      rw [pushOverrides] at h
      split at h
      · next hpass =>
          obtain ⟨pushed, stop, tail, hrest, hret, hpushed, htail, hstop⟩ := ih h
          refine ⟨override :: pushed, stop, tail, congrArg _ hrest, ?_, ?_, htail, hstop⟩
          · rw [hret, List.append_assoc]
            rfl
          · exact List.forall_mem_cons.mpr ⟨hpass, hpushed⟩
      · next hstop =>
          cases h
          exact ⟨[], override, rest, rfl, (List.append_nil _).symm, List.forall_mem_nil _, rfl, hstop⟩

theorem pushOverrides_returns {name : AString} {rest ret : List Entry}
    (h : ∃ override ∈ rest, ¬ override.1 < name) : ∃ s, pushOverrides name rest ret = .ok s := by
  induction rest generalizing ret with
  | nil =>
      obtain ⟨_, hmem, -⟩ := h
      cases hmem
  | cons override rest ih =>
      rw [pushOverrides]
      split
      · next hpass =>
          apply ih
          obtain ⟨stop, hmem, hstop⟩ := h
          rcases List.mem_cons.mp hmem with rfl | hmem
          · exact absurd hpass hstop
          · exact ⟨stop, hmem, hstop⟩
      · exact ⟨_, rfl⟩

section Turn

variable {overrides main : List Entry} {pair : Entry}

/-- A later entry changes nothing for the ones before it. -/
theorem repushed_append_iff (hsorted : ∀ p ∈ main, p.NotAfter pair) {e : Entry} (he : e ∈ main) :
    Repushed overrides (main ++ [pair]) e ↔ Repushed overrides main e := by
  have hpair := Entry.notAfter_iff.mp (hsorted e he)
  constructor
  · rintro ⟨-, hleast, hoverridden, override, hmem, hlt, hmoved⟩
    refine ⟨he, ?_, hoverridden, override, hmem, hlt, ?_⟩
    · intro p hp
      exact hleast p (List.mem_append_left _ hp)
    · intro p hp
      exact hmoved p (List.mem_append_left _ hp)
  · rintro ⟨-, hleast, hoverridden, override, hmem, hlt, hmoved⟩
    refine ⟨List.mem_append_left _ he, ?_, hoverridden, override, hmem, hlt, ?_⟩
    · intro p hp heq
      rcases List.mem_append.mp hp with hp | hp
      · exact hleast p hp heq
      · rw [List.mem_singleton.mp hp] at heq ⊢
        grind
    · intro p hp hless
      rcases List.mem_append.mp hp with hp | hp
      · exact hmoved p hp hless
      · rw [List.mem_singleton.mp hp] at hless ⊢
        grind

theorem repushed_append (hsorted : ∀ p ∈ main, p.NotAfter pair) {e : Entry} :
    Repushed overrides (main ++ [pair]) e
      ↔ Repushed overrides main e ∨ (pair ∉ main ∧ e = pair ∧ Repushed overrides (main ++ [pair]) pair) := by
  constructor
  · intro he
    by_cases hmem : e ∈ main
    · exact .inl ((repushed_append_iff hsorted hmem).mp he)
    · rcases List.mem_append.mp he.mem with hin | hin
      · exact absurd hin hmem
      · rw [List.mem_singleton.mp hin] at he hmem ⊢
        exact .inr ⟨hmem, rfl, he⟩
  · rintro (he | ⟨-, rfl, he⟩)
    · exact (repushed_append_iff hsorted he.mem).mpr he
    · exact he

/-- What the loop has made of the entries of `main`: the overrides that are `passed`, the entries that
they leave, and those that got through. -/
structure Merged (overrides main : List Entry) (s : List Entry × List Entry) (passed through : List Entry) :
    Prop where
  split : overrides = passed ++ s.1
  rest_ne_nil : s.1 ≠ []
  passed_lt : ∀ override ∈ passed, ∃ p ∈ main, override.1 < p.1
  le_rest : ∀ override ∈ s.1, ∀ p ∈ main, p.1 ≤ override.1
  ret : s.2.Perm
    (passed ++ (main.filter fun p => ∀ override ∈ overrides, override.1 ≠ p.1) ++ through)
  through_iff : ∀ e, e ∈ through ↔ Repushed overrides main e
  through_names : through.Pairwise (·.1 ≠ ·.1)

theorem merged_nil (hne : overrides ≠ []) : Merged overrides [] (overrides, []) [] [] where
  split := rfl
  rest_ne_nil := hne
  passed_lt := List.forall_mem_nil _
  le_rest _ _ := List.forall_mem_nil _
  ret := .refl _
  through_iff _ := iff_of_false List.not_mem_nil fun he => List.not_mem_nil he.mem
  through_names := .nil

theorem head_le {passed tail : List Entry} {override : Entry}
    (hoverrides : overrides.Pairwise fun o o' => o.1 ≤ o'.1) (hsplit : overrides = passed ++ override :: tail) :
    ∀ o ∈ override :: tail, override.1 ≤ o.1 := by
  rw [hsplit, List.pairwise_append, List.pairwise_cons] at hoverrides
  exact List.forall_mem_cons.mpr ⟨Std.le_refl _, hoverrides.2.1.1⟩

variable {rest ret passed through : List Entry} {override : Entry}

/-- The turn moves the overrides before the entry's name to the ones that are passed. -/
theorem Merged.move (h : Merged overrides main (override :: rest, ret) passed through)
    {pushed through' : List Entry} {s : List Entry × List Entry} (hsplit : override :: rest = pushed ++ s.1)
    (hne : s.1 ≠ []) (hpushed : ∀ o ∈ pushed, o.1 < pair.1) (hrest : ∀ o ∈ s.1, pair.1 ≤ o.1)
    (hret : s.2.Perm (passed ++ pushed
      ++ ((main ++ [pair]).filter fun p => ∀ override ∈ overrides, override.1 ≠ p.1) ++ through'))
    (hthrough : ∀ e, e ∈ through' ↔ Repushed overrides (main ++ [pair]) e)
    (hnames : through'.Pairwise (·.1 ≠ ·.1)) :
    Merged overrides (main ++ [pair]) s (passed ++ pushed) through' where
  split := by
    rw [h.split, List.append_assoc, ← hsplit]
  rest_ne_nil := hne
  passed_lt o ho := by
    rcases List.mem_append.mp ho with ho | ho
    · obtain ⟨p, hp, hlt⟩ := h.passed_lt o ho
      exact ⟨p, List.mem_append_left _ hp, hlt⟩
    · exact ⟨pair, List.mem_append_right _ (List.mem_singleton_self _), hpushed o ho⟩
  le_rest o ho p hp := by
    rcases List.mem_append.mp hp with hp | hp
    · apply h.le_rest o _ p hp
      change o ∈ override :: rest
      rw [hsplit]
      exact List.mem_append_right _ ho
    · rw [List.mem_singleton.mp hp]
      exact hrest o ho
  ret := hret
  through_iff := hthrough
  through_names := hnames

/-- An entry of the name that the index is at is left out. -/
theorem Merged.skip (h : Merged overrides main (override :: rest, ret) passed through)
    (hoverrides : overrides.Pairwise fun o o' => o.1 ≤ o'.1) (hsorted : ∀ p ∈ main, p.NotAfter pair)
    (heq : pair.1 = override.1) :
    Merged overrides (main ++ [pair]) (override :: rest, ret) (passed ++ []) through := by
  have hhead := head_le hoverrides h.split
  have hmem : override ∈ overrides := by
    rw [h.split]
    exact List.mem_append_right _ List.mem_cons_self
  have hfresh : ¬ ∀ o ∈ overrides, o.1 ≠ pair.1 := fun hall => hall override hmem heq.symm
  refine h.move rfl (List.cons_ne_nil _ _) (List.forall_mem_nil _) ?_ ?_ ?_ h.through_names
  · rw [heq]
    exact hhead
  · rw [List.append_nil, List.filter_append, List.filter_cons_of_neg (by simpa using hfresh), List.filter_nil,
      List.append_nil]
    exact h.ret
  · intro e
    rw [h.through_iff, repushed_append hsorted, or_iff_left]
    rintro ⟨hnew, -, hpair⟩
    obtain ⟨o, ho, hlt, hmoved⟩ := hpair.moved
    -- the override that has moved the index is passed, by an entry of the same name
    have hpassed : o ∈ passed := by
      rw [h.split] at ho
      rcases List.mem_append.mp ho with ho | ho
      · exact ho
      · have hle := hhead o ho
        grind
    obtain ⟨p, hp, hop⟩ := h.passed_lt o hpassed
    have hle := h.le_rest override List.mem_cons_self p hp
    have hleast := hpair.least p (List.mem_append_left _ hp)
    have hstay := hmoved p (List.mem_append_left _ hp)
    have hafter := Entry.notAfter_iff.mp (hsorted p hp)
    have hsame : p = pair := by
      apply Prod.ext
      · grind
      · grind
    exact hnew (hsame ▸ hp)

/-- Any other entry is passed on, behind the overrides before it. It gets through if it is overridden. -/
theorem Merged.push (h : Merged overrides main (override :: rest, ret) passed through)
    (hoverrides : overrides.Pairwise fun o o' => o.1 ≤ o'.1) (hsorted : ∀ p ∈ main, p.NotAfter pair)
    (hne : pair.1 ≠ override.1) {s : List Entry × List Entry}
    (hpush : pushOverrides pair.1 (override :: rest) ret = .ok s) :
    ∃ passed' through', Merged overrides (main ++ [pair]) (s.1, s.2 ++ [pair]) passed' through' := by
  obtain ⟨pushed, stop, tail, hsplit, hret, hpushed, htail, hstop⟩ := pushOverrides_ok hpush
  have hhead := head_le hoverrides h.split
  have hsplit' : overrides = (passed ++ pushed) ++ stop :: tail := by
    rw [h.split, List.append_assoc, ← htail, ← hsplit]
  have hrest : ∀ o ∈ s.1, pair.1 ≤ o.1 := by
    rw [htail]
    intro o ho
    have hle := head_le hoverrides hsplit' o ho
    grind
  have hcons : s.1 ≠ [] := htail ▸ List.cons_ne_nil _ _
  by_cases hfresh : ∀ o ∈ overrides, o.1 ≠ pair.1
  · refine ⟨_, through, h.move hsplit hcons hpushed hrest ?_ ?_ h.through_names⟩
    · apply List.perm_iff_count.mpr
      intro a
      have hcount := h.ret.count_eq a
      rw [List.filter_append, List.filter_cons_of_pos (by simpa using hfresh), List.filter_nil, hret]
      simp only [List.count_append] at hcount ⊢
      omega
    · intro e
      rw [h.through_iff, repushed_append hsorted, or_iff_left]
      rintro ⟨-, -, hpair⟩
      obtain ⟨o, ho, heq⟩ := hpair.overridden
      exact hfresh o ho heq
  · obtain ⟨same, hsame, hname⟩ : ∃ o ∈ overrides, o.1 = pair.1 := by
      push Not at hfresh
      exact hfresh
    -- the index is still before the name, so that no entry of this name has come by
    have hahead : same ∈ override :: rest := by
      rw [h.split] at hsame
      rcases List.mem_append.mp hsame with hpassed | hahead
      · obtain ⟨p, hp, hlt⟩ := h.passed_lt same hpassed
        have hafter := Entry.notAfter_iff.mp (hsorted p hp)
        grind
      · exact hahead
    have hlt : override.1 < pair.1 := by
      have hle := hhead same hahead
      grind
    have hnew : ∀ p ∈ main, p.1 ≠ pair.1 := by
      intro p hp heq
      have hle := h.le_rest override List.mem_cons_self p hp
      grind
    have hthrough : Repushed overrides (main ++ [pair]) pair := by
      have hmem : pair ∈ main ++ [pair] := List.mem_append_right _ (List.mem_singleton_self _)
      refine ⟨hmem, ?_, ⟨same, hsame, hname⟩, override, ?_, hlt, ?_⟩
      · intro p hp heq
        rcases List.mem_append.mp hp with hp | hp
        · exact absurd heq (hnew p hp)
        · rw [List.mem_singleton.mp hp]
          exact Std.le_refl _
      · rw [h.split]
        exact List.mem_append_right _ List.mem_cons_self
      · intro p hp hbefore
        rcases List.mem_append.mp hp with hp | hp
        · exact h.le_rest override List.mem_cons_self p hp
        · rw [List.mem_singleton.mp hp] at hbefore
          exact absurd hbefore (Std.lt_irrefl)
    refine ⟨_, through ++ [pair], h.move hsplit hcons hpushed hrest ?_ ?_ ?_⟩
    · apply List.perm_iff_count.mpr
      intro a
      have hcount := h.ret.count_eq a
      rw [List.filter_append, List.filter_cons_of_neg (by simpa using hfresh), List.filter_nil, hret]
      simp only [List.count_append, List.count_nil] at hcount ⊢
      omega
    · intro e
      rw [List.mem_append, h.through_iff, repushed_append hsorted, List.mem_singleton]
      refine or_congr_right ⟨fun heq => ⟨fun hmem => hnew pair hmem rfl, heq, hthrough⟩, fun he => he.2.1⟩
    · apply List.pairwise_append.mpr
      refine ⟨h.through_names, List.pairwise_singleton _ _, ?_⟩
      intro e he p hp
      rw [List.mem_singleton.mp hp]
      exact hnew e ((h.through_iff e).mp he).mem

theorem Merged.turn {s s' : List Entry × List Entry} (h : Merged overrides main s passed through)
    (hoverrides : overrides.Pairwise fun o o' => o.1 ≤ o'.1) (hsorted : ∀ p ∈ main, p.NotAfter pair)
    (hturn : mergeEntry s pair = .ok s') :
    ∃ passed' through', Merged overrides (main ++ [pair]) s' passed' through' := by
  obtain ⟨rest, ret⟩ := s
  cases rest with
  | nil => exact absurd rfl h.rest_ne_nil
  | cons override rest =>
      rw [mergeEntry] at hturn
      split at hturn
      · next heq =>
          cases hturn
          exact ⟨_, _, h.skip hoverrides hsorted heq⟩
      · next hne =>
          obtain ⟨s, hpush, hret⟩ := exists_of_bind_ok hturn
          cases hret
          exact h.push hoverrides hsorted hne hpush

/-- A turn returns if there is an override to stop at. -/
theorem Merged.turn_returns {s : List Entry × List Entry} (h : Merged overrides main s passed through)
    (hsorted : ∀ p ∈ main, p.NotAfter pair) (hstop : ∃ o ∈ overrides, pair.1 ≤ o.1) :
    ∃ s', mergeEntry s pair = .ok s' := by
  obtain ⟨rest, ret⟩ := s
  cases rest with
  | nil => exact absurd rfl h.rest_ne_nil
  | cons override rest =>
      obtain ⟨stop, hstop, hle⟩ := hstop
      rw [h.split] at hstop
      rw [mergeEntry]
      split
      · exact ⟨_, rfl⟩
      · have hahead : ∃ o ∈ override :: rest, ¬ o.1 < pair.1 := by
          refine ⟨stop, ?_, ?_⟩
          · rcases List.mem_append.mp hstop with hpassed | hahead
            · obtain ⟨p, hp, hlt⟩ := h.passed_lt stop hpassed
              have hafter := Entry.notAfter_iff.mp (hsorted p hp)
              grind
            · exact hahead
          · grind
        obtain ⟨s, hs⟩ := pushOverrides_returns hahead
        rw [hs]
        exact ⟨_, rfl⟩

end Turn

/-! ### The whole loop -/

section Loop

variable {overrides main : List Entry}

theorem merged_of_ok (hne : overrides ≠ []) (hoverrides : overrides.Pairwise fun o o' => o.1 ≤ o'.1)
    (hmain : main.Pairwise Entry.NotAfter) {s : List Entry × List Entry}
    (hrun : main.foldlM mergeEntry (overrides, []) = .ok s) :
    ∃ passed through, Merged overrides main s passed through := by
  induction main using List.reverseRecOn generalizing s with
  | nil =>
      cases hrun
      exact ⟨_, _, merged_nil hne⟩
  | append_singleton main pair ih =>
      rw [List.foldlM_append] at hrun
      obtain ⟨s₁, hfirst, hlast⟩ := exists_of_bind_ok hrun
      obtain ⟨hbefore, -, hsorted⟩ := List.pairwise_append.mp hmain
      obtain ⟨passed, through, h⟩ := ih hbefore hfirst
      rw [List.foldlM_cons] at hlast
      obtain ⟨s₂, hturn, hend⟩ := exists_of_bind_ok hlast
      cases hend
      exact h.turn hoverrides (fun p hp => hsorted p hp pair (List.mem_singleton_self _)) hturn

theorem returns_of_le (hne : overrides ≠ []) (hoverrides : overrides.Pairwise fun o o' => o.1 ≤ o'.1)
    (hmain : main.Pairwise Entry.NotAfter) (hstop : ∀ pair ∈ main, ∃ o ∈ overrides, pair.1 ≤ o.1) :
    ∃ s, main.foldlM mergeEntry (overrides, []) = .ok s := by
  induction main using List.reverseRecOn with
  | nil => exact ⟨_, rfl⟩
  | append_singleton main pair ih =>
      obtain ⟨hbefore, -, hsorted⟩ := List.pairwise_append.mp hmain
      obtain ⟨s, hs⟩ := ih hbefore fun p hp => hstop p (List.mem_append_left _ hp)
      obtain ⟨passed, through, h⟩ := merged_of_ok hne hoverrides hbefore hs
      obtain ⟨s', hs'⟩ := h.turn_returns (fun p hp => hsorted p hp pair (List.mem_singleton_self _))
        (hstop pair (List.mem_append_right _ (List.mem_singleton_self _)))
      refine ⟨s', ?_⟩
      rw [List.foldlM_append, hs]
      change (mergeEntry s pair >>= fun s' => List.foldlM mergeEntry s' []) = _
      rw [hs']
      rfl

theorem merge_nil (main ret : List Entry) : main.foldlM mergeEntry ([], ret) = .ok ([], ret ++ main) := by
  induction main generalizing ret with
  | nil =>
      rw [List.append_nil]
      rfl
  | cons pair main ih =>
      rw [List.foldlM_cons]
      change main.foldlM mergeEntry ([], ret ++ [pair]) = _
      rw [ih, List.append_assoc]
      rfl

/-- What is passed on is what it ought to be if the overrides that are left out have got through. -/
theorem Merged.right_iff {s : List Entry × List Entry} {passed through : List Entry}
    (h : Merged overrides main s passed through) :
    s.2.Perm (effective overrides main) ↔ through.Perm s.1 := by
  have hsplit := h.split
  have hret := h.ret
  rw [List.perm_iff_count] at hret ⊢
  rw [List.perm_iff_count]
  refine forall_congr' ?_
  intro a
  have hcount := hret a
  rw [effective, List.count_append]
  rw [List.count_append, List.count_append] at hcount
  have hoverrides : overrides.count a = passed.count a + s.1.count a := by
    rw [← List.count_append, ← hsplit]
  omega

/-- Where the names of the main repository end with `e`, the overrides that are left out are those from `e` on. -/
theorem Merged.left_out {s : List Entry × List Entry} {passed through : List Entry}
    (h : Merged overrides main s passed through) {e : Entry} (he : e ∈ main) (hlast : ∀ p ∈ main, p.1 ≤ e.1) :
    (overrides.filter fun o => ¬ o.1 < e.1) = s.1 := by
  have hpassed : ∀ o ∈ passed, ¬ decide (¬ o.1 < e.1) = true := by
    intro o ho
    obtain ⟨p, hp, hlt⟩ := h.passed_lt o ho
    have hle := hlast p hp
    grind
  have hrest : ∀ o ∈ s.1, decide (¬ o.1 < e.1) = true := by
    intro o ho
    have hle := h.le_rest o ho e he
    grind
  rw [h.split, List.filter_append, List.filter_eq_nil_iff.mpr hpassed, List.filter_eq_self.mpr hrest,
    List.nil_append]

theorem Merged.perm_iff {s : List Entry × List Entry} {passed through : List Entry}
    (h : Merged overrides main s passed through) :
    through.Perm s.1 ↔ ∃ e, MakesUp overrides main e := by
  constructor
  · intro hperm
    have hnames : s.1.Pairwise (·.1 ≠ ·.1) := (hperm.pairwise_iff Ne.symm).mp h.through_names
    have hmem : ∀ o ∈ s.1, o ∈ main := fun o ho => ((h.through_iff o).mp (hperm.mem_iff.mpr ho)).mem
    obtain ⟨e, tail, hrest⟩ := List.exists_cons_of_ne_nil h.rest_ne_nil
    have he : e ∈ s.1 := hrest ▸ List.mem_cons_self
    -- two overrides that are left out would both be last among the names of the main repository
    have htail : tail = [] := by
      apply List.eq_nil_iff_forall_not_mem.mpr
      intro o ho
      have hin : o ∈ s.1 := hrest ▸ List.mem_cons_of_mem _ ho
      rw [hrest] at hnames
      apply (List.pairwise_cons.mp hnames).1 o ho
      exact Std.le_antisymm (h.le_rest o hin e (hmem e he)) (h.le_rest e he o (hmem o hin))
    rw [htail] at hrest
    rw [hrest, List.perm_singleton] at hperm
    refine ⟨e, ?_, h.le_rest e he, ?_⟩
    · intro e'
      rw [← h.through_iff, hperm, List.mem_singleton]
    · rw [h.left_out (hmem e he) (h.le_rest e he), hrest]
  · rintro ⟨e, honly, hlast, hleft⟩
    have he : e ∈ main := ((honly e).mpr rfl).mem
    rw [← h.left_out he hlast, hleft]
    apply (List.perm_ext_iff_of_nodup _ (List.nodup_singleton e)).mpr
    · intro e'
      rw [h.through_iff, honly, List.mem_singleton]
    · exact h.through_names.imp fun hne heq => hne (congrArg Prod.fst heq)

/-- The loop over sorted entries, with overrides to go by. -/
theorem merge_right_iff (hne : overrides ≠ []) (hoverrides : overrides.Pairwise fun o o' => o.1 ≤ o'.1)
    (hmain : main.Pairwise Entry.NotAfter) :
    (∃ s, main.foldlM mergeEntry (overrides, []) = .ok s ∧ s.2.Perm (effective overrides main))
      ↔ ∃ e, MakesUp overrides main e := by
  constructor
  · rintro ⟨s, hrun, hperm⟩
    obtain ⟨passed, through, h⟩ := merged_of_ok hne hoverrides hmain hrun
    exact h.perm_iff.mp (h.right_iff.mp hperm)
  · rintro ⟨e, he⟩
    have hmem : e ∈ overrides := by
      apply List.mem_of_mem_filter
      rw [he.left_out]
      exact List.mem_singleton_self e
    obtain ⟨s, hrun⟩ := returns_of_le hne hoverrides hmain fun p hp => ⟨e, hmem, he.last p hp⟩
    obtain ⟨passed, through, h⟩ := merged_of_ok hne hoverrides hmain hrun
    exact ⟨s, hrun, h.right_iff.mpr (h.perm_iff.mpr ⟨e, he⟩)⟩

end Loop

/-! ### Any two repositories -/

section Perm

variable {overrides overrides' main main' : List Entry}

theorem Repushed.of_perm {e : Entry} (h : Repushed overrides main e) (hoverrides : overrides.Perm overrides')
    (hmain : main.Perm main') : Repushed overrides' main' e where
  mem := hmain.mem_iff.mp h.mem
  least p hp := h.least p (hmain.mem_iff.mpr hp)
  overridden := by
    obtain ⟨o, ho, hname⟩ := h.overridden
    exact ⟨o, hoverrides.mem_iff.mp ho, hname⟩
  moved := by
    obtain ⟨o, ho, hlt, hmoved⟩ := h.moved
    exact ⟨o, hoverrides.mem_iff.mp ho, hlt, fun p hp => hmoved p (hmain.mem_iff.mpr hp)⟩

theorem MakesUp.of_perm {e : Entry} (h : MakesUp overrides main e) (hoverrides : overrides.Perm overrides')
    (hmain : main.Perm main') : MakesUp overrides' main' e where
  repushed_iff e' := by
    rw [← h.repushed_iff]
    exact ⟨fun he => he.of_perm hoverrides.symm hmain.symm, fun he => he.of_perm hoverrides hmain⟩
  last p hp := h.last p (hmain.mem_iff.mpr hp)
  left_out := by
    apply List.perm_singleton.mp
    rw [← h.left_out]
    exact hoverrides.symm.filter _

theorem effective_perm (hoverrides : overrides.Perm overrides') (hmain : main.Perm main') :
    (effective overrides main).Perm (effective overrides' main') := by
  apply hoverrides.append
  have hfilter : (main.filter fun p => ∀ o ∈ overrides, o.1 ≠ p.1)
      = main.filter fun p => ∀ o ∈ overrides', o.1 ≠ p.1 := by
    apply List.filter_congr
    intro p _
    refine decide_eq_decide.mpr ?_
    exact forall_congr' fun o => by rw [hoverrides.mem_iff]
  rw [hfilter]
  exact hmain.filter _

theorem sort_perm (entries : List Entry) : (sort entries).Perm entries := List.perm_insertionSort _ _

theorem sort_sorted (entries : List Entry) : (sort entries).Pairwise Entry.NotAfter :=
  List.pairwise_insertionSort _ _

theorem sort_names (entries : List Entry) : (sort entries).Pairwise fun o o' => o.1 ≤ o'.1 := by
  apply (sort_sorted entries).imp
  intro o o' h
  have hor := Entry.notAfter_iff.mp h
  grind

end Perm

namespace OverridesSettingsRepository

/-- The values of a key come out right exactly if there are no overrides, or if an entry that gets through makes
up for the override that is left out. -/
theorem getValues_right_iff (r : OverridesSettingsRepository) (keyName : AString) :
    (∃ ret, r.getValues keyName = .ok ret
        ∧ ret.Perm (effective (r.overrides.getValues keyName) (r.main.getValues keyName)))
      ↔ r.overrides.getValues keyName = []
        ∨ ∃ e, MakesUp (r.overrides.getValues keyName) (r.main.getValues keyName) e := by
  have hreturns : ∀ ret, r.getValues keyName = .ok ret ↔ ∃ s, (sort (r.main.getValues keyName)).foldlM mergeEntry
      (sort (r.overrides.getValues keyName), []) = .ok s ∧ s.2 = ret := by
    intro ret
    constructor
    · intro h
      obtain ⟨s, hrun, hret⟩ := exists_of_bind_ok h
      exact ⟨s, hrun, Except.ok.inj hret⟩
    · rintro ⟨s, hrun, rfl⟩
      rw [getValues, hrun]
      rfl
  have heffective := effective_perm (sort_perm (r.overrides.getValues keyName)) (sort_perm (r.main.getValues keyName))
  by_cases hnone : r.overrides.getValues keyName = []
  · refine iff_of_true ⟨sort (r.main.getValues keyName), ?_, ?_⟩ (.inl hnone)
    · rw [hreturns, hnone]
      exact ⟨_, merge_nil _ _, rfl⟩
    · rw [hnone, effective, List.nil_append, List.filter_eq_self.mpr (by simp)]
      exact sort_perm _
  · have hne : sort (r.overrides.getValues keyName) ≠ [] := by
      intro hnil
      apply hnone
      exact List.perm_nil.mp (hnil ▸ (sort_perm _).symm)
    rw [or_iff_right hnone]
    calc (∃ ret, r.getValues keyName = .ok ret ∧ _) ↔ ∃ s, (sort (r.main.getValues keyName)).foldlM mergeEntry
          (sort (r.overrides.getValues keyName), []) = .ok s
            ∧ s.2.Perm (effective (sort (r.overrides.getValues keyName)) (sort (r.main.getValues keyName))) := by
          constructor
          · rintro ⟨ret, hret, hperm⟩
            obtain ⟨s, hrun, rfl⟩ := (hreturns ret).mp hret
            exact ⟨s, hrun, hperm.trans heffective.symm⟩
          · rintro ⟨s, hrun, hperm⟩
            exact ⟨s.2, (hreturns s.2).mpr ⟨s, hrun, rfl⟩, hperm.trans heffective⟩
      _ ↔ ∃ e, MakesUp (sort (r.overrides.getValues keyName)) (sort (r.main.getValues keyName)) e :=
          merge_right_iff hne (sort_names _) (sort_sorted _)
      _ ↔ ∃ e, MakesUp (r.overrides.getValues keyName) (r.main.getValues keyName) e := by
          apply exists_congr
          intro e
          constructor
          · exact fun h => h.of_perm (sort_perm _) (sort_perm _)
          · exact fun h => h.of_perm (sort_perm _).symm (sort_perm _).symm

/-- By chance the entry that gets through is the override that is left out. -/
example : [(ascii "b", ascii "1")].foldlM mergeEntry ([(ascii "a", ascii "0"), (ascii "b", ascii "1")], [])
    = .ok ([(ascii "b", ascii "1")], [(ascii "a", ascii "0"), (ascii "b", ascii "1")]) := rfl

def portsFile (ports : String) : IniFile := ⟨true, [(ascii "Server", [(ascii "Ports", ascii ports)])]⟩

/-- The ports of the file are overridden, and the override is lost as well. -/
theorem ports_lost : ¬ ∃ ret,
    getValues ⟨(portsFile "7777").repository, (portsFile "8888").repository⟩ (ascii "Server") = .ok ret
      ∧ ret.Perm (effective ((portsFile "8888").repository.getValues (ascii "Server"))
        ((portsFile "7777").repository.getValues (ascii "Server"))) := by
  rintro ⟨ret, hret, hperm⟩
  have hnil : getValues ⟨(portsFile "7777").repository, (portsFile "8888").repository⟩ (ascii "Server") = .ok [] :=
    rfl
  rw [← Except.ok.inj (hnil.symm.trans hret)] at hperm
  exact absurd hperm.length_eq (by decide)

end OverridesSettingsRepository

end Licode.Server
