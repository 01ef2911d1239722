import Licode.Checked
import Licode.Lib.Cuts
import Licode.Media.StringUtil

/-!
# The loops that split strings

The media server and the common library have a `splitOneOf` each, and the common library another loop without a
limit. Their loops come to their end on every string and return the parts between its delimiters.
-/

namespace Licode.Media

/-- `str.find_first_of(delims, pos)`, where `npos` is `none`. -/
def findFirstOf (str delims : AString) (pos : Nat) : Option Nat :=
  ((str.drop pos).findIdx? delims.contains).map (pos + ·)

/-- `str.substr(pos, count)`, which throws when `pos` is beyond the end. -/
def substr (str : AString) (pos count : Nat) : Checked AString :=
  if pos ≤ str.length then .ok ((str.drop pos).take count) else .error .outOfBounds

/-- `str.substr(pos)`. -/
def substrFrom (str : AString) (pos : Nat) : Checked AString := substr str pos str.length

/-- The `while` loop of `splitOneOf`. -/
def splitWhile (delims : AString) (maxSplits : Nat) :
    Nat → AString → Nat → List AString → Checked (AString × List AString)
  | 0, _, _, _ => .error .diverged
  | fuel + 1, remaining, splits, result =>
      if maxSplits = 0 ∨ splits < maxSplits then
        match findFirstOf remaining delims 0 with
        | none => .ok (remaining, result)
        | some pos => do
            let piece ← substr remaining 0 pos
            let rest ← substrFrom remaining (pos + 1)
            splitWhile delims maxSplits fuel rest (splits + 1) (result ++ [piece])
      else .ok (remaining, result)

/-- What both copies of `splitOneOf` do. -/
def splitUpTo (fuel : Nat) (str delims : AString) (maxSplits : Nat) : Checked (List AString) := do
  let (remaining, result) ← splitWhile delims maxSplits fuel str 0 []
  if remaining.length > 0 then .ok (result ++ [remaining]) else .ok result

/-- `erizo::stringutil::splitOneOf`. -/
def stringutil.splitOneOf (fuel : Nat) (str delims : AString) (maxSplits : Nat) : Checked (List AString) :=
  splitUpTo fuel str delims maxSplits

/-- `SplitOneOf` of the common library. -/
def Common.splitOneOf (fuel : Nat) (str delims : AString) (maxSplits : Nat) : Checked (List AString) :=
  splitUpTo fuel str delims maxSplits

/-- The `while` loop of `StringSplit`, which keeps its place in the string instead of what remains. -/
def stringSplitWhile (str delim : AString) : Nat → Nat → List AString → Checked (Nat × List AString)
  | 0, _, _ => .error .diverged
  | fuel + 1, prev, results =>
      match findFirstOf str delim prev with
      | none => .ok (prev, results)
      | some cutAt => do
          let piece ← substr str prev (cutAt - prev)
          stringSplitWhile str delim fuel (cutAt + 1) (results ++ [piece])

/-- `StringSplit` of the common library. -/
def Common.stringSplit (fuel : Nat) (str delim : AString) : Checked (List AString) := do
  let (prev, results) ← stringSplitWhile str delim fuel 0 []
  if prev < str.length then do
    let rest ← substrFrom str prev
    .ok (results ++ [rest])
  else .ok results

theorem findFirstOf_eq_none {delims rest : AString} (hrest : ∀ c ∈ rest, delims.contains c = false)
    (before : AString) : findFirstOf (before ++ rest) delims before.length = none := by
  unfold findFirstOf
  rw [List.drop_left, List.findIdx?_eq_none_iff.mpr hrest]
  rfl

theorem findFirstOf_eq_some {delims part : AString} (hpart : ∀ c ∈ part, delims.contains c = false)
    {delim : UInt8} (hdelim : delims.contains delim = true) (before rest : AString) :
    findFirstOf (before ++ (part ++ delim :: rest)) delims before.length = some (before.length + part.length) := by
  have hfind : (part ++ delim :: rest).findIdx? delims.contains = some part.length := by
    rw [List.findIdx?_append, List.findIdx?_eq_none_iff.mpr hpart, List.findIdx?_cons, if_pos hdelim]
    simp
  unfold findFirstOf
  rw [List.drop_left, hfind]
  rfl

theorem not_mem_of_contains {delims part : AString} (hpart : ∀ c ∈ part, delims.contains c = false) :
    ∀ c ∈ part, c ∉ delims := by
  intro c hc hmem
  exact Bool.false_ne_true ((hpart c hc).symm.trans (List.contains_iff_mem.mpr hmem))

theorem substr_append (before part rest : AString) :
    substr (before ++ (part ++ rest)) before.length part.length = .ok part := by
  unfold substr
  rw [if_pos (by simp), List.drop_left, List.take_left]

theorem substrFrom_append (before rest : AString) :
    substrFrom (before ++ rest) before.length = .ok rest := by
  unfold substrFrom substr
  rw [if_pos (by simp), List.drop_left, List.take_of_length_le (by simp)]

/-- The loop takes one field after the other off what remains. -/
theorem splitWhile_eq {delims remaining last : AString} {fields : List (AString × UInt8)}
    (h : CutInto delims.contains last remaining fields) {maxSplits splits fuel : Nat}
    (hmax : maxSplits = 0 ∨ splits + fields.length ≤ maxSplits)
    (hlast : maxSplits ≠ 0 ∧ maxSplits = splits + fields.length ∨ ∀ c ∈ last, delims.contains c = false)
    (hfuel : fields.length < fuel) (result : List AString) :
    splitWhile delims maxSplits fuel remaining splits result = .ok (last, result ++ fields.map Prod.fst) := by
  obtain ⟨fuel, rfl⟩ := Nat.exists_eq_add_one.mpr (Nat.zero_lt_of_lt hfuel)
  induction h generalizing splits fuel result with
  | done =>
      rw [splitWhile, List.map_nil, List.append_nil]
      split_ifs with hmore
      · have hclean := hlast.resolve_left (by rw [List.length_nil]; omega)
        have hnone := findFirstOf_eq_none hclean []
        rw [List.nil_append, List.length_nil] at hnone
        rw [hnone]
      · rfl
  | @cut part rest delim fields hpart hdelim hrest ih =>
      rw [List.length_cons] at hmax hlast hfuel
      obtain ⟨fuel, rfl⟩ := Nat.exists_eq_add_one.mpr (Nat.zero_lt_of_lt (Nat.lt_of_succ_lt_succ hfuel))
      have hfind := findFirstOf_eq_some hpart hdelim [] rest
      have hpiece := substr_append [] part (delim :: rest)
      have hremain := substrFrom_append (part ++ [delim]) rest
      simp only [List.nil_append, List.length_nil, Nat.zero_add, List.append_assoc, List.singleton_append,
        List.length_append, List.length_singleton] at hfind hpiece hremain
      rw [splitWhile, if_pos (by omega), hfind]
      simp only [hpiece, hremain, Checked.ok_bind]
      rw [ih (by omega) (hlast.imp_left (by omega)) (result ++ [part]) fuel (by omega), List.append_assoc]
      rfl

/-- The other loop goes on behind each delimiter, up to what is left without one. -/
theorem stringSplitWhile_eq {delim rest last : AString} {fields : List (AString × UInt8)}
    (h : CutInto delim.contains last rest fields) (hlast : ∀ c ∈ last, delim.contains c = false)
    (before : AString) {fuel : Nat} (hfuel : fields.length < fuel) (results : List AString) :
    ∃ front, before ++ rest = front ++ last ∧
      stringSplitWhile (before ++ rest) delim fuel before.length results
        = .ok (front.length, results ++ fields.map Prod.fst) := by
  obtain ⟨fuel, rfl⟩ := Nat.exists_eq_add_one.mpr (Nat.zero_lt_of_lt hfuel)
  induction h generalizing before fuel results with
  | done =>
      refine ⟨before, rfl, ?_⟩
      rw [stringSplitWhile, findFirstOf_eq_none hlast before, List.map_nil, List.append_nil]
  | @cut part rest c fields hpart hc hrest ih =>
      rw [List.length_cons] at hfuel
      obtain ⟨fuel, rfl⟩ := Nat.exists_eq_add_one.mpr (Nat.zero_lt_of_lt (Nat.lt_of_succ_lt_succ hfuel))
      obtain ⟨front, hfront, hnext⟩ := ih (before ++ part ++ [c]) (results ++ [part]) fuel (by omega)
      simp only [List.append_assoc, List.singleton_append, List.length_append, List.length_singleton,
        ← Nat.add_assoc] at hfront hnext
      refine ⟨front, hfront, ?_⟩
      rw [stringSplitWhile, findFirstOf_eq_some hpart hc before rest]
      simp only [Nat.add_sub_cancel_left, substr_append, Checked.ok_bind]
      rw [hnext]
      rfl

/-- Where a string is cut: at every delimiter, or at the first ones when there is a limit. -/
def cutsOf (str delims : AString) (maxSplits : Nat) : List Nat :=
  if maxSplits = 0 then str.findIdxs delims.contains else (str.findIdxs delims.contains).take maxSplits

/-- The pieces are what is between the cuts, where an empty last one is left out. -/
structure FaithfulSplit (str delims : AString) (maxSplits : Nat) (pieces : List AString) : Prop where
  parts : ∃ first last, between str 0 (cutsOf str delims maxSplits) = first ++ [last] ∧
    pieces = first ++ if last = [] then [] else [last]
  restored : putBack pieces ((cutsOf str delims maxSplits).filterMap (str[·]?)) = str
  clean : ∀ i piece, pieces[i]? = some piece → (∃ c ∈ piece, c ∈ delims) →
    maxSplits ≠ 0 ∧ (cutsOf str delims maxSplits).length = maxSplits ∧ i = maxSplits ∧ i + 1 = pieces.length

/-- A string is its fields up to the last cut that the limit allows, and what is behind it. -/
structure FieldsOf (str delims : AString) (maxSplits : Nat) (fields : List (AString × UInt8)) (last : AString) :
    Prop where
  cut : CutInto delims.contains last str fields
  cuts : cutsOf str delims maxSplits = (str.findIdxs delims.contains).take fields.length
  limit : maxSplits = 0 ∨ fields.length ≤ maxSplits
  rest : maxSplits ≠ 0 ∧ maxSplits = fields.length ∨ ∀ c ∈ last, delims.contains c = false

theorem exists_fieldsOf (str delims : AString) (maxSplits : Nat) :
    ∃ fields last, FieldsOf str delims maxSplits fields last := by
  by_cases hlimit : maxSplits ≠ 0 ∧ maxSplits ≤ str.countP delims.contains
  · obtain ⟨hne, hle⟩ := hlimit
    obtain ⟨fields, last, hcut, hlength⟩ := exists_cutInto hle
    refine ⟨fields, last, hcut, ?_, Or.inr hlength.le, Or.inl ⟨hne, hlength.symm⟩⟩
    rw [cutsOf, if_neg hne, hlength]
  · obtain ⟨fields, last, hcut, hlength⟩ := exists_cutInto (le_refl (str.countP delims.contains))
    have hall : (str.findIdxs delims.contains).take fields.length = str.findIdxs delims.contains := by
      rw [List.take_of_length_le]
      rw [List.length_findIdxs, hlength]
    refine ⟨fields, last, hcut, ?_, by omega, Or.inr (hcut.last_clean hlength)⟩
    rw [hall, cutsOf]
    split
    · rfl
    · rw [List.take_of_length_le]
      rw [List.length_findIdxs]
      omega

namespace FieldsOf

variable {str delims last : AString} {maxSplits : Nat} {fields : List (AString × UInt8)}

theorem length_cuts (h : FieldsOf str delims maxSplits fields last) :
    (cutsOf str delims maxSplits).length = fields.length := by
  have hcount := h.cut.countP
  rw [h.cuts, List.length_take, List.length_findIdxs]
  omega

theorem length_lt (h : FieldsOf str delims maxSplits fields last) (more : Nat) :
    fields.length < str.length + 1 + more := by
  have hcount := h.cut.countP
  have hle : str.countP delims.contains ≤ str.length := List.countP_le_length
  omega

theorem splitOneOf_eq (h : FieldsOf str delims maxSplits fields last) :
    splitOneOf str delims maxSplits = fields.map Prod.fst ++ if last = [] then [] else [last] := by
  rw [h.cut.whole]
  apply splitOneOf_fields_rest h.limit
  · intro field hfield
    obtain ⟨hpart, hdelim⟩ := h.cut.fields_spec field hfield
    exact ⟨not_mem_of_contains hpart, List.contains_iff_mem.mp hdelim⟩
  · exact h.rest.imp_right not_mem_of_contains

theorem splitUpTo_eq (h : FieldsOf str delims maxSplits fields last) (more : Nat) :
    splitUpTo (str.length + 1 + more) str delims maxSplits = .ok (splitOneOf str delims maxSplits) := by
  have hloop : splitWhile delims maxSplits (str.length + 1 + more) str 0 []
      = .ok (last, [] ++ fields.map Prod.fst) := by
    apply splitWhile_eq h.cut _ _ (h.length_lt more)
    · rw [Nat.zero_add]
      exact h.limit
    · rw [Nat.zero_add]
      exact h.rest
  unfold splitUpTo
  rw [hloop, Checked.ok_bind, h.splitOneOf_eq]
  by_cases hlast : last = []
  · simp [hlast]
  · simp [hlast, List.length_pos_iff]

theorem stringSplit_eq (h : FieldsOf str delims 0 fields last) (more : Nat) :
    Common.stringSplit (str.length + 1 + more) str delims = .ok (splitOneOf str delims 0) := by
  have hclean : ∀ c ∈ last, delims.contains c = false := h.rest.resolve_left fun hlimit => hlimit.1 rfl
  obtain ⟨front, hfront, hloop⟩ := stringSplitWhile_eq h.cut hclean [] (h.length_lt more) []
  rw [List.nil_append] at hfront hloop
  unfold Common.stringSplit
  rw [List.length_nil] at hloop
  rw [hloop, Checked.ok_bind, h.splitOneOf_eq]
  dsimp only
  by_cases hlast : last = []
  · rw [if_neg (by simp [hfront, hlast])]
    simp [hlast]
  · rw [if_pos (by simp [hfront, List.length_pos_iff, hlast]), hfront, substrFrom_append]
    simp [hlast]

theorem faithful (h : FieldsOf str delims maxSplits fields last) :
    FaithfulSplit str delims maxSplits (splitOneOf str delims maxSplits) where
  parts := by
    refine ⟨fields.map Prod.fst, last, ?_, h.splitOneOf_eq⟩
    rw [h.cuts]
    exact h.cut.between_eq []
  restored := by
    have hremoved : ((str.findIdxs delims.contains).take fields.length).filterMap (str[·]?)
        = fields.map Prod.snd := h.cut.removed_eq []
    rw [h.cuts, hremoved, h.splitOneOf_eq]
    apply h.cut.putBack_eq
    split
    · next hlast => exact hlast.symm
    · exact List.flatten_singleton
  clean := by
    intro i piece hpiece hdelim
    obtain ⟨c, hc, hmem⟩ := hdelim
    rw [h.splitOneOf_eq] at hpiece ⊢
    by_cases hi : i < fields.length
    · rw [List.getElem?_append_left (by rwa [List.length_map]), List.getElem?_map] at hpiece
      obtain ⟨field, hfield, rfl⟩ := Option.map_eq_some_iff.mp hpiece
      have hpart := (h.cut.fields_spec field (List.mem_of_getElem? hfield)).1
      exact absurd hmem (not_mem_of_contains hpart c hc)
    · rw [List.getElem?_append_right (by simpa using hi), List.length_map] at hpiece
      have hlast : last ≠ [] := by
        rintro rfl
        simp at hpiece
      rw [if_neg hlast, List.getElem?_singleton] at hpiece
      split_ifs at hpiece with hfirst
      obtain rfl := Option.some_inj.mp hpiece
      have hlimit := h.rest.resolve_right fun hclean => not_mem_of_contains hclean c hc hmem
      rw [if_neg hlast, List.length_append, List.length_map, List.length_singleton, h.length_cuts]
      omega

end FieldsOf

/-- **Both copies of `splitOneOf` split faithfully.** On every string they come to their end with the same pieces,
which are what is between the cuts, and without a limit the pieces of `StringSplit`. -/
theorem splitOneOf_faithful (str delims : AString) (maxSplits more : Nat) :
    stringutil.splitOneOf (str.length + 1 + more) str delims maxSplits
        = .ok (splitOneOf str delims maxSplits)
      ∧ Common.splitOneOf (str.length + 1 + more) str delims maxSplits
        = .ok (splitOneOf str delims maxSplits)
      ∧ Common.stringSplit (str.length + 1 + more) str delims = .ok (splitOneOf str delims 0)
      ∧ FaithfulSplit str delims maxSplits (splitOneOf str delims maxSplits) := by
  obtain ⟨fields, last, h⟩ := exists_fieldsOf str delims maxSplits
  obtain ⟨allFields, allLast, hall⟩ := exists_fieldsOf str delims 0
  exact ⟨h.splitUpTo_eq more, h.splitUpTo_eq more, hall.stringSplit_eq more, h.faithful⟩

-- The rest keeps its delimiters once the limit is reached, and an empty rest is no piece.
example : stringutil.splitOneOf 6 [97, 32, 98, 32, 99] [32] 1 = .ok [[97], [98, 32, 99]] := rfl

example : Common.stringSplit 4 [97, 32, 32] [32] = .ok [[97], []] := rfl

end Licode.Media
