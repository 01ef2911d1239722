import Mathlib.Data.List.Basic
import Licode.ByteBufferCodec

/-!
# Splitting strings
-/

namespace Licode.Media

/-- The loop of `splitOneOf`, with the part of `remaining` that has been searched. -/
def splitLoop (delims : AString) (maxSplits : Nat) : Nat → AString → AString → List AString
  | _, part, [] => if part = [] then [] else [part]
  | splits, part, c :: remaining =>
      if (maxSplits = 0 ∨ splits < maxSplits) ∧ c ∈ delims then
        part :: splitLoop delims maxSplits (splits + 1) [] remaining
      else splitLoop delims maxSplits splits (part ++ [c]) remaining

/-- `stringutil::splitOneOf`: the parts between delimiters, where an empty rest is dropped. A limit
of 0 is no limit. -/
def splitOneOf (str delims : AString) (maxSplits : Nat) : List AString :=
  splitLoop delims maxSplits 0 [] str

/-- The lines that `std::getline` reads. -/
def getlines (text : AString) : List AString := splitOneOf text [10] 0

/-- `isspace` in the C locale. -/
def isSpace (c : UInt8) : Bool := c = 32 || (9 ≤ c && c ≤ 13)

def isDigit (c : UInt8) : Bool := 48 ≤ c && c ≤ 57

def decimalValue (digits : AString) : Nat := digits.foldl (fun value c => 10 * value + (c.toNat - 48)) 0

/-- `strtoul(text.c_str(), NULL, 10)`, where an `unsigned long` has 32 bits. -/
def strtoul (text : AString) : UInt32 :=
  let text := text.dropWhile isSpace
  let (negative, text) := match text with
    | 45 :: rest => (true, rest)
    | 43 :: rest => (false, rest)
    | _ => (false, text)
  let value := decimalValue (text.takeWhile isDigit)
  if value ≥ 2 ^ 32 then 0xFFFFFFFF else if negative then 0 - .ofNat value else .ofNat value

/-- Whether there is a delimiter can be found out from the text alone. -/
theorem not_mem_of_all {text delims : AString}
    (h : (text.all fun c => ! delims.contains c) = true) : ∀ c ∈ text, c ∉ delims := by
  intro c hc hmem
  have hnone := List.all_eq_true.mp h c hc
  rw [List.contains_iff_mem.mpr hmem] at hnone
  cases hnone

/-- A part is read up to the next delimiter. -/
theorem splitLoop_append {delims : AString} {maxSplits splits : Nat}
    (hmore : maxSplits = 0 ∨ splits < maxSplits) (part : AString) {next : AString}
    (hnext : ∀ c ∈ next, c ∉ delims) {delim : UInt8} (hdelim : delim ∈ delims) (rest : AString) :
    splitLoop delims maxSplits splits part (next ++ delim :: rest)
      = (part ++ next) :: splitLoop delims maxSplits (splits + 1) [] rest := by
  induction next generalizing part with
  | nil => simp [splitLoop, hmore, hdelim]
  | cons c next ih =>
      have hc : c ∉ delims := hnext c List.mem_cons_self
      rw [List.cons_append, splitLoop, if_neg fun h => hc h.2,
        ih (part ++ [c]) fun d hd => hnext d (List.mem_cons_of_mem c hd), List.append_assoc]
      rfl

/-- What is left without a delimiter, or beyond the last split allowed, is the last part. -/
theorem splitLoop_rest {delims : AString} {maxSplits splits : Nat} (part : AString) {rest : AString}
    (hrest : ¬ (maxSplits = 0 ∨ splits < maxSplits) ∨ ∀ c ∈ rest, c ∉ delims) :
    splitLoop delims maxSplits splits part rest
      = if part ++ rest = [] then [] else [part ++ rest] := by
  induction rest generalizing part with
  | nil => simp [splitLoop]
  | cons c rest ih =>
      have hnot : ¬ ((maxSplits = 0 ∨ splits < maxSplits) ∧ c ∈ delims) := by
        rintro ⟨hmore, hc⟩
        obtain hend | hnone := hrest
        · exact hend hmore
        · exact hnone c List.mem_cons_self hc
      rw [splitLoop, if_neg hnot, ih, List.append_assoc]
      · rfl
      · exact hrest.imp id fun hnone d hd => hnone d (List.mem_cons_of_mem c hd)

/-- A text that is not empty has a part. -/
theorem splitLoop_ne_nil {delims : AString} {maxSplits : Nat} (splits : Nat) {part text : AString}
    (h : part ≠ [] ∨ text ≠ []) : splitLoop delims maxSplits splits part text ≠ [] := by
  induction text generalizing part with
  | nil =>
      have hpart : part ≠ [] := h.resolve_right fun hnil => hnil rfl
      simp [splitLoop, hpart]
  | cons c text ih =>
      rw [splitLoop]
      split_ifs
      · exact List.cons_ne_nil _ _
      · exact ih (Or.inl (List.append_ne_nil_of_right_ne_nil _ (List.cons_ne_nil _ _)))

/-- What is left after the last split allowed is a part only if it is not empty. -/
theorem splitLoop_last_ne_nil {delims : AString} {maxSplits splits : Nat} (hlimit : 0 < maxSplits)
    (hsplits : splits ≤ maxSplits) {part text last : AString}
    (hlast : (splitLoop delims maxSplits splits part text)[maxSplits - splits]? = some last) :
    last ≠ [] := by
  induction text generalizing splits part with
  | nil =>
      by_cases hpart : part = []
      · simp [splitLoop, hpart] at hlast
      · obtain ⟨-, rfl⟩ : maxSplits - splits = 0 ∧ part = last := by
          simpa [splitLoop, hpart, List.getElem?_singleton] using hlast
        exact hpart
  | cons c text ih =>
      rw [splitLoop] at hlast
      split_ifs at hlast with hsplit
      · have hmore : splits < maxSplits := hsplit.1.resolve_left hlimit.ne'
        rw [show maxSplits - splits = maxSplits - (splits + 1) + 1 by omega] at hlast
        exact ih (by omega) hlast
      · exact ih hsplits hlast

theorem splitOneOf_last_ne_nil {text delims last : AString} {maxSplits : Nat} (hlimit : 0 < maxSplits)
    (hlast : (splitOneOf text delims maxSplits)[maxSplits]? = some last) : last ≠ [] :=
  splitLoop_last_ne_nil hlimit (Nat.zero_le maxSplits) hlast

/-- No more parts than the limit allows. -/
theorem splitLoop_length_le {delims : AString} {maxSplits splits : Nat} (hlimit : 0 < maxSplits)
    (hsplits : splits ≤ maxSplits) (part text : AString) :
    (splitLoop delims maxSplits splits part text).length ≤ maxSplits - splits + 1 := by
  induction text generalizing splits part with
  | nil => by_cases hpart : part = [] <;> simp [splitLoop, hpart]
  | cons c text ih =>
      rw [splitLoop]
      split_ifs with hsplit
      · have hmore : splits < maxSplits := hsplit.1.resolve_left hlimit.ne'
        have hrest := @ih (splits + 1) (by omega) []
        rw [List.length_cons]
        omega
      · exact ih hsplits _

theorem splitOneOf_length_le {text delims : AString} {maxSplits : Nat} (hlimit : 0 < maxSplits) :
    (splitOneOf text delims maxSplits).length ≤ maxSplits + 1 :=
  splitLoop_length_le hlimit (Nat.zero_le maxSplits) [] text

/-- A text of parts that are each followed by a delimiter is split into them and what is left. Only what is left
may have delimiters itself, when no split is left for them. -/
theorem splitLoop_fields {delims : AString} {maxSplits splits : Nat} {fields : List (AString × UInt8)}
    {last : AString} (hmax : maxSplits = 0 ∨ splits + fields.length ≤ maxSplits)
    (hfields : ∀ field ∈ fields, (∀ c ∈ field.1, c ∉ delims) ∧ field.2 ∈ delims)
    (hlast : maxSplits ≠ 0 ∧ maxSplits = splits + fields.length ∨ ∀ c ∈ last, c ∉ delims) :
    splitLoop delims maxSplits splits [] (fields.flatMap (fun field => field.1 ++ [field.2]) ++ last)
      = fields.map Prod.fst ++ if last = [] then [] else [last] := by
  induction fields generalizing splits with
  | nil =>
      have hrest : ¬ (maxSplits = 0 ∨ splits < maxSplits) ∨ ∀ c ∈ last, c ∉ delims := by
        refine hlast.imp_left fun h => ?_
        rw [List.length_nil] at h
        omega
      rw [List.flatMap_nil, List.nil_append, splitLoop_rest [] hrest, List.nil_append]
      rfl
  | cons field fields ih =>
      obtain ⟨hpart, hdelim⟩ := hfields field List.mem_cons_self
      rw [List.length_cons] at hmax hlast
      have hmore : maxSplits = 0 ∨ splits < maxSplits := by omega
      have htext : (field :: fields).flatMap (fun field => field.1 ++ [field.2]) ++ last
          = field.1 ++ field.2 :: (fields.flatMap (fun field => field.1 ++ [field.2]) ++ last) := by
        simp
      rw [htext, splitLoop_append hmore [] hpart hdelim, ih (by omega)
        (fun f hf => hfields f (List.mem_cons_of_mem field hf)) (hlast.imp_left (by omega))]
      rfl

theorem splitOneOf_fields_rest {delims : AString} {maxSplits : Nat} {fields : List (AString × UInt8)}
    {last : AString} (hmax : maxSplits = 0 ∨ fields.length ≤ maxSplits)
    (hfields : ∀ field ∈ fields, (∀ c ∈ field.1, c ∉ delims) ∧ field.2 ∈ delims)
    (hlast : maxSplits ≠ 0 ∧ maxSplits = fields.length ∨ ∀ c ∈ last, c ∉ delims) :
    splitOneOf (fields.flatMap (fun field => field.1 ++ [field.2]) ++ last) delims maxSplits
      = fields.map Prod.fst ++ if last = [] then [] else [last] :=
  splitLoop_fields (by omega) hfields (hlast.imp_left (by omega))

theorem splitOneOf_fields {delims : AString} {maxSplits : Nat} {fields : List (AString × UInt8)}
    {last : AString} (hmax : maxSplits = 0 ∨ fields.length ≤ maxSplits)
    (hfields : ∀ field ∈ fields, (∀ c ∈ field.1, c ∉ delims) ∧ field.2 ∈ delims)
    (hlast : maxSplits ≠ 0 ∧ maxSplits = fields.length ∨ ∀ c ∈ last, c ∉ delims) (hne : last ≠ []) :
    splitOneOf (fields.flatMap (fun field => field.1 ++ [field.2]) ++ last) delims maxSplits
      = fields.map Prod.fst ++ [last] := by
  rw [splitOneOf_fields_rest hmax hfields hlast, if_neg hne]

/-- Lines that are ended with a newline are read one by one. -/
theorem getlines_lines {lines : List AString} (h : ∀ line ∈ lines, (10 : UInt8) ∉ line) :
    getlines (lines.flatMap (· ++ [10])) = lines := by
  have hloop : ∀ splits, splitLoop [10] 0 splits [] (lines.flatMap (· ++ [10])) = lines := by
    induction lines with
    | nil => exact fun _ => rfl
    | cons line lines ih =>
        intro splits
        have hline : ∀ c ∈ line, c ∉ ([10] : AString) := by
          intro c hc hten
          rw [List.mem_singleton.mp hten] at hc
          exact h line List.mem_cons_self hc
        rw [List.flatMap_cons, List.append_assoc, List.singleton_append,
          splitLoop_append (Or.inl rfl) [] hline List.mem_cons_self,
          ih fun l hl => h l (List.mem_cons_of_mem line hl)]
        rfl
  exact hloop 0

end Licode.Media
