import Mathlib.Data.List.TakeWhile
import Mathlib.Data.Nat.Digits.Lemmas
import Licode.Media.SdpParser
import Licode.Media.SdpPrinter

/-!
# Numbers and attributes in a text

A number that is written is read back, and a line that is written has no attributes but its own.
-/

namespace Licode.Media.Sdp

/-! ### Numbers -/

theorem decimal_eq (n : Nat) :
    decimal n = (if n < 10 then [] else decimal (n / 10)) ++ [48 + UInt8.ofNat (n % 10)] := by
  by_cases hzero : n = 0
  · subst hzero
    rfl
  rw [decimal, if_neg hzero, Nat.digits_def' (by omega) (by omega)]
  split_ifs with hsmall
  · rw [Nat.div_eq_of_lt hsmall]
    simp
  · rw [decimal, if_neg (by omega)]
    simp

theorem decimalValue_append (digits : AString) (c : UInt8) :
    decimalValue (digits ++ [c]) = 10 * decimalValue digits + (c.toNat - 48) := by
  simp [decimalValue, List.foldl_append]

theorem digit_toNat {digit : Nat} (h : digit < 10) : (48 + UInt8.ofNat digit).toNat = 48 + digit := by
  rw [UInt8.toNat_add, UInt8.toNat_ofNat', Nat.mod_eq_of_lt (by omega : digit < 2 ^ 8)]
  exact Nat.mod_eq_of_lt (by change 48 + digit < 256; omega)

theorem decimalValue_decimal (n : Nat) : decimalValue (decimal n) = n := by
  induction n using Nat.strong_induction_on with
  | _ n ih =>
      rw [decimal_eq, decimalValue_append, digit_toNat (Nat.mod_lt n (by omega))]
      split_ifs with hsmall
      · have hmod := Nat.mod_eq_of_lt hsmall
        simp [decimalValue]
        omega
      · rw [ih (n / 10) (by omega)]
        omega

theorem isDigit_digit {digit : Nat} (h : digit < 10) : isDigit (48 + UInt8.ofNat digit) = true := by
  have hvalue := digit_toNat h
  simp only [isDigit, Bool.and_eq_true, decide_eq_true_eq, UInt8.le_iff_toNat_le, hvalue]
  change 48 ≤ 48 + digit ∧ 48 + digit ≤ 57
  omega

theorem isDigit_of_mem_decimal {n : Nat} {c : UInt8} (hc : c ∈ decimal n) : isDigit c = true := by
  induction n using Nat.strong_induction_on with
  | _ n ih =>
      rw [decimal_eq, List.mem_append, List.mem_singleton] at hc
      obtain hc | rfl := hc
      · split_ifs at hc with hsmall
        · cases hc
        · exact ih (n / 10) (by omega) hc
      · exact isDigit_digit (Nat.mod_lt n (by omega))

theorem decimal_ne_nil (n : Nat) : decimal n ≠ [] := by
  rw [decimal_eq]
  exact List.append_ne_nil_of_right_ne_nil _ (List.cons_ne_nil _ _)

theorem isDigit_iff {c : UInt8} : isDigit c = true ↔ 48 ≤ c.toNat ∧ c.toNat ≤ 57 := by
  simp only [isDigit, Bool.and_eq_true, decide_eq_true_eq, UInt8.le_iff_toNat_le]
  exact Iff.rfl

theorem not_isSpace_of_isDigit {c : UInt8} (h : isDigit c = true) : isSpace c = false := by
  obtain ⟨hlow, -⟩ := isDigit_iff.mp h
  have hspace : c ≠ 32 := by
    rintro rfl
    exact absurd hlow (by decide)
  have hlarge : ¬ c ≤ 13 := by
    rw [UInt8.le_iff_toNat_le, show (13 : UInt8).toNat = 13 from rfl]
    omega
  simp [isSpace, hspace, hlarge]

theorem strtoul_digits {digits : AString} (hdigits : ∀ c ∈ digits, isDigit c = true) :
    strtoul digits = if decimalValue digits ≥ 2 ^ 32 then 0xFFFFFFFF else .ofNat (decimalValue digits) := by
  have htake : digits.takeWhile isDigit = digits := List.takeWhile_eq_self_iff.mpr hdigits
  cases digits with
  | nil => rfl
  | cons c rest =>
      have hc := hdigits c List.mem_cons_self
      have hdrop : (c :: rest).dropWhile isSpace = c :: rest := by
        rw [List.dropWhile_cons_of_neg (by simp [not_isSpace_of_isDigit hc])]
      have hminus : c ≠ 45 := by
        rintro rfl
        exact absurd hc (by decide)
      have hplus : c ≠ 43 := by
        rintro rfl
        exact absurd hc (by decide)
      rw [strtoul, hdrop]
      simp [hminus, hplus, htake]

theorem strtoul_decimal {n : Nat} (h : n < 2 ^ 32) : strtoul (decimal n) = .ofNat n := by
  rw [strtoul_digits fun c => isDigit_of_mem_decimal, decimalValue_decimal, if_neg (by omega)]

theorem strtoul_number (n : UInt32) : strtoul (decimal n.toNat) = n := by
  rw [strtoul_decimal n.toNat_lt, UInt32.ofNat_toNat]

theorem strtoul_minus {n : Nat} (h : n < 2 ^ 32) : strtoul (ascii "-" ++ decimal n) = 0 - .ofNat n := by
  have htake : (decimal n).takeWhile isDigit = decimal n :=
    List.takeWhile_eq_self_iff.mpr fun c => isDigit_of_mem_decimal
  have htext : (ascii "-" ++ decimal n).dropWhile isSpace = 45 :: decimal n := rfl
  simp only [strtoul, htext, htake, decimalValue_decimal, if_neg (by omega : ¬ n ≥ 2 ^ 32)]
  rfl

/-- An `int` is read back as the same bits. -/
theorem strtoul_decimalInt (n : Int32) : strtoul (decimalInt n) = n.toUInt32 := by
  have hupper := n.toInt_lt
  have hlower := n.le_toInt
  rw [decimalInt]
  split_ifs with hneg
  · have hn : n = - .ofNat n.toInt.natAbs := by
      rw [← Int32.ofInt_eq_ofNat, ← Int32.ofInt_neg, ← Int32.ofInt_toInt n]
      congr 1
      simp only [Int32.ofInt_toInt]
      omega
    rw [strtoul_minus (by omega), UInt32.zero_sub, ← Int32.toUInt32_ofNat', ← Int32.toUInt32_neg, ← hn]
  · have hn : n = .ofNat n.toInt.natAbs := by
      rw [← Int32.ofInt_eq_ofNat, ← Int32.ofInt_toInt n]
      congr 1
      simp only [Int32.ofInt_toInt]
      omega
    rw [strtoul_decimal (by omega), ← Int32.toUInt32_ofNat', ← hn]

/-- A character of a number. -/
theorem isDigit_or_minus_of_mem_decimalInt {n : Int32} {c : UInt8} (hc : c ∈ decimalInt n) :
    isDigit c = true ∨ c = 45 := by
  rw [decimalInt] at hc
  split_ifs at hc
  · obtain hminus | hdigit := List.mem_append.mp hc
    · exact Or.inr (List.mem_singleton.mp hminus)
    · exact Or.inl (isDigit_of_mem_decimal hdigit)
  · exact Or.inl (isDigit_of_mem_decimal hc)

/-- The text has none of some characters. -/
def free (chars : String) (text : AString) : Bool := text.all fun c => ! (ascii chars).contains c

theorem not_mem_of_free {chars : String} {text : AString} (h : free chars text = true) :
    ∀ c ∈ text, c ∉ ascii chars :=
  not_mem_of_all h

theorem free_of_forall {chars : String} {text : AString} (h : ∀ c ∈ text, c ∉ ascii chars) :
    free chars text = true := by
  rw [free, List.all_eq_true]
  intro c hc
  rw [Bool.not_eq_true', List.contains_eq_mem, decide_eq_false_iff_not]
  exact h c hc

/-- A part of a text that ends with a delimiter. -/
theorem part_of_free {delims : String} {part : AString} {delim : UInt8} (hpart : free delims part = true)
    (hdelim : (ascii delims).contains delim = true) :
    (∀ c ∈ part, c ∉ ascii delims) ∧ delim ∈ ascii delims :=
  ⟨not_mem_of_free hpart, List.contains_iff_mem.mp hdelim⟩

theorem free_subset {chars chars' : String} {text : AString} (h : free chars text = true)
    (hsub : ((ascii chars').all fun c => (ascii chars).contains c) = true) : free chars' text = true :=
  free_of_forall fun c hc hmem =>
    not_mem_of_free h c hc (List.contains_iff_mem.mp (List.all_eq_true.mp hsub c hmem))

theorem free_append {chars : String} {text text' : AString} :
    free chars (text ++ text') = (free chars text && free chars text') :=
  List.all_append

theorem free_text {chars : String} {text text' : AString} (h : free chars text = true)
    (h' : free chars text' = true) : free chars (text ++ text') = true := by
  rw [free_append, h, h']
  rfl

theorem free_flatMap {chars : String} {α : Type} {items : List α} {text : α → AString}
    (h : ∀ a ∈ items, free chars (text a) = true) : free chars (items.flatMap text) = true := by
  induction items with
  | nil => rfl
  | cons a items ih =>
      rw [List.flatMap_cons, free_append, h a List.mem_cons_self,
        ih fun b hb => h b (List.mem_cons_of_mem a hb)]
      rfl

theorem free_decimalInt {chars : String}
    (h : ((ascii chars).all fun c => ! isDigit c && c != 45) = true) (n : Int32) :
    free chars (decimalInt n) = true := by
  refine free_of_forall fun c hc hmem => ?_
  have hnone := List.all_eq_true.mp h c hmem
  obtain hdigit | rfl := isDigit_or_minus_of_mem_decimalInt hc
  · simp [hdigit] at hnone
  · simp at hnone

theorem free_decimal {chars : String} (h : ((ascii chars).all fun c => ! isDigit c) = true) (n : Nat) :
    free chars (decimal n) = true := by
  refine free_of_forall fun c hc hmem => ?_
  have hnone := List.all_eq_true.mp h c hmem
  simp [isDigit_of_mem_decimal hc] at hnone

/-! ### Attributes -/

/-- All attributes that `processSdp` looks for and that have an equals sign. -/
def keywords : List String :=
  ["a=rtcp-mux", "a=recvonly", "a=sendonly", "a=sendrecv", "a=fingerprint", "a=group:", "m=video",
    "m=audio", "a=candidate:", "a=crypto:", "a=ice-ufrag", "a=ice-pwd", "a=mid", "a=ssrc", "a=ssrc-group",
    "a=rtpmap:", "a=extmap:", "a=rtcp-fb:", "a=fmtp:", "b=AS:"]

/-- No attribute is found in the line but some. -/
def only (own : List String) (line : AString) : Bool :=
  keywords.all fun keyword => own.contains keyword || ! has keyword line

theorem has_start (keyword : String) (rest : AString) : has keyword (ascii keyword ++ rest) = true :=
  decide_eq_true (List.prefix_append _ _).isInfix

theorem has_eq_false {own : List String} {line : AString} (h : only own line = true) {keyword : String}
    (hkeyword : keyword ∈ keywords) (hother : keyword ∉ own) : has keyword line = false := by
  have hone := List.all_eq_true.mp h keyword hkeyword
  simpa [hother] using hone

/-- The second character is an equals sign, and no later one is. -/
def equalsSecond : AString → Bool
  | _ :: second :: rest => second == 61 && free "=" rest
  | _ => false

theorem exists_of_equalsSecond {text : AString} (h : equalsSecond text = true) :
    ∃ first rest, text = first :: 61 :: rest ∧ free "=" rest = true := by
  match text with
  | first :: second :: rest =>
      obtain ⟨hsecond, hfree⟩ := (Bool.and_eq_true _ _).mp h
      obtain rfl := eq_of_beq hsecond
      exact ⟨first, rest, rfl, hfree⟩

theorem equalsSecond_append {text rest : AString} (h : equalsSecond text = true) (hrest : free "=" rest = true) :
    equalsSecond (text ++ rest) = true := by
  obtain ⟨first, text, rfl, hfree⟩ := exists_of_equalsSecond h
  rw [List.cons_append, List.cons_append, equalsSecond, free_append, hfree, hrest]
  rfl

/-- A keyword with an equals sign in the second place is found only at the start of such a line. -/
theorem isPrefix_of_isInfix {keyword line : AString} (hkeyword : equalsSecond keyword = true)
    (hline : equalsSecond line = true) (h : keyword <:+: line) : keyword <+: line := by
  obtain ⟨first, rest, rfl, -⟩ := exists_of_equalsSecond hkeyword
  obtain ⟨first', rest', rfl, hfree⟩ := exists_of_equalsSecond hline
  have hnone : (61 : UInt8) ∉ rest' := fun hmem => not_mem_of_free hfree 61 hmem (by decide)
  obtain ⟨before, behind, heq⟩ := h
  rcases before with _ | ⟨a, _ | ⟨b, before⟩⟩
  · exact ⟨behind, heq⟩
  · exfalso
    simp only [List.cons_append, List.nil_append, List.cons.injEq] at heq
    exact hnone (heq.2.2 ▸ List.mem_cons_self)
  · exfalso
    simp only [List.cons_append, List.cons.injEq] at heq
    exact hnone (by rw [← heq.2.2]; simp)

/-- A line whose start is known has the attributes that match there. -/
theorem only_of_start {own : List String} {start rest : AString} (hstart : equalsSecond start = true)
    (hown : (keywords.all fun keyword => own.contains keyword
      || ! (ascii keyword).isPrefixOf start && ! start.isPrefixOf (ascii keyword)) = true)
    (hrest : free "=" rest = true) : only own (start ++ rest) = true := by
  have hkeywords : ∀ keyword ∈ keywords, equalsSecond (ascii keyword) = true := by decide
  refine List.all_eq_true.mpr fun keyword hkeyword => ?_
  have hone := List.all_eq_true.mp hown keyword hkeyword
  cases hmem : own.contains keyword with
  | true => rfl
  | false =>
      rw [hmem, Bool.false_or, Bool.and_eq_true, Bool.not_eq_true', Bool.not_eq_true'] at hone
      rw [Bool.false_or, Bool.not_eq_true', has, decide_eq_false_iff_not]
      intro hinfix
      have hprefix := isPrefix_of_isInfix (hkeywords keyword hkeyword) (equalsSecond_append hstart hrest) hinfix
      obtain hshort | hlong := List.prefix_or_prefix_of_prefix hprefix (List.prefix_append start rest)
      · rw [List.isPrefixOf_iff_prefix.mpr hshort] at hone
        cases hone.1
      · rw [List.isPrefixOf_iff_prefix.mpr hlong] at hone
        cases hone.2

end Licode.Media.Sdp
