import Mathlib.Data.List.Induction
import Licode.Lib.Scaled
import Licode.Media.RtcpForwarder

/-!
# The bit rate of a REMB message

`setREMBBitRate` writes a bit rate as a mantissa of 18 bits and an exponent of 6, and `getBrMantis` and
`getBrExp` read them back. `RtcpForwarder` writes the rate of a message anew where it is above its cap.
-/

namespace Licode.Media

open Overlay

namespace Rtcp

/-- The byte of the word that is not in the field of the bit rate. -/
def getREMBNumSSRC (buf : List UInt8) : Checked UInt8 := do
  let numssrc ← load buf 16 1
  return .ofNat (number numssrc)

/-! ### The loop -/

variable {bitRate : UInt64}

/-- The loop stops at the scale of the bit rate, and until then the threshold has not wrapped around. -/
theorem rembExponent_eq {max : UInt64} {exp exp' fuel : Nat} (h : Scaled 0x3FFFF bitRate.toNat exp')
    (hsmall : exp' ≤ 46) (hmax : max.toNat = 0x3FFFF * 2 ^ exp) (hexp : exp ≤ exp') (hfuel : exp' ≤ exp + fuel) :
    rembExponent bitRate fuel max exp = exp' := by
  induction fuel generalizing max exp with
  | zero =>
      rw [rembExponent]
      omega
  | succ fuel ih =>
      rw [rembExponent]
      by_cases hbelow : bitRate.toNat < 0x3FFFF * 2 ^ exp
      · have hless : ¬ bitRate ≥ max := by
          rw [ge_iff_le, UInt64.le_iff_toNat_le, hmax]
          omega
        rw [if_neg hless]
        exact h.eq_of_not_least hexp hbelow
      · have hge : bitRate ≥ max := by
          rw [ge_iff_le, UInt64.le_iff_toNat_le, hmax]
          omega
        have hnot : exp ≠ exp' := by
          rintro rfl
          exact hbelow h.below
        have hroom : 0x3FFFF * 2 ^ (exp + 1) < 2 ^ 64 := by
          calc 0x3FFFF * 2 ^ (exp + 1) ≤ 0x3FFFF * 2 ^ 46 :=
                Nat.mul_le_mul_left _ (Nat.pow_le_pow_right (by omega) (by omega))
            _ < 2 ^ 64 := by decide
        have hdouble : (max <<< 1).toNat = 0x3FFFF * 2 ^ (exp + 1) := by
          calc (max <<< 1).toNat = 0x3FFFF * 2 ^ (exp + 1) % 2 ^ 64 := by
                rw [UInt64.toNat_shiftLeft, hmax, Nat.shiftLeft_eq, Nat.mul_assoc, pow_succ]
                rfl
            _ = 0x3FFFF * 2 ^ (exp + 1) := Nat.mod_eq_of_lt hroom
        rw [if_pos hge]
        apply ih hdouble
        · omega
        · omega

/-- The exponent that the loop finds. -/
def rembExp (bitRate : UInt64) : Nat := rembExponent bitRate 64 0x3FFFF 0

theorem scaled_rembExp (hrate : bitRate.toNat < 2 ^ 63) :
    Scaled 0x3FFFF bitRate.toNat (rembExp bitRate) ∧ rembExp bitRate ≤ 46 := by
  obtain ⟨exp, hexp⟩ := Scaled.exists_scaled (by decide : 0 < 0x3FFFF) bitRate.toNat
  have hsmall : exp ≤ 46 := by
    apply hexp.exp_le
    calc bitRate.toNat < 2 ^ 63 := hrate
      _ ≤ 0x3FFFF * 2 ^ 46 := by decide
  have hloop : rembExp bitRate = exp := rembExponent_eq hexp hsmall rfl (by omega) (by omega)
  rw [hloop]
  exact ⟨hexp, hsmall⟩

theorem toNat_mantissa (bitRate : UInt64) {exp : Nat} (hsmall : exp ≤ 46) :
    (bitRate >>> .ofNat exp).toNat = bitRate.toNat / 2 ^ exp := by
  have hexp : (UInt64.ofNat exp).toNat = exp := UInt64.toNat_ofNat_of_lt' (by change exp < 2 ^ 64; omega)
  rw [UInt64.toNat_shiftRight, hexp, Nat.mod_eq_of_lt (by omega), Nat.shiftRight_eq_div_pow]

/-! ### The field -/

/-- The masks lose nothing: the field is the exponent before the mantissa. -/
theorem number_rembField (hrate : bitRate.toNat < 2 ^ 63) :
    number (rembField bitRate) = rembExp bitRate * 2 ^ 18 + bitRate.toNat / 2 ^ rembExp bitRate := by
  obtain ⟨hscaled, hsmall⟩ := scaled_rembExp hrate
  have hmantissa := hscaled.mantissa_lt
  have hmask : (bitRate >>> .ofNat (rembExp bitRate) &&& 0x3FFFF).toNat = bitRate.toNat / 2 ^ rembExp bitRate := by
    rw [UInt64.toNat_and, toNat_mantissa bitRate hsmall]
    exact (Nat.and_two_pow_sub_one_eq_mod _ 18).trans (Nat.mod_eq_of_lt (by omega))
  have hfield : rembField bitRate
      = image 3 ((bitRate >>> .ofNat (rembExp bitRate) &&& 0x3FFFF).toNat + rembExp bitRate % 64 * 2 ^ 18) := rfl
  rw [hfield, hmask, Nat.mod_eq_of_lt (by omega : rembExp bitRate < 64), number_image]
  · exact Nat.add_comm _ _
  · norm_num
    omega

/-- The two parts of the field of a bit rate. -/
def fieldMantissa (field : List UInt8) : Nat := number field % 2 ^ 18

def fieldExp (field : List UInt8) : Nat := number field / 2 ^ 18

theorem fields_rembField (hrate : bitRate.toNat < 2 ^ 63) :
    fieldMantissa (rembField bitRate) = bitRate.toNat / 2 ^ rembExp bitRate
      ∧ fieldExp (rembField bitRate) = rembExp bitRate := by
  have hmantissa := (scaled_rembExp hrate).1.mantissa_lt
  rw [fieldMantissa, fieldExp, number_rembField hrate]
  generalize bitRate.toNat / 2 ^ rembExp bitRate = mantissa at hmantissa
  constructor
  · omega
  · omega

section Getters

variable {buf field : List UInt8} (hfield : load buf 17 3 = .ok field) (hlength : field.length = 3)

include hfield hlength

theorem toNat_brLength : ∃ value, brLength buf = .ok value ∧ value.toNat = number field * 256 := by
  have hlt := number_lt field
  rw [hlength] at hlt
  refine ⟨.ofNat (number field * 256), ?_, UInt32.toNat_ofNat_of_lt' ?_⟩
  · rw [brLength, hfield]
    rfl
  · change number field * 256 < 2 ^ 32
    omega

theorem getBrMantis_eq : ∃ mantissa, getBrMantis buf = .ok mantissa ∧ mantissa.toNat = fieldMantissa field := by
  obtain ⟨value, hvalue, htoNat⟩ := toNat_brLength hfield hlength
  refine ⟨value >>> 8 &&& 0x3FFFF, ?_, ?_⟩
  · rw [getBrMantis, hvalue]
    rfl
  · calc (value >>> 8 &&& 0x3FFFF).toNat = value.toNat / 2 ^ 8 % 2 ^ 18 := by
          rw [UInt32.toNat_and, UInt32.toNat_shiftRight, Nat.shiftRight_eq_div_pow]
          exact Nat.and_two_pow_sub_one_eq_mod _ 18
      _ = fieldMantissa field := by
          rw [htoNat, fieldMantissa]
          omega

theorem getBrExp_eq : ∃ exp, getBrExp buf = .ok exp ∧ exp.toNat = fieldExp field := by
  obtain ⟨value, hvalue, htoNat⟩ := toNat_brLength hfield hlength
  refine ⟨value >>> 26, ?_, ?_⟩
  · rw [getBrExp, hvalue]
    rfl
  · calc (value >>> 26).toNat = value.toNat / 2 ^ 26 := by
          rw [UInt32.toNat_shiftRight, Nat.shiftRight_eq_div_pow]
          rfl
      _ = fieldExp field := by
          rw [htoNat, fieldExp]
          omega

end Getters

/-- **A bit rate is read back up to what a mantissa of 18 bits can hold.** -/
theorem setREMBBitRate_reads_back {buf : List UInt8} (hbuf : 20 ≤ buf.length) (hrate : bitRate.toNat < 2 ^ 63) :
    bitRate.toNat < 0x3FFFF * 2 ^ rembExp bitRate
      ∧ (bitRate >>> .ofNat (rembExp bitRate)).toNat < 2 ^ 18 ∧ rembExp bitRate < 64
      ∧ ∃ buf' mantissa exp, setREMBBitRate buf bitRate = .ok buf'
        ∧ getBrMantis buf' = .ok mantissa ∧ getBrExp buf' = .ok exp
        ∧ mantissa.toNat * 2 ^ exp.toNat ≤ bitRate.toNat
        ∧ bitRate.toNat - mantissa.toNat * 2 ^ exp.toNat < 2 ^ exp.toNat
        ∧ getREMBNumSSRC buf' = getREMBNumSSRC buf ∧ SameOutside buf buf' 17 3 := by
  obtain ⟨hscaled, hsmall⟩ := scaled_rembExp hrate
  obtain ⟨hmantissa, hexp⟩ := fields_rembField hrate
  have hlength : (rembField bitRate).length = 3 := length_rembField bitRate
  have hin : 17 + (rembField bitRate).length ≤ buf.length := by omega
  have hstore : setREMBBitRate buf bitRate = .ok (write buf 17 (rembField bitRate)) := if_pos hin
  have hfield : load (write buf 17 (rembField bitRate)) 17 3 = .ok (rembField bitRate) := by
    have hread := read_write hin
    rw [hlength] at hread
    rw [load, if_pos (by rw [length_write]; omega), hread]
  obtain ⟨mantissa, hgetMantissa, htoNat⟩ := getBrMantis_eq hfield hlength
  obtain ⟨exp, hgetExp, htoNat'⟩ := getBrExp_eq hfield hlength
  have hcount : getREMBNumSSRC (write buf 17 (rembField bitRate)) = getREMBNumSSRC buf := by
    rw [getREMBNumSSRC, getREMBNumSSRC, load, load, length_write, read_write_before _ _ (by omega)]
  have hsame := sameOutside_write buf 17 (rembField bitRate)
  rw [hlength] at hsame
  refine ⟨hscaled.below, ?_, by omega, _, mantissa, exp, hstore, hgetMantissa, hgetExp, ?_, ?_, hcount, hsame⟩
  · have hlt := hscaled.mantissa_lt
    rw [toNat_mantissa bitRate hsmall]
    omega
  · rw [htoNat, htoNat', hmantissa, hexp]
    exact Nat.div_mul_le_self _ _
  · rw [htoNat, htoNat', hmantissa, hexp]
    exact Scaled.cut_lt _ _

theorem setREMBBitRate_reads_back_default : ∃ buf', setREMBBitRate (List.replicate 24 1) 300000 = .ok buf'
    ∧ getREMBNumSSRC buf' = .ok 1 := by
  obtain ⟨-, -, -, buf', -, -, hset, -, -, -, -, hcount, -⟩ :=
    @setREMBBitRate_reads_back 300000 (List.replicate 24 1) (by decide) (by decide)
  exact ⟨buf', hset, hcount⟩

/-- Two bit rates have one field only if they agree up to what is cut off. -/
theorem sub_lt_of_rembField_eq {bitRate' : UInt64} (hrate : bitRate.toNat < 2 ^ 63) (hrate' : bitRate'.toNat < 2 ^ 63)
    (h : rembField bitRate = rembField bitRate') : bitRate.toNat - bitRate'.toNat < 2 ^ rembExp bitRate' := by
  obtain ⟨hmantissa, hexp⟩ := fields_rembField hrate
  obtain ⟨hmantissa', hexp'⟩ := fields_rembField hrate'
  have hscale : rembExp bitRate = rembExp bitRate' := by rw [← hexp, h, hexp']
  have hcut := Scaled.cut_lt bitRate.toNat (rembExp bitRate')
  have hle := Nat.div_mul_le_self bitRate'.toNat (2 ^ rembExp bitRate')
  rw [← hmantissa', ← h, hmantissa, hscale] at hle
  omega

theorem eq_zero_of_rembField (hrate : bitRate.toNat < 2 ^ 63) (h : rembField bitRate = rembField 0) :
    bitRate.toNat = 0 := by
  have hless := sub_lt_of_rembField_eq hrate (show (0 : UInt64).toNat < 2 ^ 63 by decide) h
  have hexp : rembExp 0 = 0 := rfl
  rw [hexp] at hless
  have hzero : (0 : UInt64).toNat = 0 := rfl
  omega

end Rtcp

/-! ### The cap -/

open Rtcp

namespace RtcpForwarder

/-- The constructor. It gives its bound to that of `RtcpProcessor`, which does not keep it: the member has the
content of its memory. -/
def create (videoSourceSSRC videoSinkSSRC audioSinkSSRC _maxVideoBw content : UInt32) : RtcpForwarder where
  videoSourceSSRC := videoSourceSSRC
  videoSinkSSRC := videoSinkSSRC
  audioSinkSSRC := audioSinkSSRC
  maxVideoBw := content

def setMaxVideoBW (f : RtcpForwarder) (bandwidth : UInt32) : RtcpForwarder := { f with maxVideoBw := bandwidth }

theorem maxVideoBw_foldl (f : RtcpForwarder) (bandwidths : List UInt32) :
    (bandwidths.foldl setMaxVideoBW f).maxVideoBw = bandwidths.getLast?.getD f.maxVideoBw := by
  induction bandwidths using List.reverseRecOn with
  | nil => rfl
  | append_singleton bandwidths bandwidth _ =>
      rw [List.foldl_append, List.getLast?_concat]
      rfl

def mantissaOf (sub : SubPacket) : Nat := fieldMantissa (read sub.bytes 17 3)

def expOf (sub : SubPacket) : Nat := fieldExp (read sub.bytes 17 3)

/-- What is left of the product in 32 bits. -/
def shiftedRate (mantissa exp : Nat) : Nat := mantissa * 2 ^ (exp % 32) % 2 ^ 32

theorem toNat_cappedBitrate (f : RtcpForwarder) (mantissa exp : UInt32) :
    (f.cappedBitrate mantissa exp).toNat = min (shiftedRate mantissa.toNat exp.toNat) f.maxVideoBw.toNat := by
  have hshift : (mantissa <<< exp).toUInt64.toNat = shiftedRate mantissa.toNat exp.toNat := by
    rw [UInt32.toNat_toUInt64, UInt32.toNat_shiftLeft, Nat.shiftLeft_eq]
    rfl
  rw [cappedBitrate]
  split_ifs with hless
  · rw [UInt64.lt_iff_toNat_lt, hshift, UInt32.toNat_toUInt64] at hless
    rw [hshift]
    omega
  · rw [UInt64.lt_iff_toNat_lt, hshift, UInt32.toNat_toUInt64] at hless
    rw [UInt32.toNat_toUInt64]
    omega

/-- The field of a rate that has been capped. -/
def cappedField (rate cap : Nat) : List UInt8 := rembField (.ofNat (min rate cap))

theorem rembField_cappedBitrate (f : RtcpForwarder) (mantissa exp : UInt32) :
    rembField (f.cappedBitrate mantissa exp)
      = cappedField (shiftedRate mantissa.toNat exp.toNat) f.maxVideoBw.toNat := by
  rw [cappedField, ← toNat_cappedBitrate, UInt64.ofNat_toNat]

/-- What has been made of one of the sub-packets, and of those before it. -/
theorem split_forall₂ {R : SubPacket → List UInt8 → Prop} {pre post : List SubPacket} {sub : SubPacket}
    {results : List (List UInt8)} (hall : List.Forall₂ R (pre ++ sub :: post) results)
    (hlength : ∀ s result, R s result → result.length = s.bytes.length) :
    ∃ front back result, results = front ++ result :: back ∧ front.flatten.length = (compound pre).length
      ∧ R sub result := by
  induction pre generalizing results with
  | nil =>
      cases hall with
      | cons hsub _ => exact ⟨[], _, _, rfl, rfl, hsub⟩
  | cons s pre ih =>
      cases hall with
      | cons hs hrest =>
          obtain ⟨front, back, result, rfl, hfront, hsub⟩ := ih hrest
          refine ⟨_ :: front, back, result, rfl, ?_, hsub⟩
          rw [List.flatten_cons, List.length_append, hfront, hlength s _ hs, compound_cons, List.length_append]

/-- The message of a compound packet is written anew in its place. -/
theorem analyzeFeedback_remb (f : RtcpForwarder) {pre post : List SubPacket} {sub : SubPacket}
    (hfirst : ∀ first ∈ (pre ++ sub :: post).head?, IsFeedback first.type)
    (hsized : ∀ s ∈ pre ++ sub :: post, Sized s) (hremb : IsRemb sub) :
    ∃ front back offsets, front.length = (compound pre).length
      ∧ f.analyzeFeedback (compound (pre ++ sub :: post)) = .ok ((compound (pre ++ sub :: post)).length,
        front ++ write sub.bytes 17 (cappedField (shiftedRate (mantissaOf sub) (expOf sub)) f.maxVideoBw.toNat) ++ back,
        offsets) := by
  let R (s : SubPacket) (result : List UInt8) : Prop := result.length = s.bytes.length ∧ (IsRemb s →
    result = write s.bytes 17 (cappedField (shiftedRate (mantissaOf s) (expOf s)) f.maxVideoBw.toNat))
  have hvisit : ∀ s ∈ pre ++ sub :: post, ∃ result, R s result ∧ result.length = s.bytes.length
      ∧ ∀ rest, f.visit (s.bytes ++ rest) = .ok (result ++ rest) := by
    intro s hmem
    by_cases hs : IsRemb s
    · obtain ⟨mantissa, exp, hmantissa, hexp, hvisit⟩ := f.visit_remb (hsized s hmem) hs
      have hsize : 20 ≤ s.bytes.length := (hsized s hmem).2 ⟨hs.1, hs.2.1⟩
      have hfield : load s.bytes 17 3 = .ok (read s.bytes 17 3) := if_pos (by omega)
      obtain ⟨mantissa', hmantissa', htoNat⟩ := getBrMantis_eq hfield (length_read (by omega))
      obtain ⟨exp', hexp', htoNat'⟩ := getBrExp_eq hfield (length_read (by omega))
      obtain rfl : mantissa = mantissa' := Except.ok.inj (hmantissa.symm.trans hmantissa')
      obtain rfl : exp = exp' := Except.ok.inj (hexp.symm.trans hexp')
      refine ⟨_, ⟨length_write _ _ _, fun _ => ?_⟩, length_write _ _ _, hvisit⟩
      rw [rembField_cappedBitrate, htoNat, htoNat']
      rfl
    · obtain ⟨result, -, hlength, hresult⟩ := f.visit_local (hsized s hmem)
      exact ⟨result, ⟨hlength, fun h => absurd h hs⟩, hlength, hresult⟩
  obtain ⟨first, more, hsubs⟩ : ∃ first more, pre ++ sub :: post = first :: more :=
    List.exists_cons_of_ne_nil (List.append_ne_nil_of_right_ne_nil _ (List.cons_ne_nil _ _))
  rw [hsubs] at hfirst hsized hvisit
  have hfeedback : IsFeedback first.type := hfirst first rfl
  have hsize : 12 ≤ first.bytes.length := (hsized first List.mem_cons_self).1 hfeedback
  have hnot : ¬ (more = [] ∧ first.count = 0) := by
    rintro ⟨rfl, hcount⟩
    obtain ⟨rfl, hsub⟩ : pre = [] ∧ sub = first := by
      cases pre with
      | nil => exact ⟨rfl, (List.cons.inj hsubs).1⟩
      | cons s pre => exact absurd (List.cons.inj hsubs).2 (List.append_ne_nil_of_right_ne_nil _ (List.cons_ne_nil _ _))
    rw [← hsub, hremb.2.1] at hcount
    cases hcount
  obtain ⟨results, hall, hresult⟩ := f.analyzeFeedback_of_visit hfeedback hsize hnot hvisit
  rw [← hsubs] at hall hresult
  obtain ⟨front, back, result, rfl, hlength, hsub⟩ := split_forall₂ hall (fun s t h => h.1)
  refine ⟨front.flatten, back.flatten, offsetsFrom 0 (pre ++ sub :: post), hlength, ?_⟩
  rw [hresult, List.flatten_append, List.flatten_cons, hsub.2 hremb, List.append_assoc]

/-- The message is forwarded with its bit rate, or with the cap where that is less. -/
def Capped (f : RtcpForwarder) (pre : List SubPacket) (sub : SubPacket) (post : List SubPacket) (cap : UInt32) : Prop :=
  ∃ front back offsets, front.length = (compound pre).length
    ∧ f.analyzeFeedback (compound (pre ++ sub :: post)) = .ok ((compound (pre ++ sub :: post)).length,
      front ++ write sub.bytes 17 (cappedField (mantissaOf sub * 2 ^ expOf sub) cap.toNat) ++ back, offsets)

theorem capped_iff_field (f : RtcpForwarder) {pre post : List SubPacket} {sub : SubPacket}
    (hfirst : ∀ first ∈ (pre ++ sub :: post).head?, IsFeedback first.type)
    (hsized : ∀ s ∈ pre ++ sub :: post, Sized s) (hremb : IsRemb sub) (cap : UInt32) :
    f.Capped pre sub post cap
      ↔ cappedField (shiftedRate (mantissaOf sub) (expOf sub)) f.maxVideoBw.toNat
        = cappedField (mantissaOf sub * 2 ^ expOf sub) cap.toNat := by
  obtain ⟨front, back, offsets, hfront, hresult⟩ := f.analyzeFeedback_remb hfirst hsized hremb
  have hsize : 20 ≤ sub.bytes.length := (hsized sub (by simp)).2 ⟨hremb.1, hremb.2.1⟩
  constructor
  · rintro ⟨front', back', offsets', hfront', hresult'⟩
    have hbuf := congrArg (fun result => result.2.1) (Except.ok.inj (hresult.symm.trans hresult'))
    simp only [List.append_assoc] at hbuf
    have hsub := List.append_inj_left (List.append_inj_right hbuf (hfront.trans hfront'.symm)) (by simp)
    have hread (rate cap : Nat) : read (write sub.bytes 17 (cappedField rate cap)) 17 3 = cappedField rate cap := by
      have hlength : (cappedField rate cap).length = 3 := length_rembField _
      have hfield := @read_write _ sub.bytes 17 (cappedField rate cap) (by omega)
      rwa [hlength] at hfield
    rw [← hread, hsub, hread]
  · intro hsame
    rw [hsame] at hresult
    exact ⟨front, back, offsets, hfront, hresult⟩

/-! ### When the cap is kept -/

section Cap

variable {rate low cap : Nat}

theorem toNat_ofNat_min (hcap : cap < 2 ^ 32) : (UInt64.ofNat (min rate cap)).toNat = min rate cap := by
  apply UInt64.toNat_ofNat_of_lt'
  calc min rate cap ≤ cap := Nat.min_le_right _ _
    _ < 2 ^ 64 := by omega

theorem cappedField_eq_iff (hcap : cap < 2 ^ 32) (hlow : rate < 2 ^ 32 → low = rate) :
    cappedField low cap = cappedField rate cap
      ↔ rate < 2 ^ 32 ∨ cap ≤ low ∨ rembField (.ofNat low) = rembField (.ofNat cap) := by
  by_cases hfits : rate < 2 ^ 32
  · rw [hlow hfits]
    exact iff_of_true rfl (.inl hfits)
  have hrate : min rate cap = cap := by omega
  by_cases hle : cap ≤ low
  · rw [cappedField, cappedField, hrate, Nat.min_eq_right hle]
    exact iff_of_true rfl (.inr (.inl hle))
  · rw [cappedField, cappedField, hrate, Nat.min_eq_left (by omega), or_iff_right hfits, or_iff_right hle]

theorem eq_zero_of_cappedField (hcap : cap < 2 ^ 32) (h : cappedField rate cap = rembField 0) : min rate cap = 0 := by
  have hsmall : min rate cap < 2 ^ 63 := by omega
  have hzero := eq_zero_of_rembField (by rw [toNat_ofNat_min hcap]; exact hsmall) h
  rwa [toNat_ofNat_min hcap] at hzero

theorem cappedField_zero (h : min rate cap = 0) : cappedField rate cap = rembField 0 := by
  rw [cappedField, h]
  rfl

/-- Whatever the member holds. -/
theorem forall_cappedField_iff (hcap : cap < 2 ^ 32) (hlow : low < 2 ^ 32) (hzero : rate = 0 → low = 0) :
    (∀ content : UInt32, cappedField low content.toNat = cappedField rate cap) ↔ rate = 0 ∨ cap = 0 ∧ low = 0 := by
  constructor
  · intro hall
    have hnone := hall 0
    have hnothing : min low (0 : UInt32).toNat = 0 := Nat.min_zero low
    rw [cappedField_zero hnothing] at hnone
    have hmin := eq_zero_of_cappedField hcap hnone.symm
    by_cases hrate : rate = 0
    · exact .inl hrate
    have hsame := hall (.ofNat low)
    have hcontent : (UInt32.ofNat low).toNat = low := UInt32.toNat_ofNat_of_lt' hlow
    rw [cappedField_zero hmin, hcontent] at hsame
    have hself := eq_zero_of_cappedField hlow hsame
    exact .inr ⟨by omega, by omega⟩
  · rintro h content
    have hmin : min low content.toNat = 0 := by
      obtain hrate | ⟨-, hlow⟩ := h
      · have hnone := hzero hrate
        omega
      · omega
    rw [cappedField_zero hmin, cappedField_zero (by omega)]

end Cap

/-- The product fits in 32 bits, or what is left of it there is not below the cap or has the same field. Without a
call of `setMaxVideoBW` the rate is 0, or the bound is and nothing is left of the product. -/
def CapKept (maxVideoBw : UInt32) (bandwidths : List UInt32) (sub : SubPacket) : Prop :=
  match bandwidths.getLast? with
  | some cap => mantissaOf sub * 2 ^ expOf sub < 2 ^ 32
      ∨ cap.toNat ≤ shiftedRate (mantissaOf sub) (expOf sub)
      ∨ rembField (.ofNat (shiftedRate (mantissaOf sub) (expOf sub))) = rembField (.ofNat cap.toNat)
  | none => mantissaOf sub * 2 ^ expOf sub = 0
      ∨ maxVideoBw.toNat = 0 ∧ shiftedRate (mantissaOf sub) (expOf sub) = 0

theorem shiftedRate_of_lt {mantissa exp : Nat} (h : mantissa * 2 ^ exp < 2 ^ 32) :
    shiftedRate mantissa exp = mantissa * 2 ^ exp := by
  by_cases hexp : exp < 32
  · rw [shiftedRate, Nat.mod_eq_of_lt hexp, Nat.mod_eq_of_lt h]
  · have hpow : 2 ^ 32 ≤ 2 ^ exp := Nat.pow_le_pow_right (by omega) (by omega)
    have hmantissa : mantissa = 0 := by
      by_contra hpos
      have hlarge : 2 ^ exp ≤ mantissa * 2 ^ exp := Nat.le_mul_of_pos_left _ (Nat.pos_of_ne_zero hpos)
      omega
    rw [hmantissa, Nat.zero_mul, shiftedRate, Nat.zero_mul, Nat.zero_mod]

/-- **A cap is kept just if the shift loses nothing that matters, and the bound of the constructor is none.** -/
theorem capped_iff (videoSourceSSRC videoSinkSSRC audioSinkSSRC maxVideoBw : UInt32) (bandwidths : List UInt32)
    {pre post : List SubPacket} {sub : SubPacket}
    (hfirst : ∀ first ∈ (pre ++ sub :: post).head?, IsFeedback first.type)
    (hsized : ∀ s ∈ pre ++ sub :: post, Sized s) (hremb : IsRemb sub) :
    (∀ content, (bandwidths.foldl setMaxVideoBW
          (create videoSourceSSRC videoSinkSSRC audioSinkSSRC maxVideoBw content)).Capped pre sub post
          (bandwidths.getLast?.getD maxVideoBw))
      ↔ CapKept maxVideoBw bandwidths sub := by
  have hlow : shiftedRate (mantissaOf sub) (expOf sub) < 2 ^ 32 := Nat.mod_lt _ (by decide)
  have hzero (h : mantissaOf sub * 2 ^ expOf sub = 0) : shiftedRate (mantissaOf sub) (expOf sub) = 0 := by
    rw [shiftedRate_of_lt (by omega), h]
  simp only [capped_iff_field _ hfirst hsized hremb, maxVideoBw_foldl, CapKept]
  cases bandwidths.getLast? with
  | none => exact forall_cappedField_iff maxVideoBw.toNat_lt hlow hzero
  | some cap =>
      simp only [Option.getD_some, forall_const]
      exact cappedField_eq_iff cap.toNat_lt shiftedRate_of_lt

/-- A message with the mantissa `2 ^ 17`. The exponent is 2 with the high byte 0x0A, and 15 with 0x3E. -/
def messageOf (high : UInt8) : SubPacket where
  bytes := [0x8F, 206, 0, 5, 0, 0, 0, 1, 0, 0, 0, 0, 82, 69, 77, 66, 1, high, 0, 0, 0, 0, 0, 7]
  size := rfl

instance (type : Nat) : Decidable (IsFeedback type) := inferInstanceAs (Decidable (_ ∨ _ ∨ _))

instance (sub : SubPacket) : Decidable (IsRemb sub) := inferInstanceAs (Decidable (_ ∧ _ ∧ _))

theorem capped_iff_report_remb : ((create 7 55543 44444 300000 0).setMaxVideoBW 2000000).Capped
    [reportAbout7] (messageOf 0x0A) [] 2000000 :=
  (@capped_iff 7 55543 44444 300000 [2000000] [reportAbout7] [] (messageOf 0x0A) (by simp; decide) (by decide)
    (by decide)).mpr (.inl (by decide)) 0

/-- A rate of `2 ^ 32` is forwarded as none. -/
theorem great_rate_lost :
    ¬ ((create 7 55543 44444 300000 0).setMaxVideoBW 300000).Capped [] (messageOf 0x3E) [] 300000 := by
  rw [capped_iff_field _ (by simp; decide) (by decide) (by decide)]
  decide

end RtcpForwarder

end Licode.Media
