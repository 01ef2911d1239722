import Licode.Media.Rtcp

/-!
# Feedback about renumbered video

Video is sent with its sequence numbers less `seqNoOffset_`, and so the numbers in the feedback about it
have to be raised before the publisher sees them. `onTransportData` does this for the first block of
every receiver report and the first entry of every transport-layer feedback, whatever they are about
and whether they are there or not. The carry into the cycles is tested for with numbers that have been
promoted to `int`, which do not wrap.
-/

namespace Licode.Media

open Overlay Rtcp

/-- The members of a `WebRtcConnection` that decide about feedback. -/
structure FeedbackTranslator where
  hasFbSink : Bool
  shouldSendFeedback : Bool
  seqNoOffset : UInt16

namespace FeedbackTranslator

/-- The body of the loop in `onTransportData`. -/
def visit (c : FeedbackTranslator) (chead : List UInt8) : Checked (List UInt8) := do
  let type ← getPacketType chead
  if type = receiverPT then
    let highest ← getHighestSeqnum chead
    let chead ←
      if highest + c.seqNoOffset.toNat < highest then do
        -- the adjustment causes a wraparound, add to cycles
        let cycles ← getSeqnumCycles chead
        setSeqnumCycles chead (cycles + 1)
      else pure chead
    let highest ← getHighestSeqnum chead
    setHighestSeqnum chead (highest + c.seqNoOffset.toNat)
  else if type = rtpFeedbackPT then
    let pid ← getNackPid chead
    setNackPid chead (pid + c.seqNoOffset.toNat)
  else return chead

/-- The part of `onTransportData` that delivers feedback, with what the sink gets. -/
def onTransportData (c : FeedbackTranslator) (buf : List UInt8) : Checked (Option (List UInt8)) := do
  let type ← getPacketType buf
  if type = receiverPT ∨ type = psFeedbackPT ∨ type = rtpFeedbackPT then
    if c.hasFbSink = true ∧ c.shouldSendFeedback = true then
      if c.seqNoOffset > 0 then
        let (buf, _) ← walk c.visit buf.length 0 buf.length buf
        return some buf
      else return some buf
    else return none
  else return none

/-! ### What it is to do -/

/-- The blocks of a receiver report, and the numbers they are about. -/
def aboutVideo (video : UInt32) (bytes : List UInt8) (block : Nat) : Bool :=
  number (read bytes (8 + 24 * block) 4) = video.toNat

/-- The places and widths of the sequence numbers of the video source: extended highest numbers in
receiver reports, and the entries of a generic NACK. -/
def videoFields (video : UInt32) (sub : SubPacket) : List (Nat × Nat) :=
  if sub.type = receiverPT then
    ((List.range sub.count).filter (aboutVideo video sub.bytes)).map fun block => (16 + 24 * block, 4)
  else if sub.type = rtpFeedbackPT ∧ sub.count = 1 ∧ aboutVideo video sub.bytes 0 = true then
    (List.range ((sub.bytes.length - 12) / 4)).map fun entry => (12 + 4 * entry, 2)
  else []

/-- The numbers of the video source are raised by the offset, and nothing else has changed. -/
structure Translated (video : UInt32) (c : FeedbackTranslator) (sub : SubPacket) (result : List UInt8) :
    Prop where
  length : result.length = sub.bytes.length
  fields : ∀ field ∈ videoFields video sub, number (read result field.1 field.2)
    = (number (read sub.bytes field.1 field.2) + c.seqNoOffset.toNat) % 256 ^ field.2
  other : ∀ i, (∀ field ∈ videoFields video sub, i < field.1 ∨ field.1 + field.2 ≤ i) →
    result[i]? = sub.bytes[i]?

/-- A receiver report has room for its blocks, and feedback for the SSRC of its source. -/
def WellFormed (sub : SubPacket) : Prop :=
  (sub.type = receiverPT → 8 + 24 * sub.count ≤ sub.bytes.length)
    ∧ (sub.type = psFeedbackPT ∨ sub.type = rtpFeedbackPT → 12 ≤ sub.bytes.length)

/-- In a receiver report the first block and no other is about the video source, and its highest
number is raised without a carry. Transport-layer feedback is a NACK with one entry, about the video
source. -/
def Simple (video : UInt32) (c : FeedbackTranslator) (sub : SubPacket) : Prop :=
  (sub.type = receiverPT → videoFields video sub = [(16, 4)]
      ∧ number (read sub.bytes 18 2) + c.seqNoOffset.toNat < 2 ^ 16)
    ∧ (sub.type = rtpFeedbackPT → videoFields video sub = [(12, 2)])

/-! ### What the loop does at a sub-packet -/

section Visit

variable {c : FeedbackTranslator} {video : UInt32} {sub : SubPacket}

/-- The offset is added to the number of two bytes at a place. -/
def raise (c : FeedbackTranslator) (buf : List UInt8) (place : Nat) : Checked (List UInt8) := do
  let old ← load buf place 2
  store buf place (image 2 (number old + c.seqNoOffset.toNat))

/-- Where the loop adds the offset. -/
def cell (type : Nat) : Option Nat :=
  if type = receiverPT then some 18 else if type = rtpFeedbackPT then some 12 else none

def raiseCell (c : FeedbackTranslator) (buf : List UInt8) (type : Nat) : Checked (List UInt8) :=
  match cell type with
  | none => .ok buf
  | some place => c.raise buf place

/-- The test for a carry never succeeds. -/
theorem visit_eq (c : FeedbackTranslator) (buf : List UInt8) :
    c.visit buf = getPacketType buf >>= c.raiseCell buf := by
  rw [visit]
  congr 1
  funext type
  rw [raiseCell, cell]
  by_cases hreport : type = receiverPT
  · rw [if_pos hreport, if_pos hreport, getHighestSeqnum]
    dsimp only [raise]
    cases hload : load buf 18 2 with
    | error e => rfl
    | ok old =>
        have hno : ¬ number old + c.seqNoOffset.toNat < number old := by omega
        simp only [Checked.ok_bind, Checked.pure_eq_ok, if_neg hno]
        rw [getHighestSeqnum, hload]
        rfl
  · rw [if_neg hreport, if_neg hreport]
    by_cases hrtp : type = rtpFeedbackPT
    · rw [if_pos hrtp, if_pos hrtp, getNackPid]
      dsimp only [raise]
      cases load buf 12 2 <;> rfl
    · rw [if_neg hrtp, if_neg hrtp]
      rfl

theorem raise_eq_ok {buf buf' : List UInt8} {place : Nat} (h : c.raise buf place = .ok buf') :
    place + 2 ≤ buf.length
      ∧ buf' = write buf place (image 2 (number (read buf place 2) + c.seqNoOffset.toNat)) := by
  obtain ⟨old, hload, hstore⟩ := exists_of_bind_ok h
  unfold load at hload
  split at hload <;> cases hload
  next hin =>
    unfold store at hstore
    split at hstore <;> cases hstore
    exact ⟨hin, rfl⟩

/-- A buffer is changed from its twelfth byte on. -/
theorem visit_front {buf buf' : List UInt8} (h : c.visit buf = .ok buf') :
    buf'.length = buf.length ∧ ∀ i < 12, buf'[i]? = buf[i]? := by
  rw [visit_eq] at h
  obtain ⟨type, -, hraise⟩ := exists_of_bind_ok h
  unfold raiseCell at hraise
  split at hraise
  · cases hraise
    exact ⟨rfl, fun _ _ => rfl⟩
  next place hplace =>
    have hbehind : 12 ≤ place := by
      unfold cell at hplace
      split_ifs at hplace <;> cases hplace <;> omega
    obtain ⟨-, rfl⟩ := raise_eq_ok hraise
    refine ⟨length_write _ _ _, fun i hi => ?_⟩
    exact (sameOutside_write buf place _).2 i (.inl (by omega))

theorem walk_front {fuel offset rest : Nat} {buf buf' : List UInt8} {offsets : List Nat}
    (h : walk c.visit fuel offset rest buf = .ok (buf', offsets)) : ∀ i < 12, buf'[i]? = buf[i]? := by
  induction fuel generalizing offset rest buf buf' offsets with
  | zero => cases h
  | succ fuel ih =>
      intro i hi
      obtain ⟨length, -, h⟩ := exists_of_bind_ok h
      obtain ⟨moved, hvisit, h⟩ := exists_of_bind_ok h
      obtain ⟨hlength, hfront⟩ := visit_front hvisit
      rw [← hfront i hi]
      split at h
      · obtain ⟨⟨behind, more⟩, hwalk, h⟩ := exists_of_bind_ok h
        cases h
        have hbehind := ih hwalk
        by_cases hin : i < (moved.take length).length
        · rw [List.getElem?_append_left hin, List.getElem?_take_of_lt]
          rw [List.length_take] at hin
          omega
        · rw [List.getElem?_append_right (by omega), hbehind _ (by omega), List.getElem?_drop]
          rw [List.length_take] at hin ⊢
          by_cases hshort : length ≤ moved.length
          · congr 1
            omega
          · rw [List.getElem?_eq_none (by omega), List.getElem?_eq_none (by omega)]
      · cases h
        rfl

/-- The fields of the video source stand behind the twelfth byte as well. -/
theorem twelve_le_field {field : Nat × Nat} (h : field ∈ videoFields video sub) : 12 ≤ field.1 := by
  unfold videoFields at h
  split_ifs at h
  · obtain ⟨block, -, rfl⟩ := List.mem_map.mp h
    dsimp only
    omega
  · obtain ⟨entry, -, rfl⟩ := List.mem_map.mp h
    dsimp only
    omega
  · cases h

theorem translated_front {subs : List SubPacket} {results : List (List UInt8)}
    (h : List.Forall₂ (Translated video c) subs results) :
    ∀ i < 12, results.flatten[i]? = (compound subs)[i]? := by
  induction h with
  | nil => exact fun _ _ => rfl
  | @cons sub result subs results hfirst _ ih =>
      intro i hi
      rw [List.flatten_cons, compound_cons]
      by_cases hin : i < result.length
      · rw [List.getElem?_append_left hin, List.getElem?_append_left (by rw [← hfirst.length]; exact hin)]
        refine hfirst.other i fun field hfield => .inl ?_
        have hplace := twelve_le_field hfield
        omega
      · rw [List.getElem?_append_right (by omega),
          List.getElem?_append_right (by rw [← hfirst.length]; omega), hfirst.length]
        exact ih _ (by omega)

theorem add_mod_ne {n o p : Nat} (hn : n < p) (ho : 0 < o) (hop : o < p) : (n + o) % p ≠ n := by
  by_cases hlt : n + o < p
  · rw [Nat.mod_eq_of_lt hlt]
    omega
  · rw [Nat.mod_eq_sub_mod (by omega), Nat.mod_eq_of_lt (by omega)]
    omega

/-- The sub-packet after its field of two bytes at a place has been raised. -/
def raised (c : FeedbackTranslator) (sub : SubPacket) (place : Nat) : List UInt8 :=
  write sub.bytes place (image 2 (number (read sub.bytes place 2) + c.seqNoOffset.toNat))

theorem number_raised (c : FeedbackTranslator) {place : Nat} (hin : place + 2 ≤ sub.bytes.length) :
    number (read (c.raised sub place) place 2)
      = (number (read sub.bytes place 2) + c.seqNoOffset.toNat) % 2 ^ 16 := by
  have hread : read (c.raised sub place) place 2
      = image 2 (number (read sub.bytes place 2) + c.seqNoOffset.toNat) :=
    read_write (by rw [length_image]; exact hin)
  rw [hread, number_image_mod]
  norm_num

theorem sameOutside_raised (c : FeedbackTranslator) (sub : SubPacket) (place : Nat) :
    SameOutside sub.bytes (c.raised sub place) place 2 :=
  sameOutside_write _ _ _

/-- Raising one number is the translation only if there is one field of the video source, and this is
the one that holds the number. -/
theorem blocks_of_translated (hoffset : c.seqNoOffset ≠ 0) {blocks : List Nat} (hnodup : blocks.Nodup)
    {base stride width place : Nat}
    (hfields : videoFields video sub = blocks.map fun block => (base + stride * block, width))
    (hbase : base ≤ place) (hwidth : place + 2 ≤ base + width) (hstride : width ≤ stride)
    (hin : place + 2 ≤ sub.bytes.length) (h : Translated video c sub (c.raised sub place)) :
    blocks = [0] := by
  have ho : 0 < c.seqNoOffset.toNat := Nat.pos_of_ne_zero fun h => hoffset (UInt16.toNat_inj.mp h)
  have hsmall : c.seqNoOffset.toNat < 2 ^ 16 := c.seqNoOffset.toNat_lt
  have hlater : ∀ block ≠ 0, base + width ≤ base + stride * block := by
    intro block hblock
    have := Nat.le_mul_of_pos_right stride (Nat.pos_of_ne_zero hblock)
    omega
  have hzero : 0 ∈ blocks := by
    by_contra hnone
    -- then nothing may change where the number stands
    have hsame : read (c.raised sub place) place 2 = read sub.bytes place 2 := by
      refine read_congr fun i _ hi => h.other i ?_
      rw [hfields]
      intro field hfield
      obtain ⟨block, hblock, rfl⟩ := List.mem_map.mp hfield
      have hne : block ≠ 0 := fun h => hnone (h ▸ hblock)
      exact .inl (by have := hlater block hne; omega)
    have hnumber := number_raised c hin
    rw [hsame] at hnumber
    exact add_mod_ne (number_read_lt sub.bytes place 2) ho hsmall hnumber.symm
  have hall : ∀ block ∈ blocks, block = 0 := by
    intro block hblock
    by_contra hne
    have hfield := h.fields (base + stride * block, width)
      (by rw [hfields]; exact List.mem_map_of_mem hblock)
    have hbehind := hlater block hne
    have hsame : read (c.raised sub place) (base + stride * block) width
        = read sub.bytes (base + stride * block) width :=
      read_write_after _ _ (by rw [length_image]; omega)
    dsimp only at hfield
    rw [hsame] at hfield
    refine add_mod_ne (number_read_lt _ _ _) ho (hsmall.trans_le ?_) hfield.symm
    calc 2 ^ 16 = 256 ^ 2 := by norm_num
      _ ≤ 256 ^ width := Nat.pow_le_pow_right (by omega) (by omega)
  have hreplicate := List.eq_replicate_of_mem hall
  rw [hreplicate, List.nodup_replicate] at hnodup
  have hpos := List.length_pos_of_mem hzero
  rw [hreplicate, show blocks.length = 1 by omega]
  rfl

/-- The extended highest number is made of the cycles and the highest number. -/
theorem number_extended (bytes : List UInt8) (hin : 20 ≤ bytes.length) :
    number (read bytes 16 4) = number (read bytes 18 2) + 2 ^ 16 * number (read bytes 16 2) := by
  rw [show (4 : Nat) = 2 + 2 from rfl, read_add, number_append, length_read (by omega)]
  norm_num

theorem report_of_translated (hoffset : c.seqNoOffset ≠ 0) (htype : sub.type = receiverPT)
    (hin : 20 ≤ sub.bytes.length) (h : Translated video c sub (c.raised sub 18)) :
    videoFields video sub = [(16, 4)]
      ∧ number (read sub.bytes 18 2) + c.seqNoOffset.toNat < 2 ^ 16 := by
  have hfields : videoFields video sub = ((List.range sub.count).filter
      (aboutVideo video sub.bytes)).map fun block => (16 + 24 * block, 4) := if_pos htype
  have hblocks := blocks_of_translated hoffset (List.nodup_range.filter _) hfields (by omega) (by omega)
    (by omega) (by omega) h
  rw [hblocks] at hfields
  refine ⟨hfields, ?_⟩
  have hfield := h.fields (16, 4) (by rw [hfields]; exact List.mem_singleton.mpr rfl)
  have hcycles : read (c.raised sub 18) 16 2 = read sub.bytes 16 2 :=
    read_write_before _ _ (by omega)
  have hlength : 20 ≤ (c.raised sub 18).length := by
    rw [(sameOutside_raised c sub 18).1]
    exact hin
  dsimp only at hfield
  rw [number_extended _ hin, number_extended _ hlength, number_raised c (by omega), hcycles] at hfield
  have hhighest := number_read_lt sub.bytes 18 2
  have hsmall : c.seqNoOffset.toNat < 2 ^ 16 := c.seqNoOffset.toNat_lt
  norm_num at hfield hhighest hsmall ⊢
  omega

theorem translated_report (hin : 20 ≤ sub.bytes.length)
    (hfields : videoFields video sub = [(16, 4)])
    (hcarry : number (read sub.bytes 18 2) + c.seqNoOffset.toNat < 2 ^ 16) :
    Translated video c sub (c.raised sub 18) := by
  obtain ⟨hlength, hsame⟩ := sameOutside_raised c sub 18
  refine ⟨hlength, ?_, ?_⟩
  · intro field hfield
    rw [hfields, List.mem_singleton] at hfield
    subst hfield
    have hcycles : read (c.raised sub 18) 16 2 = read sub.bytes 16 2 :=
      read_write_before _ _ (by omega)
    dsimp only
    rw [number_extended _ hin, number_extended _ (hlength ▸ hin), number_raised c (by omega), hcycles]
    have hlow := number_read_lt sub.bytes 16 2
    norm_num at hlow hcarry ⊢
    omega
  · intro i hi
    refine hsame i ((hi (16, 4) ?_).imp ?_ ?_)
    · rw [hfields]
      exact List.mem_singleton.mpr rfl
    · exact fun h => by dsimp only at h; omega
    · exact fun h => by dsimp only at h; omega

theorem nack_of_translated (hoffset : c.seqNoOffset ≠ 0) (htype : sub.type = rtpFeedbackPT)
    (hin : 14 ≤ sub.bytes.length) (h : Translated video c sub (c.raised sub 12)) :
    videoFields video sub = [(12, 2)] := by
  have hreport : sub.type ≠ receiverPT := by
    rw [htype]
    decide
  have hfields : videoFields video sub = (if sub.count = 1 ∧ aboutVideo video sub.bytes 0 = true then
      List.range ((sub.bytes.length - 12) / 4) else []).map fun entry => (12 + 4 * entry, 2) := by
    rw [videoFields, if_neg hreport]
    by_cases habout : sub.count = 1 ∧ aboutVideo video sub.bytes 0 = true
    · rw [if_pos ⟨htype, habout⟩, if_pos habout]
    · rw [if_neg fun h => habout h.2, if_neg habout]
      rfl
  have hnodup : (if sub.count = 1 ∧ aboutVideo video sub.bytes 0 = true then
      List.range ((sub.bytes.length - 12) / 4) else []).Nodup := by
    split_ifs
    · exact List.nodup_range
    · exact List.nodup_nil
  rw [hfields, blocks_of_translated hoffset hnodup hfields (by omega) (by omega) (by omega) (by omega) h]
  rfl

theorem translated_nack (hin : 14 ≤ sub.bytes.length) (hfields : videoFields video sub = [(12, 2)]) :
    Translated video c sub (c.raised sub 12) := by
  obtain ⟨hlength, hsame⟩ := sameOutside_raised c sub 12
  refine ⟨hlength, ?_, ?_⟩
  · intro field hfield
    rw [hfields, List.mem_singleton] at hfield
    subst hfield
    dsimp only
    rw [number_raised c (by omega)]
    norm_num
  · intro i hi
    exact hsame i (hi (12, 2) (by rw [hfields]; exact List.mem_singleton.mpr rfl))

/-- What a visit does to a sub-packet and to no other; it is the translation for the simple ones. -/
def Local (video : UInt32) (c : FeedbackTranslator) (sub : SubPacket) : Prop :=
  ∃ result, result.length = sub.bytes.length
    ∧ (∀ rest, c.visit (sub.bytes ++ rest) = .ok (result ++ rest))
    ∧ (Translated video c sub result ↔ Simple video c sub)

theorem visit_append (c : FeedbackTranslator) (sub : SubPacket) (rest : List UInt8) :
    c.visit (sub.bytes ++ rest) = c.raiseCell (sub.bytes ++ rest) sub.type := by
  rw [visit_eq, sub.getPacketType_append]
  rfl

theorem raise_append {place : Nat} (hin : place + 2 ≤ sub.bytes.length) (rest : List UInt8) :
    c.raise (sub.bytes ++ rest) place = .ok (c.raised sub place ++ rest) := by
  rw [raise, load_append hin]
  exact store_append (by rw [length_image]; exact hin) rest

/-- A visit stays within its sub-packet, or the number that it raises is not there. -/
theorem visit_cases (hoffset : c.seqNoOffset ≠ 0) (hwf : WellFormed sub) :
    Local video c sub ∨ (¬ Simple video c sub ∧ ∃ place, cell sub.type = some place
      ∧ sub.bytes.length ≤ place ∧ place + 2 ≤ sub.bytes.length + 12) := by
  have hsize := sub.size
  by_cases hreport : sub.type = receiverPT
  · have hcell : cell sub.type = some 18 := if_pos hreport
    have hrtp : sub.type ≠ rtpFeedbackPT := by
      rw [hreport]
      decide
    have hroom := hwf.1 hreport
    by_cases hin : 20 ≤ sub.bytes.length
    · refine .inl ⟨c.raised sub 18, (sameOutside_raised c sub 18).1, fun rest => ?_, ?_, ?_⟩
      · rw [visit_append, raiseCell, hcell]
        exact raise_append hin rest
      · exact fun h => ⟨fun _ => report_of_translated hoffset hreport hin h, fun h => absurd h hrtp⟩
      · exact fun h => translated_report hin (h.1 hreport).1 (h.1 hreport).2
    · refine .inr ⟨fun h => ?_, 18, hcell, by omega, by omega⟩
      have hfields := (h.1 hreport).1
      rw [videoFields, if_pos hreport, show sub.count = 0 by omega] at hfields
      cases hfields
  · by_cases hrtp : sub.type = rtpFeedbackPT
    · have hcell : cell sub.type = some 12 := by
        rw [cell, if_neg hreport, if_pos hrtp]
      have hroom := hwf.2 (.inr hrtp)
      by_cases hin : 14 ≤ sub.bytes.length
      · refine .inl ⟨c.raised sub 12, (sameOutside_raised c sub 12).1, fun rest => ?_, ?_, ?_⟩
        · rw [visit_append, raiseCell, hcell]
          exact raise_append hin rest
        · exact fun h => ⟨fun h => absurd h hreport, fun _ => nack_of_translated hoffset hrtp hin h⟩
        · exact fun h => translated_nack hin (h.2 hrtp)
      · refine .inr ⟨fun h => ?_, 12, hcell, by omega, by omega⟩
        have hfields := h.2 hrtp
        rw [videoFields, if_neg hreport, show (sub.bytes.length - 12) / 4 = 0 by omega] at hfields
        split_ifs at hfields
        cases hfields
    · refine .inl ⟨sub.bytes, rfl, fun rest => ?_, ?_, ?_⟩
      · rw [visit_append, raiseCell, cell, if_neg hreport, if_neg hrtp]
      · exact fun _ => ⟨fun h => absurd h hreport, fun h => absurd h hrtp⟩
      · intro _
        have hnone : videoFields video sub = [] := by
          rw [videoFields, if_neg hreport, if_neg fun h => hrtp h.1]
        refine ⟨rfl, ?_, fun _ _ => rfl⟩
        rw [hnone]
        nofun

/-- A number outside of its sub-packet is raised in what follows, where the translation changes
nothing. -/
theorem not_translated_of_outside (hoffset : c.seqNoOffset ≠ 0) {place : Nat}
    (hcell : cell sub.type = some place) (hplace : sub.bytes.length ≤ place)
    (hnear : place + 2 ≤ sub.bytes.length + 12) {behind moved after : List UInt8}
    (hvisit : c.visit (sub.bytes ++ behind) = .ok moved)
    (hwalk : ∀ i < 12, after[i]? = (moved.drop sub.bytes.length)[i]?)
    (hkept : ∀ i < 12, after[i]? = behind[i]?) : False := by
  rw [visit_append, raiseCell, hcell] at hvisit
  obtain ⟨hin, hmoved⟩ := raise_eq_ok hvisit
  have hsame : read moved place 2 = read (sub.bytes ++ behind) place 2 := by
    refine read_congr fun i hi hi' => ?_
    have hbehind := (hwalk (i - sub.bytes.length) (by omega)).symm.trans (hkept _ (by omega))
    rw [List.getElem?_drop, Nat.add_sub_cancel' (by omega)] at hbehind
    rw [hbehind, List.getElem?_append_right (by omega)]
  have hread : read moved place 2
      = image 2 (number (read (sub.bytes ++ behind) place 2) + c.seqNoOffset.toNat) := by
    rw [hmoved]
    exact read_write (by rw [length_image]; exact hin)
  have ho : 0 < c.seqNoOffset.toNat := Nat.pos_of_ne_zero fun h => hoffset (UInt16.toNat_inj.mp h)
  have hnumber := congrArg number (hsame.symm.trans hread)
  rw [number_image_mod] at hnumber
  exact add_mod_ne (number_read_lt _ place 2) ho c.seqNoOffset.toNat_lt hnumber.symm

/-- Where the walk has made the translation, all sub-packets were simple. -/
theorem simple_of_walk (hoffset : c.seqNoOffset ≠ 0) {subs : List SubPacket}
    (hwf : ∀ sub ∈ subs, WellFormed sub) {results : List (List UInt8)}
    (hall : List.Forall₂ (Translated video c) subs results) {fuel offset : Nat} {offsets : List Nat}
    (hwalk : walk c.visit fuel offset (compound subs).length (compound subs)
      = .ok (results.flatten, offsets)) : ∀ sub ∈ subs, Simple video c sub := by
  induction hall generalizing fuel offset offsets with
  | nil => nofun
  | @cons sub result subs results hfirst hrest ih =>
      cases fuel with
      | zero => cases hwalk
      | succ fuel =>
          rw [compound_cons, walk, sub.rtcpLength_append, Checked.ok_bind] at hwalk
          obtain ⟨moved, hvisit, hwalk⟩ := exists_of_bind_ok hwalk
          have hwf' := hwf sub List.mem_cons_self
          have hmoved := (visit_front hvisit).1
          rw [List.length_append] at hmoved hwalk
          have hlong := length_le_compound subs
          have hkept := translated_front hrest
          have hlocal : Local video c sub := by
            refine (visit_cases hoffset hwf').resolve_right ?_
            rintro ⟨-, place, hcell, hplace, hnear⟩
            split at hwalk
            · obtain ⟨⟨behind, more⟩, hbehind, hwalk⟩ := exists_of_bind_ok hwalk
              have hbuf : moved.take sub.bytes.length ++ behind = result ++ results.flatten :=
                congrArg Prod.fst (Except.ok.inj hwalk)
              have hafter := (List.append_inj hbuf (by rw [List.length_take, hfirst.length]; omega)).2
              rw [← hafter] at hkept
              exact not_translated_of_outside hoffset hcell hplace hnear hvisit (walk_front hbehind) hkept
            · rw [visit_append, raiseCell, hcell] at hvisit
              have hin := (raise_eq_ok hvisit).1
              rw [List.length_append] at hin
              omega
          obtain ⟨result', hlength, hresult', hiff⟩ := hlocal
          cases (hresult' _).symm.trans hvisit
          have hhead : result' = result ∧ ∀ later ∈ subs, Simple video c later := by
            split at hwalk
            · rw [← hlength, List.drop_left, List.take_left, Nat.add_sub_cancel_left] at hwalk
              obtain ⟨⟨behind, more⟩, hbehind, hwalk⟩ := exists_of_bind_ok hwalk
              have hbuf : result' ++ behind = result ++ results.flatten :=
                congrArg Prod.fst (Except.ok.inj hwalk)
              obtain ⟨hhead, hafter⟩ := List.append_inj hbuf (hlength.trans hfirst.length.symm)
              rw [hafter] at hbehind
              exact ⟨hhead, ih (fun sub hmem => hwf sub (List.mem_cons_of_mem _ hmem)) hbehind⟩
            · have hbuf : result' ++ compound subs = result ++ results.flatten :=
                congrArg Prod.fst (Except.ok.inj hwalk)
              refine ⟨(List.append_inj hbuf (hlength.trans hfirst.length.symm)).1, ?_⟩
              rw [List.eq_nil_of_length_eq_zero (show subs.length = 0 by omega)]
              nofun
          intro asked hasked
          obtain rfl | hlater := List.mem_cons.mp hasked
          · rw [hhead.1] at hiff
            exact hiff.mp hfirst
          · exact hhead.2 asked hlater

end Visit

/-- **Feedback is translated** exactly when all sub-packets are simple: for every compound packet that
begins with feedback and is delivered. -/
theorem translated_iff (video : UInt32) (c : FeedbackTranslator)
    (hsink : c.hasFbSink = true ∧ c.shouldSendFeedback = true) (hoffset : c.seqNoOffset ≠ 0)
    (first : SubPacket) (more : List SubPacket)
    (hfirst : first.type = receiverPT ∨ first.type = psFeedbackPT ∨ first.type = rtpFeedbackPT)
    (hwf : ∀ sub ∈ first :: more, WellFormed sub) :
    (∃ results, List.Forall₂ (Translated video c) (first :: more) results
        ∧ c.onTransportData (compound (first :: more)) = .ok (some results.flatten))
      ↔ ∀ sub ∈ first :: more, Simple video c sub := by
  have hpositive : c.seqNoOffset > 0 := UInt16.pos_iff_ne_zero.mpr hoffset
  have hdata : c.onTransportData (compound (first :: more)) = (do
      let (buf, _) ← walk c.visit (compound (first :: more)).length 0 (compound (first :: more)).length
        (compound (first :: more))
      return some buf) := by
    have htype := first.getPacketType_append (compound more)
    rw [← compound_cons] at htype
    rw [onTransportData, htype, Checked.ok_bind, if_pos hfirst, if_pos hsink, if_pos hpositive]
  rw [hdata]
  constructor
  · rintro ⟨results, hall, hcall⟩
    obtain ⟨⟨buf, offsets⟩, hwalk, hrest⟩ := exists_of_bind_ok hcall
    have hbuf : buf = results.flatten := Option.some.inj (Except.ok.inj hrest)
    rw [hbuf] at hwalk
    exact simple_of_walk hoffset hwf hall hwalk
  · intro hsimple
    have hvisit : ∀ sub ∈ first :: more, ∃ result, Translated video c sub result
        ∧ result.length = sub.bytes.length
        ∧ ∀ rest, c.visit (sub.bytes ++ rest) = .ok (result ++ rest) := by
      intro sub hmem
      obtain ⟨result, hlength, hvisit, hiff⟩ :=
        (visit_cases hoffset (hwf sub hmem)).resolve_right fun h => h.1 (hsimple sub hmem)
      exact ⟨result, hiff.mpr (hsimple sub hmem), hlength, hvisit⟩
    obtain ⟨results, hall, hwalk⟩ :=
      walk_compound (List.cons_ne_nil first more) hvisit (length_le_compound _) 0
    refine ⟨results, hall, ?_⟩
    rw [hwalk]
    rfl

/-- A receiver report with blocks about some sources, of which the first has the highest number given. -/
def report (sources : List UInt8) (highest : UInt16) : List UInt8 :=
  [0x80 + .ofNat sources.length, 201, 0, .ofNat (1 + 6 * sources.length), 0, 0, 0, 9]
    ++ sources.flatMap fun source =>
      [0, 0, 0, source, 0, 0, 0, 0, 0, 0] ++ image 2 highest.toNat ++ List.replicate 12 0

def videoReport : SubPacket := ⟨report [7] 1000, by decide⟩

/-- A NACK of one packet, about the source 7. -/
def videoNack : SubPacket := ⟨[0x81, 205, 0, 3, 0, 0, 0, 9, 0, 0, 0, 7, 0, 5, 0, 0], by decide⟩

def audioReport : SubPacket := ⟨report [8] 1000, by decide⟩

instance (sub : SubPacket) : Decidable (WellFormed sub) :=
  inferInstanceAs (Decidable ((_ → _) ∧ (_ → _)))

instance (video : UInt32) (c : FeedbackTranslator) (sub : SubPacket) : Decidable (Simple video c sub) :=
  inferInstanceAs (Decidable ((_ → _ ∧ _) ∧ (_ → _)))

theorem translated_iff_report_nack :
    ∃ results, List.Forall₂ (Translated 7 ⟨true, true, 20⟩) [videoReport, videoNack] results
      ∧ onTransportData ⟨true, true, 20⟩ (compound [videoReport, videoNack])
        = .ok (some results.flatten) :=
  (translated_iff 7 ⟨true, true, 20⟩ ⟨rfl, rfl⟩ (by decide) videoReport [videoNack] (by decide)
    (by decide)).mpr (by decide)

/-- The report of an audio receiver is raised by the offset of the video. -/
theorem audio_report_raised :
    ¬ ∀ (video : UInt32) (c : FeedbackTranslator), c.hasFbSink = true ∧ c.shouldSendFeedback = true →
      c.seqNoOffset ≠ 0 → ∀ first more,
      first.type = receiverPT ∨ first.type = psFeedbackPT ∨ first.type = rtpFeedbackPT →
      (∀ sub ∈ first :: more, WellFormed sub) →
      ∃ results, List.Forall₂ (Translated video c) (first :: more) results
        ∧ c.onTransportData (compound (first :: more)) = .ok (some results.flatten) := by
  intro hclaim
  obtain ⟨results, hall, hcall⟩ := hclaim 7 ⟨true, true, 20⟩ ⟨rfl, rfl⟩ (by decide) audioReport []
    (by decide) (by decide)
  obtain ⟨result, htranslated, rfl⟩ : ∃ result, Translated 7 ⟨true, true, 20⟩ audioReport result
      ∧ results = [result] := by
    cases hall with
    | cons hfirst hnil =>
        cases hnil
        exact ⟨_, hfirst, rfl⟩
  have hdelivered : onTransportData ⟨true, true, 20⟩ (compound [audioReport])
      = .ok (some (report [8] 1020)) := by decide +kernel
  have hresult : result = report [8] 1020 := by
    rw [hdelivered] at hcall
    simpa using (Option.some.inj (Except.ok.inj hcall)).symm
  have hbyte := htranslated.other 19 (by decide)
  rw [hresult] at hbyte
  revert hbyte
  decide

end FeedbackTranslator

end Licode.Media
