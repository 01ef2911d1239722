import Licode.Lib.Outcome
import Licode.Media.FeedbackTranslation
import Licode.Media.RtcpAggregator
import Licode.Media.RtcpForwarder
import Licode.Media.Stats

/-!
# The bounds of the walks

Four loops walk over a compound packet. None of them compares the place of a field with the end of the
packet: the lengths in the headers say where the next sub-packet begins, and a walk ends only where a
sub-packet would begin behind the end. So a walk stays inside just if every sub-packet that it comes to
has what is read of its type before the end, whatever its own length says.
-/

namespace Licode.Media

open Overlay Rtcp

namespace Rtcp

/-! ### Fields -/

section Fields

variable {buf : List UInt8} {offset width : Nat}

theorem needs_load (buf : List UInt8) (offset width : Nat) :
    Needs .outOfBounds (offset + width ≤ buf.length) (· = read buf offset width) (load buf offset width) := by
  rw [load]
  split_ifs with h
  · exact .ok h rfl
  · exact .error h

theorem needs_store (buf : List UInt8) (offset : Nat) (field : List UInt8) :
    Needs .outOfBounds (offset + field.length ≤ buf.length) (· = write buf offset field) (store buf offset field) := by
  rw [store]
  split_ifs with h
  · exact .ok h rfl
  · exact .error h

/-- A field that is read is part of what is needed. -/
theorem needs_load_bind {α : Type} {needs : Prop} {post : α → Prop} {f : List UInt8 → Checked α}
    (hpart : needs → offset + width ≤ buf.length)
    (hf : offset + width ≤ buf.length → Needs .outOfBounds needs post (f (read buf offset width))) :
    Needs .outOfBounds needs post (load buf offset width >>= f) :=
  (needs_load buf offset width).bind hpart fun hin _ hfield => hfield ▸ hf hin

/-- The same of a value that is made from the field. -/
theorem needs_get_bind {α β : Type} {needs : Prop} {post : β → Prop} {x : Checked α} {value : List UInt8 → α}
    {f : α → Checked β} (hx : x = (do let field ← load buf offset width; return value field))
    (hpart : needs → offset + width ≤ buf.length)
    (hf : offset + width ≤ buf.length → Needs .outOfBounds needs post (f (value (read buf offset width)))) :
    Needs .outOfBounds needs post (x >>= f) := by
  rw [hx, bind_assoc]
  exact needs_load_bind hpart hf

end Fields

/-- The length that the header of a sub-packet gives. -/
def lengthOf (buf : List UInt8) : Nat := (number (read buf 2 2) + 1) * 4

def typeOf (buf : List UInt8) : Nat := number (read buf 1 1)

def countOf (buf : List UInt8) : Nat := number (read buf 0 1) % 32

theorem rtcpLength_of_le {buf : List UInt8} (h : 4 ≤ buf.length) : rtcpLength buf = .ok (lengthOf buf) := by
  rw [rtcpLength, load, if_pos (by omega)]
  rfl

theorem getPacketType_of_le {buf : List UInt8} (h : 4 ≤ buf.length) : getPacketType buf = .ok (typeOf buf) := by
  rw [getPacketType, load, if_pos (by omega)]
  rfl

theorem getBlockCount_of_le {buf : List UInt8} (h : 4 ≤ buf.length) : getBlockCount buf = .ok (countOf buf) := by
  rw [getBlockCount, load, if_pos (by omega)]
  rfl

/-! ### The chain of sub-packets -/

/-- The places that a walk comes to, each with the bytes from there on and the number of those that have not been
seen. `rewrite` is what is done to the bytes at a place before the walk goes on. -/
inductive Reached (rewrite : List UInt8 → List UInt8) : Nat → List UInt8 → Nat → List UInt8 → Prop
  | here (rest : Nat) (buf : List UInt8) : Reached rewrite rest buf rest buf
  | behind {rest : Nat} {buf : List UInt8} {rest' : Nat} {buf' : List UInt8} (hmore : lengthOf buf < rest)
      (hreached : Reached rewrite (rest - lengthOf buf) ((rewrite buf).drop (lengthOf buf)) rest' buf') :
      Reached rewrite rest buf rest' buf'

/-- At every place there are as many bytes as are accessed there. -/
def Within (extent : List UInt8 → Nat) (rewrite : List UInt8 → List UInt8) (rest : Nat) (buf : List UInt8) : Prop :=
  ∀ rest' buf', Reached rewrite rest buf rest' buf' → extent buf' ≤ buf'.length

theorem within_iff {extent : List UInt8 → Nat} {rewrite : List UInt8 → List UInt8} {rest : Nat} {buf : List UInt8} :
    Within extent rewrite rest buf ↔ extent buf ≤ buf.length ∧ (lengthOf buf < rest →
      Within extent rewrite (rest - lengthOf buf) ((rewrite buf).drop (lengthOf buf))) := by
  constructor
  · intro h
    exact ⟨h _ _ (.here _ _), fun hmore rest' buf' hreached => h _ _ (.behind hmore hreached)⟩
  · rintro ⟨hhere, hbehind⟩ rest' buf' hreached
    cases hreached with
    | here => exact hhere
    | behind hmore hreached => exact hbehind hmore _ _ hreached

/-- The first part of a turn of the loops reads the length. -/
theorem needs_rtcpLength_bind {α : Type} {extent : List UInt8 → Nat} (hextent : ∀ buf, 4 ≤ extent buf) {needs : Prop}
    {post : α → Prop} {f : Nat → Checked α} {buf : List UInt8} (hpart : needs → extent buf ≤ buf.length)
    (hf : 4 ≤ buf.length → Needs .outOfBounds needs post (f (lengthOf buf))) :
    Needs .outOfBounds needs post (rtcpLength buf >>= f) := by
  by_cases hheader : 4 ≤ buf.length
  · rw [rtcpLength_of_le hheader]
    exact hf hheader
  · have hshort : rtcpLength buf = .error .outOfBounds := by
      rw [rtcpLength, load, if_neg (by omega)]
      rfl
    rw [hshort]
    exact Needs.error fun h => hheader ((hextent buf).trans (hpart h))

section Walk

variable {extent : List UInt8 → Nat} (hextent : ∀ buf, 4 ≤ extent buf)

include hextent

theorem needs_walk {visit : List UInt8 → Checked (List UInt8)} {rewrite : List UInt8 → List UInt8}
    (hvisit : ∀ buf, 4 ≤ buf.length → Needs .outOfBounds (extent buf ≤ buf.length) (· = rewrite buf) (visit buf))
    {fuel : Nat} (offset : Nat) {rest : Nat} (buf : List UInt8) (hpos : 0 < rest) (hfuel : rest ≤ fuel) :
    Needs .outOfBounds (Within extent rewrite rest buf) (fun _ => True) (walk visit fuel offset rest buf) := by
  induction fuel generalizing offset rest buf with
  | zero => omega
  | succ fuel ih =>
      have hfour : 4 ≤ lengthOf buf := by
        rw [lengthOf]
        omega
      refine needs_rtcpLength_bind hextent (fun h => (within_iff.mp h).1) fun hheader => ?_
      refine (hvisit buf hheader).bind (fun h => (within_iff.mp h).1) fun hhere buf' hbuf' => ?_
      subst hbuf'
      by_cases hmore : lengthOf buf < rest
      · have hneeds : Within extent rewrite rest buf
            ↔ Within extent rewrite (rest - lengthOf buf) ((rewrite buf).drop (lengthOf buf)) := by
          rw [within_iff]
          exact ⟨fun h => h.2 hmore, fun h => ⟨hhere, fun _ => h⟩⟩
        rw [if_pos hmore, propext hneeds]
        exact (ih _ _ (by omega) (by omega)).bind id fun hbehind _ _ => .ok hbehind trivial
      · rw [if_neg hmore]
        exact .ok (within_iff.mpr ⟨hhere, fun h => absurd h hmore⟩) trivial

theorem needs_scan {σ : Type} {visit : σ → List UInt8 → Checked σ}
    (hvisit : ∀ s buf, 4 ≤ buf.length →
      Needs .outOfBounds (extent buf ≤ buf.length) (fun _ => True) (visit s buf))
    {fuel rest : Nat} (s : σ) (buf : List UInt8) (hpos : 0 < rest) (hfuel : rest ≤ fuel) :
    Needs .outOfBounds (Within extent id rest buf) (fun _ => True) (scan visit fuel rest s buf) := by
  induction fuel generalizing rest s buf with
  | zero => omega
  | succ fuel ih =>
      have hfour : 4 ≤ lengthOf buf := by
        rw [lengthOf]
        omega
      refine needs_rtcpLength_bind hextent (fun h => (within_iff.mp h).1) fun hheader => ?_
      refine (hvisit s buf hheader).bind (fun h => (within_iff.mp h).1) fun hhere s' _ => ?_
      by_cases hmore : lengthOf buf < rest
      · have hneeds : Within extent id rest buf
            ↔ Within extent id (rest - lengthOf buf) (buf.drop (lengthOf buf)) := by
          rw [within_iff]
          exact ⟨fun h => h.2 hmore, fun h => ⟨hhere, fun _ => h⟩⟩
        rw [if_pos hmore, propext hneeds]
        exact ih s' _ (by omega) (by omega)
      · rw [if_neg hmore]
        exact .ok (within_iff.mpr ⟨hhere, fun h => absurd h hmore⟩) trivial

end Walk

/-! ### How far the fields reach -/

/-- How far the fields that a walk accesses reach into a sub-packet, by its type. A walk that looks for REMB messages
compares the identifier of application-layer feedback, and where it matches goes on to the bit rate. -/
structure Fields where
  other : Nat
  report : Nat
  senderReport : Nat
  rtpFeedback : Nat
  remb : Bool

def Fields.extent (fields : Fields) (buf : List UInt8) : Nat :=
  if typeOf buf = receiverPT then fields.report
  else if typeOf buf = senderPT then fields.senderReport
  else if typeOf buf = rtpFeedbackPT then fields.rtpFeedback
  else if typeOf buf = psFeedbackPT ∧ countOf buf = afbFMT ∧ fields.remb = true then
    if read buf 12 4 = rembId then 20 else 16
  else fields.other

/-- Every walk reads the length. -/
structure Fields.Valid (fields : Fields) : Prop where
  other : 4 ≤ fields.other
  report : 4 ≤ fields.report
  senderReport : 4 ≤ fields.senderReport
  rtpFeedback : 4 ≤ fields.rtpFeedback

theorem Fields.Valid.four_le_extent {fields : Fields} (h : fields.Valid) (buf : List UInt8) : 4 ≤ fields.extent buf := by
  have hother := h.other
  have hreport := h.report
  have hsender := h.senderReport
  have hrtp := h.rtpFeedback
  rw [Fields.extent]
  split_ifs <;> omega

def mantissaOf (buf : List UInt8) : UInt32 := UInt32.ofNat (number (read buf 17 3) * 256) >>> 8 &&& 0x3FFFF

def expOf (buf : List UInt8) : UInt32 := UInt32.ofNat (number (read buf 17 3) * 256) >>> 26

section Extent

variable {fields : Fields} {buf : List UInt8}

theorem extent_report (h : typeOf buf = receiverPT) : fields.extent buf = fields.report := if_pos h

theorem extent_senderReport (h : typeOf buf = senderPT) : fields.extent buf = fields.senderReport := by
  rw [Fields.extent, if_neg (by rw [h]; decide), if_pos h]

theorem extent_rtpFeedback (h : typeOf buf = rtpFeedbackPT) : fields.extent buf = fields.rtpFeedback := by
  rw [Fields.extent, if_neg (by rw [h]; decide), if_neg (by rw [h]; decide), if_pos h]

theorem extent_afb (htype : typeOf buf = psFeedbackPT) (hcount : countOf buf = afbFMT) (hremb : fields.remb = true) :
    fields.extent buf = if read buf 12 4 = rembId then 20 else 16 := by
  rw [Fields.extent, if_neg (by rw [htype]; decide), if_neg (by rw [htype]; decide), if_neg (by rw [htype]; decide),
    if_pos ⟨htype, hcount, hremb⟩]

theorem extent_other (hreport : typeOf buf ≠ receiverPT) (hsender : typeOf buf ≠ senderPT)
    (hrtp : typeOf buf ≠ rtpFeedbackPT) (hafb : ¬ (typeOf buf = psFeedbackPT ∧ countOf buf = afbFMT ∧ fields.remb = true)) :
    fields.extent buf = fields.other := by
  rw [Fields.extent, if_neg hreport, if_neg hsender, if_neg hrtp, if_neg hafb]

/-- What is done with application-layer feedback. -/
theorem needs_afb {α : Type} {post : α → Prop} {found : UInt32 → UInt32 → Checked α} {otherwise : Checked α}
    (hextent : fields.extent buf = if read buf 12 4 = rembId then 20 else 16)
    (hfound : read buf 12 4 = rembId → 20 ≤ buf.length →
      Needs .outOfBounds (fields.extent buf ≤ buf.length) post (found (mantissaOf buf) (expOf buf)))
    (hother : read buf 12 4 ≠ rembId → 16 ≤ buf.length →
      Needs .outOfBounds (fields.extent buf ≤ buf.length) post otherwise) :
    Needs .outOfBounds (fields.extent buf ≤ buf.length) post (do
      let uniqueId ← load buf 12 4
      if uniqueId = rembId then
        let mantissa ← getBrMantis buf
        let exp ← getBrExp buf
        found mantissa exp
      else otherwise) := by
  have hmatch : fields.extent buf ≤ buf.length → 16 ≤ buf.length := by
    rw [hextent]
    split_ifs <;> omega
  refine needs_load_bind hmatch fun hin => ?_
  by_cases hremb : read buf 12 4 = rembId
  · rw [if_pos hremb]
    have hrate : fields.extent buf ≤ buf.length → 20 ≤ buf.length := by
      rw [hextent, if_pos hremb]
      exact id
    by_cases hlong : 20 ≤ buf.length
    · have hfield : brLength buf = .ok (.ofNat (number (read buf 17 3) * 256)) := by
        rw [brLength, load, if_pos (by omega)]
        rfl
      rw [getBrMantis, getBrExp, hfield]
      exact hfound hremb hlong
    · have hfault : brLength buf = .error .outOfBounds := by
        rw [brLength, load, if_neg (by omega)]
        rfl
      rw [getBrMantis, hfault]
      exact Needs.error fun h => hlong (hrate h)
  · rw [if_neg hremb]
    exact hother hremb hin

end Extent

end Rtcp

/-! ### The four walks -/

namespace RtcpForwarder

def fields : Fields := ⟨4, 12, 4, 4, true⟩

/-- What the loop leaves of the bytes from a sub-packet on. -/
def forward (f : RtcpForwarder) (chead : List UInt8) : List UInt8 :=
  if typeOf chead = receiverPT then
    write chead 4 (image 4 (f.sinkSSRC (.ofNat (number (read chead 8 4)))).toNat)
  else if typeOf chead = psFeedbackPT ∧ countOf chead = afbFMT ∧ read chead 12 4 = rembId then
    write chead 17 (rembField (f.cappedBitrate (Rtcp.mantissaOf chead) (Rtcp.expOf chead)))
  else chead

theorem needs_visit (f : RtcpForwarder) (chead : List UInt8) (hheader : 4 ≤ chead.length) :
    Needs .outOfBounds (fields.extent chead ≤ chead.length) (· = f.forward chead) (f.visit chead) := by
  rw [visit, getPacketType_of_le hheader, Checked.ok_bind, forward]
  by_cases hreport : typeOf chead = receiverPT
  · rw [if_pos hreport, if_pos hreport, extent_report hreport]
    refine needs_get_bind (show getSourceSSRC chead = _ from rfl) id fun hin => ?_
    have hstore := needs_store chead 4 (image 4 (f.sinkSSRC (.ofNat (number (read chead 8 4)))).toNat)
    rw [length_image] at hstore
    exact hstore.congr ⟨fun _ => hin, fun _ => by omega⟩
  rw [if_neg hreport, if_neg hreport]
  by_cases hps : typeOf chead = psFeedbackPT
  · rw [if_pos hps, getBlockCount_of_le hheader, Checked.ok_bind]
    by_cases hafb : countOf chead = afbFMT
    · rw [if_pos hafb]
      have hextent : fields.extent chead = _ := extent_afb hps hafb rfl
      refine needs_afb hextent ?_ ?_
      · intro hremb hlong
        rw [if_pos ⟨hps, hafb, hremb⟩]
        have hstore := needs_store chead 17 (rembField (f.cappedBitrate (Rtcp.mantissaOf chead) (Rtcp.expOf chead)))
        rw [length_rembField] at hstore
        rw [hextent, if_pos hremb]
        exact hstore
      · intro hremb hin
        rw [if_neg fun h => hremb h.2.2, hextent, if_neg hremb]
        exact .ok hin rfl
    · rw [if_neg hafb, if_neg fun h => hafb h.2.1,
        extent_other hreport (by rw [hps]; decide) (by rw [hps]; decide) fun h => hafb h.2.1]
      exact .ok hheader rfl
  · have hextent : fields.extent chead = 4 := by
      rw [Fields.extent, if_neg hreport]
      split_ifs with hsender hrtp hafb
      · rfl
      · rfl
      · exact absurd hafb.1 hps
      · exact absurd hafb.1 hps
      · rfl
    rw [if_neg hps, if_neg fun h => hps h.1, hextent]
    exact .ok hheader rfl

end RtcpForwarder

namespace FeedbackTranslator

def fields : Fields := ⟨4, 20, 4, 14, false⟩

/-- What the loop leaves of the bytes from a sub-packet on. -/
def translate (c : FeedbackTranslator) (chead : List UInt8) : List UInt8 :=
  match cell (typeOf chead) with
  | none => chead
  | some place => write chead place (image 2 (number (read chead place 2) + c.seqNoOffset.toNat))

theorem extent_eq (chead : List UInt8) :
    fields.extent chead = match cell (typeOf chead) with
      | none => 4
      | some place => place + 2 := by
  rw [cell]
  by_cases hreport : typeOf chead = receiverPT
  · rw [if_pos hreport, extent_report hreport]
    rfl
  by_cases hrtp : typeOf chead = rtpFeedbackPT
  · rw [if_neg hreport, if_pos hrtp, extent_rtpFeedback hrtp]
    rfl
  · rw [if_neg hreport, if_neg hrtp, Fields.extent, if_neg hreport, if_neg hrtp]
    split_ifs with hsender hafb
    · rfl
    · exact absurd hafb.2.2 (by decide)
    · exact absurd hafb.2.2 (by decide)
    · rfl

theorem needs_visit (c : FeedbackTranslator) (chead : List UInt8) (hheader : 4 ≤ chead.length) :
    Needs .outOfBounds (fields.extent chead ≤ chead.length) (· = c.translate chead) (c.visit chead) := by
  rw [visit_eq, getPacketType_of_le hheader, Checked.ok_bind, raiseCell, translate, extent_eq]
  cases cell (typeOf chead) with
  | none => exact .ok hheader rfl
  | some place =>
      refine needs_load_bind id fun hin => ?_
      have hstore := needs_store chead place (image 2 (number (read chead place 2) + c.seqNoOffset.toNat))
      rw [length_image] at hstore
      exact hstore

end FeedbackTranslator

namespace Stats

def fields : Fields := ⟨8, 24, 28, 8, true⟩

theorem needs_processPsFeedback (s : Stats) (ssrc : UInt32) {chead : List UInt8} (hheader : 8 ≤ chead.length)
    (hps : typeOf chead = psFeedbackPT) :
    Needs .outOfBounds (fields.extent chead ≤ chead.length) (fun _ => True) (s.processPsFeedback ssrc chead) := by
  rw [processPsFeedback, getBlockCount_of_le (by omega), Checked.ok_bind]
  by_cases hafb : countOf chead = afbFMT
  · have hextent : fields.extent chead = _ := extent_afb hps hafb rfl
    rw [if_neg (by rw [hafb]; decide), if_neg (by rw [hafb]; decide), if_neg (by rw [hafb]; decide), if_pos hafb]
    refine needs_afb hextent (fun hremb hlong => ?_) fun hremb hin => ?_
    · rw [hextent, if_pos hremb]
      exact .ok hlong trivial
    · rw [hextent, if_neg hremb]
      exact .ok hin trivial
  · have hextent : fields.extent chead = 8 :=
      extent_other (by rw [hps]; decide) (by rw [hps]; decide) (by rw [hps]; decide) fun h => hafb h.2.1
    rw [hextent, if_neg hafb]
    split_ifs <;> exact .ok hheader trivial

theorem needs_processRtcpHeader (s : Stats) (chead : List UInt8) (hheader : 4 ≤ chead.length) :
    Needs .outOfBounds (fields.extent chead ≤ chead.length) (fun _ => True) (s.processRtcpHeader chead) := by
  have height : 8 ≤ fields.extent chead := by
    rw [Fields.extent]
    split_ifs <;> decide
  refine needs_get_bind (show getSSRC chead = _ from rfl) height.trans fun hssrc => ?_
  rw [getPacketType_of_le hheader, Checked.ok_bind]
  by_cases hreport : typeOf chead = receiverPT
  · rw [if_pos hreport, extent_report hreport, processReceiverReport]
    refine needs_get_bind (show getFractionLost chead = _ from rfl) (le_trans (by decide)) fun _ => ?_
    refine needs_get_bind (show getLostPackets chead = _ from rfl) (le_trans (by decide)) fun _ => ?_
    refine needs_get_bind (show getJitter chead = _ from rfl) id fun hin => ?_
    refine needs_get_bind (show getSourceSSRC chead = _ from rfl) (le_trans (by decide)) fun _ => ?_
    exact .ok hin trivial
  by_cases hsender : typeOf chead = senderPT
  · rw [if_neg hreport, if_pos hsender, extent_senderReport hsender, processSenderReport]
    refine needs_get_bind (show getPacketsSent chead = _ from rfl) (le_trans (by decide)) fun _ => ?_
    refine needs_get_bind (show getOctetsSent chead = _ from rfl) id fun hin => ?_
    exact .ok hin trivial
  by_cases hrtp : typeOf chead = rtpFeedbackPT
  · rw [if_neg hreport, if_neg hsender, if_pos hrtp, extent_rtpFeedback hrtp]
    exact .ok hssrc trivial
  by_cases hps : typeOf chead = psFeedbackPT
  · rw [if_neg hreport, if_neg hsender, if_neg hrtp, if_pos hps]
    exact s.needs_processPsFeedback _ hssrc hps
  · rw [if_neg hreport, if_neg hsender, if_neg hrtp, if_neg hps,
      extent_other hreport hsender hrtp fun h => hps h.1]
    exact .ok hssrc trivial

end Stats

namespace RtcpData

def fields : Fields := ⟨4, 32, 4, 16, true⟩

theorem needs_receiverReport (now : Timeval) (d : RtcpData) (delay : UInt32) (chead : List UInt8) :
    Needs .outOfBounds (32 ≤ chead.length) (fun _ => True) (receiverReport now d delay chead) := by
  refine needs_get_bind (show getSourceSSRC chead = _ from rfl) (le_trans (by decide)) fun _ => ?_
  refine needs_get_bind (show getFractionLost chead = _ from rfl) (le_trans (by decide)) fun _ => ?_
  refine needs_get_bind (show getLostPackets chead = _ from rfl) (le_trans (by decide)) fun _ => ?_
  refine needs_get_bind (show getSeqnumCycles chead = _ from rfl) (le_trans (by decide)) fun _ => ?_
  refine needs_get_bind (show getHighestSeqnum chead = _ from rfl) (le_trans (by decide)) fun _ => ?_
  refine needs_get_bind (show getJitter chead = _ from rfl) (le_trans (by decide)) fun _ => ?_
  refine needs_get_bind (show getLastSr chead = _ from rfl) (le_trans (by decide)) fun _ => ?_
  refine needs_get_bind (show getDelaySinceLastSr chead = _ from rfl) id fun hin => ?_
  exact .ok hin trivial

theorem needs_rtpFeedback (d : RtcpData) (chead : List UInt8) :
    Needs .outOfBounds (16 ≤ chead.length) (fun _ => True) (d.rtpFeedback chead) := by
  refine needs_get_bind (show getNackBlp chead = _ from rfl) id fun hin => ?_
  refine needs_get_bind (show getNackPid chead = _ from rfl) (le_trans (by decide)) fun _ => ?_
  exact .ok hin trivial

theorem needs_psFeedback (defaultVideoBw : UInt32) (d : RtcpData) {chead : List UInt8} (hheader : 4 ≤ chead.length)
    (hps : typeOf chead = psFeedbackPT) :
    Needs .outOfBounds (fields.extent chead ≤ chead.length) (fun _ => True) (d.psFeedback defaultVideoBw chead) := by
  rw [psFeedback, getBlockCount_of_le (by omega), Checked.ok_bind]
  by_cases hafb : countOf chead = afbFMT
  · have hextent : fields.extent chead = _ := extent_afb hps hafb rfl
    rw [if_neg (by rw [hafb]; decide), if_pos hafb]
    refine needs_afb hextent (fun hremb hlong => ?_) fun hremb hin => ?_
    · rw [hextent, if_pos hremb]
      exact .ok hlong trivial
    · rw [hextent, if_neg hremb]
      exact .ok hin trivial
  · have hextent : fields.extent chead = 4 :=
      extent_other (by rw [hps]; decide) (by rw [hps]; decide) (by rw [hps]; decide) fun h => hafb h.2.1
    rw [hextent, if_neg hafb]
    split_ifs <;> exact .ok hheader trivial

theorem needs_visit (defaultVideoBw : UInt32) (now : Timeval) (s : RtcpData × UInt32) (chead : List UInt8)
    (hheader : 4 ≤ chead.length) :
    Needs .outOfBounds (fields.extent chead ≤ chead.length) (fun _ => True) (visit defaultVideoBw now s chead) := by
  rw [visit, getPacketType_of_le hheader, Checked.ok_bind]
  by_cases hreport : typeOf chead = receiverPT
  · rw [if_pos hreport, extent_report hreport]
    exact needs_receiverReport now s.1 s.2 chead
  by_cases hrtp : typeOf chead = rtpFeedbackPT
  · rw [if_neg hreport, if_pos hrtp, extent_rtpFeedback hrtp]
    exact (s.1.needs_rtpFeedback chead).bind id fun hin _ _ => .ok hin trivial
  by_cases hps : typeOf chead = psFeedbackPT
  · rw [if_neg hreport, if_neg hrtp, if_pos hps]
    exact (s.1.needs_psFeedback defaultVideoBw hheader hps).bind id fun hin _ _ => .ok hin trivial
  · have hextent : fields.extent chead = 4 := by
      by_cases hsender : typeOf chead = senderPT
      · exact extent_senderReport hsender
      · exact extent_other hreport hsender hrtp fun h => hps h.1
    rw [if_neg hreport, if_neg hrtp, if_neg hps, hextent]
    exact .ok hheader trivial

end RtcpData

/-! ### The bounds -/

abbrev IsFeedbackType (buf : List UInt8) : Prop :=
  typeOf buf = receiverPT ∨ typeOf buf = psFeedbackPT ∨ typeOf buf = rtpFeedbackPT

/-- Feedback that is not a report without blocks and nothing else, for which the walks over feedback begin. -/
def IsAnalyzed (buf : List UInt8) : Prop :=
  IsFeedbackType buf ∧ ¬ (countOf buf = 0 ∧ lengthOf buf = buf.length)

instance (buf : List UInt8) : Decidable (IsAnalyzed buf) := inferInstanceAs (Decidable (_ ∧ ¬ _))

/-- What comes before the walks over feedback. -/
theorem needs_analyze {α : Type} {buf : List UInt8} (hlen : 8 ≤ buf.length) {needs : Prop} {post : α → Prop} {ignored : α}
    {analyzed : UInt32 → Checked α} (hpost : post ignored)
    (hneeds : ∀ source, Needs .outOfBounds needs post (analyzed source)) :
    Needs .outOfBounds (IsAnalyzed buf → 12 ≤ buf.length ∧ needs) post (do
      let type ← getPacketType buf
      if type = receiverPT ∨ type = psFeedbackPT ∨ type = rtpFeedbackPT then
        let count ← getBlockCount buf
        let length ← rtcpLength buf
        if count = 0 ∧ length = buf.length then return ignored
        let source ← getSourceSSRC buf
        analyzed source
      else return ignored) := by
  rw [getPacketType_of_le (by omega), Checked.ok_bind]
  by_cases hfeedback : IsFeedbackType buf
  · rw [if_pos hfeedback, getBlockCount_of_le (by omega), Checked.ok_bind, rtcpLength_of_le (by omega), Checked.ok_bind]
    by_cases hempty : countOf buf = 0 ∧ lengthOf buf = buf.length
    · rw [if_pos hempty]
      exact .ok (fun h => absurd hempty h.2) hpost
    · have hwhole : (IsAnalyzed buf → 12 ≤ buf.length ∧ needs) ↔ 12 ≤ buf.length ∧ needs :=
        ⟨fun h => h ⟨hfeedback, hempty⟩, fun h _ => h⟩
      rw [if_neg hempty, propext hwhole]
      refine needs_get_bind (show getSourceSSRC buf = _ from rfl) And.left fun hsource => ?_
      exact (hneeds _).congr ⟨fun h => ⟨hsource, h⟩, And.right⟩
  · rw [if_neg hfeedback]
    exact .ok (fun h => absurd h.1 hfeedback) hpost

theorem needs_analyzeFeedback (f : RtcpForwarder) {buf : List UInt8} (hlen : 8 ≤ buf.length) :
    Needs .outOfBounds
      (IsAnalyzed buf → 12 ≤ buf.length ∧ Within RtcpForwarder.fields.extent f.forward buf.length buf)
      (fun _ => True) (f.analyzeFeedback buf) := by
  refine needs_analyze hlen trivial fun _ => ?_
  refine (needs_walk (Fields.Valid.four_le_extent ⟨by decide, by decide, by decide, by decide⟩)
    f.needs_visit 0 buf (by omega) le_rfl).bind id fun hwithin _ _ => ?_
  exact .ok hwithin trivial

theorem needs_processRtcpPacket (s : Stats) {buf : List UInt8} (hlen : 8 ≤ buf.length) :
    Needs .outOfBounds (Within Stats.fields.extent id buf.length buf) (fun _ => True) (s.processRtcpPacket buf) :=
  needs_scan (Fields.Valid.four_le_extent ⟨by decide, by decide, by decide, by decide⟩)
    Stats.needs_processRtcpHeader s buf (by omega) le_rfl

/-- Feedback that is renumbered. -/
def IsTranslated (c : FeedbackTranslator) (buf : List UInt8) : Prop :=
  IsFeedbackType buf ∧ c.hasFbSink = true ∧ c.shouldSendFeedback = true ∧ c.seqNoOffset > 0

theorem needs_onTransportData (c : FeedbackTranslator) {buf : List UInt8} (hlen : 8 ≤ buf.length) :
    Needs .outOfBounds
      (IsTranslated c buf → Within FeedbackTranslator.fields.extent c.translate buf.length buf)
      (fun _ => True) (c.onTransportData buf) := by
  rw [FeedbackTranslator.onTransportData, getPacketType_of_le (by omega), Checked.ok_bind]
  by_cases hfeedback : IsFeedbackType buf
  · rw [if_pos hfeedback]
    by_cases hsink : c.hasFbSink = true ∧ c.shouldSendFeedback = true
    · rw [if_pos hsink]
      by_cases hoffset : c.seqNoOffset > 0
      · rw [if_pos hoffset]
        have hwalk := needs_walk (Fields.Valid.four_le_extent ⟨by decide, by decide, by decide, by decide⟩)
          c.needs_visit 0 buf (show 0 < buf.length by omega) le_rfl
        refine (hwalk.bind id fun hwithin _ _ => Needs.ok hwithin trivial).congr ?_
        exact ⟨fun h _ => h, fun h => h ⟨hfeedback, hsink.1, hsink.2, hoffset⟩⟩
      · rw [if_neg hoffset]
        exact .ok (fun h => absurd h.2.2.2 hoffset) trivial
    · rw [if_neg hsink]
      exact .ok (fun h => absurd ⟨h.2.1, h.2.2.1⟩ hsink) trivial
  · rw [if_neg hfeedback]
    exact .ok (fun h => absurd h.1 hfeedback) trivial

theorem needs_aggregate (a : RtcpAggregator) (now : Timeval) (delay : UInt32) {buf : List UInt8} (hlen : 8 ≤ buf.length) :
    Needs .outOfBounds (IsAnalyzed buf → 12 ≤ buf.length ∧ Within RtcpData.fields.extent id buf.length buf)
      (fun _ => True) (a.analyzeFeedback now delay buf) := by
  refine needs_analyze hlen trivial fun source => ?_
  refine (needs_scan (Fields.Valid.four_le_extent ⟨by decide, by decide, by decide, by decide⟩)
    (RtcpData.needs_visit a.defaultVideoBw now) _ buf (by omega) le_rfl).bind id fun hwithin _ _ => ?_
  exact .ok hwithin trivial

/-- **The walks stay inside** just if each sub-packet they come to has all that is read of its type before the end of
the packet, and feedback the source of its first block. -/
theorem walks_inside_iff (f : RtcpForwarder) (s : Stats) (c : FeedbackTranslator) (a : RtcpAggregator) (now : Timeval)
    (delay : UInt32) {buf : List UInt8} (hlen : 8 ≤ buf.length) :
    ((∃ r, f.analyzeFeedback buf = .ok r)
        ↔ (IsAnalyzed buf → 12 ≤ buf.length ∧ Within RtcpForwarder.fields.extent f.forward buf.length buf))
      ∧ ((∃ r, s.processRtcpPacket buf = .ok r) ↔ Within Stats.fields.extent id buf.length buf)
      ∧ ((∃ r, c.onTransportData buf = .ok r)
        ↔ (IsTranslated c buf → Within FeedbackTranslator.fields.extent c.translate buf.length buf))
      ∧ ((∃ r, a.analyzeFeedback now delay buf = .ok r)
        ↔ (IsAnalyzed buf → 12 ≤ buf.length ∧ Within RtcpData.fields.extent id buf.length buf)) :=
  ⟨(needs_analyzeFeedback f hlen).returns_iff, (needs_processRtcpPacket s hlen).returns_iff,
    (needs_onTransportData c hlen).returns_iff, (needs_aggregate a now delay hlen).returns_iff⟩

/-- A receiver report with one block is long enough for all of them. -/
theorem walks_inside_report :
    (∃ r, RtcpForwarder.analyzeFeedback ⟨7, 55543, 44444, 300000⟩ RtcpForwarder.reportAbout7.bytes = .ok r)
      ∧ (∃ r, Stats.create.processRtcpPacket RtcpForwarder.reportAbout7.bytes = .ok r)
      ∧ (∃ r, FeedbackTranslator.onTransportData ⟨true, true, 5⟩ RtcpForwarder.reportAbout7.bytes = .ok r)
      ∧ ∃ r, RtcpAggregator.analyzeFeedback ⟨8, 300000, fun _ => none⟩ 0 0 RtcpForwarder.reportAbout7.bytes = .ok r := by
  have hall := walks_inside_iff ⟨7, 55543, 44444, 300000⟩ Stats.create ⟨true, true, 5⟩ ⟨8, 300000, fun _ => none⟩ 0 0
    (show 8 ≤ RtcpForwarder.reportAbout7.bytes.length by decide)
  refine ⟨hall.1.mpr fun _ => ⟨by decide, ?_⟩, hall.2.1.mpr ?_, hall.2.2.1.mpr fun _ => ?_,
    hall.2.2.2.mpr fun _ => ⟨by decide, ?_⟩⟩
  all_goals exact within_iff.mpr ⟨by decide, fun h => absurd h (by decide)⟩

/-- A report without blocks, as a browser sends it, is too short for the statistics and the renumbering, and a report
that announces a block and does not have it is for the others. -/
theorem walks_outside :
    Stats.create.processRtcpPacket [0x80, 201, 0, 1, 0, 0, 0, 1] = .error .outOfBounds
      ∧ FeedbackTranslator.onTransportData ⟨true, true, 5⟩ [0x80, 201, 0, 1, 0, 0, 0, 1] = .error .outOfBounds
      ∧ RtcpForwarder.analyzeFeedback ⟨7, 55543, 44444, 300000⟩ [0x81, 201, 0, 1, 0, 0, 0, 1] = .error .outOfBounds
      ∧ RtcpAggregator.analyzeFeedback ⟨8, 300000, fun _ => none⟩ 0 0 [0x81, 201, 0, 1, 0, 0, 0, 1]
        = .error .outOfBounds :=
  ⟨rfl, rfl, rfl, rfl⟩

end Licode.Media
