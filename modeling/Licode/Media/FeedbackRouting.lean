import Licode.Media.RtcpBounds

/-!
# The way of feedback to the publisher

The feedback of a subscriber comes to the connection of the publisher, which queues it for the medium that
it is about. Which medium that is, is read from a fixed place of the packet: the source of the first block
or message, if the first sub-packet has one, and else whatever stands there.
-/

namespace Licode.Media

open Overlay Rtcp

/-- `analyzeFeedback` of a packet of `len` bytes in a buffer that is longer. -/
def RtcpForwarder.analyzeFeedbackIn (f : RtcpForwarder) (buf : List UInt8) (len : Nat) :
    Checked (Nat × List UInt8) := do
  let type ← getPacketType buf
  if type = receiverPT ∨ type = psFeedbackPT ∨ type = rtpFeedbackPT then
    let count ← getBlockCount buf
    let length ← rtcpLength buf
    if count = 0 ∧ length = len then return (0, buf)
    let _ ← getSourceSSRC buf
    let (buf', _) ← walk f.visit len 0 len buf
    return (len, buf')
  else return (0, buf)

/-- In a buffer that ends with the packet it is the same. -/
theorem RtcpForwarder.analyzeFeedbackIn_length (f : RtcpForwarder) (buf : List UInt8) :
    f.analyzeFeedbackIn buf buf.length = (fun r => (r.1, r.2.1)) <$> f.analyzeFeedback buf := by
  rw [analyzeFeedbackIn, analyzeFeedback, map_bind]
  congr 1
  funext type
  split
  · rw [map_bind]
    congr 1
    funext count
    rw [map_bind]
    congr 1
    funext length
    split
    · rfl
    · rw [map_bind]
      congr 1
      funext _
      rw [map_bind]
      rfl
  · rfl

inductive Medium where
  | video
  | audio
  deriving DecidableEq, Repr

def Medium.packetType : Medium → PacketType
  | .video => .video
  | .audio => .audio

/-- The members of the `WebRtcConnection` of a publisher that feedback meets; it is the source of its own
forwarder. -/
structure Publisher where
  rtcpProcessor : RtcpForwarder
  audioSourceSSRC : UInt32
  bundle : Bool
  queue : SendQueue

namespace Publisher

section Deliver

variable (externalPT : PacketType → UInt8 → UInt8)

/-- `WebRtcConnection::deliverFeedback_`. -/
def deliverFeedback (p : Publisher) (buf : List UInt8) (len : Nat) : Checked Publisher := do
  let (newLength, buf) ← p.rtcpProcessor.analyzeFeedbackIn buf len
  if newLength = 0 then return p
  let recvSSRC ← getSourceSSRC buf
  if recvSSRC = p.rtcpProcessor.videoSourceSSRC then
    return { p with queue := p.queue.queueData externalPT 0 (buf.take len) .video 0 }
  else if recvSSRC = p.audioSourceSSRC then
    return { p with queue := p.queue.queueData externalPT 0 (buf.take len) .audio 0 }
  else return p

end Deliver

def sourceSSRC (p : Publisher) : Medium → UInt32
  | .video => p.rtcpProcessor.videoSourceSSRC
  | .audio => p.audioSourceSSRC

/-- The transport to which `sendLoop` writes the packets of a type: `videoTransport_` or `audioTransport_`. -/
def transport (p : Publisher) (type : PacketType) : Medium :=
  if p.bundle = true ∨ type = .video then .video else .audio

/-- The medium that a source belongs to, as `deliverFeedback_` asks for it. -/
def mediumOf (p : Publisher) (ssrc : UInt32) : Option Medium :=
  if ssrc = p.sourceSSRC .video then some .video
  else if ssrc = p.sourceSSRC .audio then some .audio
  else none

end Publisher

/-! ### Well-formed packets -/

/-- The source of a feedback message, or one of the sources of a receiver report. -/
def Names (sub : SubPacket) (ssrc : UInt32) : Prop :=
  (sub.type = receiverPT ∧ ∃ block < sub.count, number (read sub.bytes (8 + 24 * block) 4) = ssrc.toNat)
    ∨ (sub.type = psFeedbackPT ∨ sub.type = rtpFeedbackPT) ∧ number (read sub.bytes 8 4) = ssrc.toNat

/-- Version 2, room for the blocks of a report, for the source of a feedback message and for the bit rate of a REMB
message. -/
structure WellFormed (sub : SubPacket) : Prop where
  version : number (read sub.bytes 0 1) / 64 = 2
  report : sub.type = receiverPT → 8 + 24 * sub.count ≤ sub.bytes.length
  feedback : sub.type = psFeedbackPT ∨ sub.type = rtpFeedbackPT → 12 ≤ sub.bytes.length
  remb : RtcpForwarder.IsRemb sub → 20 ≤ sub.bytes.length

section Buffers

variable {sub : SubPacket} {rest : List UInt8}

theorem typeOf_append (sub : SubPacket) (rest : List UInt8) : typeOf (sub.bytes ++ rest) = sub.type := by
  have hfour := sub.four_le
  rw [typeOf, read_append rest (by omega)]
  rfl

theorem countOf_append (sub : SubPacket) (rest : List UInt8) : countOf (sub.bytes ++ rest) = sub.count := by
  have hfour := sub.four_le
  rw [countOf, read_append rest (by omega)]
  rfl

theorem lengthOf_append (sub : SubPacket) (rest : List UInt8) : lengthOf (sub.bytes ++ rest) = sub.bytes.length := by
  have hfour := sub.four_le
  rw [lengthOf, read_append rest (by omega), sub.size]

/-- What is accessed at a sub-packet is in the buffer if it goes on for eight bytes. -/
theorem extent_le (hsub : WellFormed sub) (hrest : 8 ≤ rest.length) :
    RtcpForwarder.fields.extent (sub.bytes ++ rest) ≤ (sub.bytes ++ rest).length := by
  have hfour := sub.four_le
  have hreport := hsub.report
  have hfeedback := hsub.feedback
  rw [List.length_append, Fields.extent, typeOf_append, countOf_append]
  split_ifs with hr hs ht hps hremb
  · have := hreport hr
    change 12 ≤ _
    omega
  · change 4 ≤ _
    omega
  · change 4 ≤ _
    omega
  · have := hfeedback (.inl hps.1)
    omega
  · have := hfeedback (.inl hps.1)
    omega
  · change 4 ≤ _
    omega

/-- The identifier of a REMB message is not the beginning of a sub-packet, so what is written stays within the
sub-packet that it is for. -/
theorem forward_append (f : RtcpForwarder) (hsub : WellFormed sub) {next : SubPacket} (hnext : WellFormed next)
    (rest : List UInt8) :
    ∃ result : List UInt8, result.length = sub.bytes.length
      ∧ f.forward (sub.bytes ++ (next.bytes ++ rest)) = result ++ (next.bytes ++ rest) := by
  rw [RtcpForwarder.forward, typeOf_append, countOf_append]
  split_ifs with hreport hremb
  · have hroom := hsub.report hreport
    rw [write_append _ (by rw [length_image]; omega)]
    exact ⟨_, length_write _ _ _, rfl⟩
  · obtain ⟨hps, hafb, hid⟩ := hremb
    have htwelve := hsub.feedback (.inl hps)
    have hsize := sub.size
    by_cases hsixteen : 16 ≤ sub.bytes.length
    · rw [read_append _ (by omega)] at hid
      have hroom := hsub.remb ⟨hps, hafb, hid⟩
      rw [write_append _ (by rw [length_rembField]; omega)]
      exact ⟨_, length_write _ _ _, rfl⟩
    · -- the identifier would be the header of the next sub-packet
      exfalso
      have hlength : sub.bytes.length = 12 := by omega
      have hfour := next.four_le
      have hread : read (sub.bytes ++ (next.bytes ++ rest)) 12 4 = read next.bytes 0 4 := by
        rw [Overlay.read, ← hlength, List.drop_left, Overlay.read, List.drop_zero, List.take_append_of_le_length hfour]
      rw [hread] at hid
      have hfirst : read next.bytes 0 1 = [82] := by
        have htake := congrArg (List.take 1) hid
        rw [Overlay.read, List.take_take] at htake
        simpa [Overlay.read, rembId] using htake
      have hversion := hnext.version
      rw [hfirst] at hversion
      exact absurd hversion (by decide)
  · exact ⟨sub.bytes, rfl, rfl⟩

end Buffers

/-- The walk stays in the buffer. -/
theorem within_compound (f : RtcpForwarder) {subs : List SubPacket} (hne : subs ≠ []) (hsubs : ∀ sub ∈ subs, WellFormed sub)
    {tail : List UInt8} (htail : 8 ≤ tail.length) :
    Within RtcpForwarder.fields.extent f.forward (compound subs).length (compound subs ++ tail) := by
  induction subs with
  | nil => exact absurd rfl hne
  | cons sub more ih =>
      have hsub := hsubs sub List.mem_cons_self
      rw [compound_cons, List.append_assoc, within_iff, lengthOf_append]
      refine ⟨extent_le hsub (by rw [List.length_append]; omega), fun hmore => ?_⟩
      cases more with
      | nil => simp [compound] at hmore
      | cons next more =>
          have hrest : ∀ sub ∈ next :: more, WellFormed sub := fun sub hmem => hsubs sub (List.mem_cons_of_mem _ hmem)
          obtain ⟨result, hlength, hresult⟩ := forward_append f hsub (hrest next List.mem_cons_self) (compound more ++ tail)
          have hbehind := ih (List.cons_ne_nil _ _) hrest
          rw [compound_cons, List.append_assoc, hresult, ← hlength, List.drop_left, List.length_append, hlength,
            Nat.add_sub_cancel_left]
          rw [compound_cons, List.append_assoc] at hbehind
          exact hbehind

/-! ### What the walk leaves -/

/-- A buffer of the same length with the same first four bytes, and the same four at the place of the source. -/
structure Kept (buf buf' : List UInt8) : Prop where
  length : buf'.length = buf.length
  header : read buf' 0 4 = read buf 0 4
  source : read buf' 8 4 = read buf 8 4

theorem kept_forward (f : RtcpForwarder) (buf : List UInt8) : Kept buf (f.forward buf) := by
  rw [RtcpForwarder.forward]
  split_ifs
  · refine ⟨length_write _ _ _, read_write_before _ _ (by omega), read_write_after _ _ ?_⟩
    rw [length_image]
  · exact ⟨length_write _ _ _, read_write_before _ _ (by omega), read_write_before _ _ (by omega)⟩
  · exact ⟨rfl, rfl, rfl⟩

theorem visit_eq_forward {f : RtcpForwarder} {buf buf' : List UInt8} (h : f.visit buf = .ok buf')
    (hheader : 4 ≤ buf.length) : buf' = f.forward buf :=
  (f.needs_visit buf hheader).value h

/-- The walk changes neither the header of the first sub-packet nor the bytes that are read as its source, if it is
not shorter than a report without blocks. -/
theorem walk_keeps {f : RtcpForwarder} {fuel offset rest : Nat} {buf buf' : List UInt8} {offsets : List Nat}
    (h : walk f.visit fuel offset rest buf = .ok (buf', offsets)) (hrest : rest ≤ buf.length) :
    buf'.length = buf.length ∧ read buf' 0 4 = read buf 0 4 ∧ (8 ≤ lengthOf buf → read buf' 8 4 = read buf 8 4) := by
  induction fuel generalizing offset rest buf buf' offsets with
  | zero => cases h
  | succ fuel ih =>
      rw [walk] at h
      obtain ⟨length, hlength, h⟩ := exists_of_bind_ok h
      obtain ⟨visited, hvisited, h⟩ := exists_of_bind_ok h
      have hheader : 4 ≤ buf.length := by
        by_contra hshort
        rw [rtcpLength, load, if_neg (by omega)] at hlength
        cases hlength
      rw [rtcpLength_of_le hheader] at hlength
      obtain rfl : lengthOf buf = length := Except.ok.inj hlength
      have hkept : Kept buf visited := visit_eq_forward hvisited hheader ▸ kept_forward f buf
      by_cases hmore : lengthOf buf < rest
      · rw [if_pos hmore] at h
        obtain ⟨⟨behind, offsets'⟩, hwalk, h⟩ := exists_of_bind_ok h
        obtain ⟨rfl, -⟩ := Prod.mk.inj (Except.ok.inj h)
        have hin : lengthOf buf ≤ visited.length := by
          rw [hkept.length]
          omega
        have htake : (visited.take (lengthOf buf)).length = lengthOf buf := List.length_take_of_le hin
        have hfour : lengthOf buf % 4 = 0 ∧ 4 ≤ lengthOf buf := by
          rw [lengthOf]
          omega
        obtain ⟨hlen, hhead, -⟩ := ih hwalk (by rw [List.length_drop, hkept.length]; omega)
        refine ⟨?_, ?_, fun height => ?_⟩
        · rw [List.length_append, htake, hlen, List.length_drop, hkept.length]
          omega
        · rw [read_append _ (by omega), ← hkept.header, ← read_append (visited.drop (lengthOf buf)) (by omega),
            List.take_append_drop]
        · rw [← hkept.source]
          by_cases hown : 12 ≤ lengthOf buf
          · rw [read_append _ (by omega), ← read_append (visited.drop (lengthOf buf)) (by omega),
              List.take_append_drop]
          · -- the bytes are the header of the next sub-packet
            have hexact : lengthOf buf = 8 := by omega
            rw [hexact] at htake hhead ⊢
            calc read (visited.take 8 ++ behind) 8 4 = read behind 0 4 := by
                  rw [Overlay.read, List.drop_left' htake]
                  rfl
              _ = read (visited.drop 8) 0 4 := hhead
              _ = read visited 8 4 := rfl
      · rw [if_neg hmore] at h
        obtain ⟨rfl, -⟩ := Prod.mk.inj (Except.ok.inj h)
        exact ⟨hkept.length, hkept.header, fun _ => hkept.source⟩

/-! ### Where it is queued -/

namespace Publisher

section Deliver

variable (externalPT : PacketType → UInt8 → UInt8)

/-- A single sub-packet that counts nothing is taken for a report without blocks. -/
def Ignored (subs : List SubPacket) : Prop := ∃ sub, subs = [sub] ∧ sub.count = 0

/-- The SSRC at the place of a source. -/
def firstSource (subs : List SubPacket) : UInt32 := .ofNat (number (read (compound subs) 8 4))

/-- The publisher with a packet in its queue for the medium of a source, if it has one. -/
def queueFor (p : Publisher) (ssrc : UInt32) (data : List UInt8) : Publisher :=
  match p.mediumOf ssrc with
  | some medium => { p with queue := p.queue.queueData externalPT 0 data medium.packetType 0 }
  | none => p

theorem eight_le_first {first : SubPacket}
    (hfirst : first.type = receiverPT ∨ first.type = psFeedbackPT ∨ first.type = rtpFeedbackPT)
    (hsub : WellFormed first) : 8 ≤ first.bytes.length := by
  rcases hfirst with hreport | hfeedback
  · have hroom := hsub.report hreport
    omega
  · have hroom := hsub.feedback hfeedback
    omega

/-- A packet that is not ignored has bytes at the place of the source. -/
theorem twelve_le_compound {first : SubPacket} {more : List SubPacket}
    (hfirst : first.type = receiverPT ∨ first.type = psFeedbackPT ∨ first.type = rtpFeedbackPT)
    (hsub : WellFormed first) (hnot : ¬ Ignored (first :: more)) : 12 ≤ (compound (first :: more)).length := by
  rw [compound_cons, List.length_append]
  rcases hfirst with hreport | hfeedback
  · have hroom := hsub.report hreport
    by_cases hcount : first.count = 0
    · cases more with
      | nil => exact absurd ⟨first, rfl, hcount⟩ hnot
      | cons next more =>
          have hfour := next.four_le
          rw [compound_cons, List.length_append]
          omega
    · omega
  · have hroom := hsub.feedback hfeedback
    omega

/-- What `analyzeFeedback` makes of it. -/
theorem analyzeFeedbackIn_eq (f : RtcpForwarder) {first : SubPacket} {more : List SubPacket}
    (hfirst : first.type = receiverPT ∨ first.type = psFeedbackPT ∨ first.type = rtpFeedbackPT)
    (hsubs : ∀ sub ∈ first :: more, WellFormed sub) {tail : List UInt8} (htail : 8 ≤ tail.length) :
    (Ignored (first :: more) →
        f.analyzeFeedbackIn (compound (first :: more) ++ tail) (compound (first :: more)).length
          = .ok (0, compound (first :: more) ++ tail))
      ∧ (¬ Ignored (first :: more) → ∃ buf,
        f.analyzeFeedbackIn (compound (first :: more) ++ tail) (compound (first :: more)).length
            = .ok ((compound (first :: more)).length, buf)
          ∧ buf.length = (compound (first :: more) ++ tail).length
          ∧ read buf 8 4 = read (compound (first :: more) ++ tail) 8 4) := by
  have hwithin := within_compound f (List.cons_ne_nil first more) hsubs htail
  have height := eight_le_first hfirst (hsubs first List.mem_cons_self)
  have hlong := length_le_compound more
  set len := (compound (first :: more)).length with hlen
  set buf := compound (first :: more) ++ tail with hbuf
  have hsplit : buf = first.bytes ++ (compound more ++ tail) := by rw [hbuf, compound_cons, List.append_assoc]
  have hsize : len = first.bytes.length + (compound more).length := by rw [hlen, compound_cons, List.length_append]
  have hsingle : first.bytes.length = len ↔ more = [] := by
    constructor
    · intro h
      exact List.eq_nil_of_length_eq_zero (by omega)
    · rintro rfl
      simpa [compound] using hsize.symm
  have hstart : f.analyzeFeedbackIn buf len
      = if first.count = 0 ∧ first.bytes.length = len then .ok (0, buf)
        else (do
          let _ ← getSourceSSRC buf
          let (buf', _) ← walk f.visit len 0 len buf
          return (len, buf')) := by
    rw [RtcpForwarder.analyzeFeedbackIn, hsplit, first.getPacketType_append, Checked.ok_bind, if_pos hfirst,
      first.getBlockCount_append, Checked.ok_bind, first.rtcpLength_append, Checked.ok_bind]
    split_ifs <;> rfl
  rw [hstart]
  refine ⟨?_, ?_⟩
  · rintro ⟨sub, hsub, hcount⟩
    obtain ⟨rfl, rfl⟩ := List.cons.inj hsub
    rw [if_pos ⟨hcount, hsingle.mpr rfl⟩]
  · intro hnot
    have hwalk := (needs_walk (Fields.Valid.four_le_extent ⟨by decide, by decide, by decide, by decide⟩) f.needs_visit 0 buf
      (show 0 < len by omega) (le_refl len)).1 hwithin
    obtain ⟨⟨buf', offsets⟩, hwalk, -⟩ := hwalk
    obtain ⟨hlength, -, hsource⟩ := walk_keeps hwalk (by rw [hbuf, List.length_append]; omega)
    refine ⟨buf', ?_, hlength, hsource (by rw [hsplit, lengthOf_append]; exact height)⟩
    have hload : getSourceSSRC buf = .ok (.ofNat (number (read buf 8 4))) := by
      rw [getSourceSSRC, load, if_pos (by rw [hbuf, List.length_append]; omega)]
      rfl
    rw [if_neg fun h => hnot ⟨first, by rw [hsingle.mp h.2], h.1⟩, hload, hwalk]
    rfl

/-- A well-formed packet is ignored as a whole or goes where the SSRC at the place of its source says. -/
theorem deliverFeedback_eq (p : Publisher) {first : SubPacket} {more : List SubPacket}
    (hfirst : first.type = receiverPT ∨ first.type = psFeedbackPT ∨ first.type = rtpFeedbackPT)
    (hsubs : ∀ sub ∈ first :: more, WellFormed sub) {tail : List UInt8} (htail : 8 ≤ tail.length) :
    (Ignored (first :: more) →
        p.deliverFeedback externalPT (compound (first :: more) ++ tail) (compound (first :: more)).length = .ok p)
      ∧ (¬ Ignored (first :: more) → ∃ data,
        p.deliverFeedback externalPT (compound (first :: more) ++ tail) (compound (first :: more)).length
          = .ok (p.queueFor externalPT (firstSource (first :: more)) data)) := by
  obtain ⟨hignored, hanalyzed⟩ := analyzeFeedbackIn_eq p.rtcpProcessor hfirst hsubs htail
  refine ⟨fun h => ?_, fun hnot => ?_⟩
  · rw [deliverFeedback, hignored h]
    rfl
  · have hlong := twelve_le_compound hfirst (hsubs first List.mem_cons_self) hnot
    obtain ⟨buf, hanalyze, hlength, hsource⟩ := hanalyzed hnot
    have hload : getSourceSSRC buf = .ok (firstSource (first :: more)) := by
      rw [getSourceSSRC, load, if_pos (by rw [hlength, List.length_append]; omega), hsource, read_append _ (by omega)]
      rfl
    refine ⟨buf.take (compound (first :: more)).length, ?_⟩
    rw [deliverFeedback, hanalyze, Checked.ok_bind]
    dsimp only
    rw [if_neg (by omega), hload, Checked.ok_bind, queueFor, mediumOf, sourceSSRC,
      sourceSSRC]
    by_cases hvideo : firstSource (first :: more) = p.rtcpProcessor.videoSourceSSRC
    · rw [if_pos hvideo, if_pos hvideo]
      rfl
    by_cases haudio : firstSource (first :: more) = p.audioSourceSSRC
    · rw [if_neg hvideo, if_neg hvideo, if_pos haudio, if_pos haudio]
      rfl
    · rw [if_neg hvideo, if_neg hvideo, if_neg haudio, if_neg haudio]
      rfl

/-- The packet has been queued on the transport of a medium. -/
def QueuedOn (p p' : Publisher) (medium : Medium) : Prop :=
  ∃ packet, p'.queue.sendQueue = p.queue.sendQueue ++ [packet]
    ∧ p.transport packet.type = p.transport medium.packetType

theorem queuedOn_queueFor_iff {p : Publisher} (hsending : p.queue.sending = true)
    (hroom : p.queue.sendQueue.length < 1000) (ssrc : UInt32) (data : List UInt8) (medium : Medium) :
    p.QueuedOn (p.queueFor externalPT ssrc data) medium
      ↔ ∃ other, p.mediumOf ssrc = some other ∧ p.transport other.packetType = p.transport medium.packetType := by
  rw [queueFor]
  cases hmedium : p.mediumOf ssrc with
  | none =>
      simp only [QueuedOn, reduceCtorEq, false_and, exists_false, iff_false, not_exists, not_and]
      intro packet hqueue
      exact absurd (congrArg List.length hqueue) (by simp)
  | some other =>
      have hqueue : (p.queue.queueData externalPT 0 data other.packetType 0).sendQueue
          = p.queue.sendQueue ++ [SendQueue.packetFor externalPT 0 data other.packetType 0] := by
        rw [SendQueue.queueData, if_neg (by simp [hsending]), if_neg (by decide), if_pos hroom]
      constructor
      · rintro ⟨packet, happend, htransport⟩
        rw [hqueue] at happend
        obtain rfl := List.append_cancel_left happend |> List.cons.inj |> And.left
        exact ⟨other, rfl, htransport⟩
      · rintro ⟨_, ⟨⟩, htransport⟩
        exact ⟨_, hqueue, htransport⟩

/-- **Feedback is not lost** just if the packet is not taken for an empty report and the SSRC at the place of its first
source belongs to a medium on the transport of each medium that it is about. -/
theorem feedback_queued_iff (p : Publisher) (hsending : p.queue.sending = true)
    (hroom : p.queue.sendQueue.length < 1000) {first : SubPacket} {more : List SubPacket}
    (hfirst : first.type = receiverPT ∨ first.type = psFeedbackPT ∨ first.type = rtpFeedbackPT)
    (hsubs : ∀ sub ∈ first :: more, WellFormed sub) {tail : List UInt8} (htail : 8 ≤ tail.length) :
    (∃ p', p.deliverFeedback externalPT (compound (first :: more) ++ tail) (compound (first :: more)).length = .ok p'
        ∧ ∀ medium, (∃ sub ∈ first :: more, Names sub (p.sourceSSRC medium)) → p.QueuedOn p' medium)
      ↔ ∀ medium, (∃ sub ∈ first :: more, Names sub (p.sourceSSRC medium)) →
          ¬ Ignored (first :: more) ∧ ∃ other, p.mediumOf (firstSource (first :: more)) = some other
            ∧ p.transport other.packetType = p.transport medium.packetType := by
  obtain ⟨hignored, hqueued⟩ := deliverFeedback_eq externalPT p hfirst hsubs htail
  by_cases hcase : Ignored (first :: more)
  · rw [hignored hcase]
    constructor
    · rintro ⟨p', hp', hall⟩ medium hnamed
      cases hp'
      obtain ⟨packet, hqueue, -⟩ := hall medium hnamed
      exact absurd (congrArg List.length hqueue) (by simp)
    · intro h
      exact ⟨p, rfl, fun medium hnamed => absurd hcase (h medium hnamed).1⟩
  · obtain ⟨data, hdeliver⟩ := hqueued hcase
    rw [hdeliver]
    constructor
    · rintro ⟨p', hp', hall⟩ medium hnamed
      cases hp'
      exact ⟨hcase, (queuedOn_queueFor_iff externalPT hsending hroom _ data medium).mp (hall medium hnamed)⟩
    · intro h
      refine ⟨_, rfl, fun medium hnamed => ?_⟩
      exact (queuedOn_queueFor_iff externalPT hsending hroom _ data medium).mpr (h medium hnamed).2

end Deliver

/-- A publisher of a video source 7 and an audio source 8, which share a transport. -/
def example78 : Publisher := ⟨⟨7, 55543, 44444, 300000⟩, 8, true, .create⟩

/-- A report about the video comes first. -/
theorem feedback_queued_report :
    (∃ sub ∈ [RtcpForwarder.reportAbout7, RtcpForwarder.rembMessage], Names sub (example78.sourceSSRC .video))
      ∧ ∃ p', example78.deliverFeedback (fun _ type => type)
          (compound [RtcpForwarder.reportAbout7, RtcpForwarder.rembMessage] ++ List.replicate 8 0)
          (compound [RtcpForwarder.reportAbout7, RtcpForwarder.rembMessage]).length = .ok p'
        ∧ example78.QueuedOn p' .video := by
  have hsubs : ∀ sub ∈ [RtcpForwarder.reportAbout7, RtcpForwarder.rembMessage], WellFormed sub := by
    intro sub hmem
    rcases List.mem_cons.mp hmem with rfl | hmem
    · exact ⟨by decide, by decide, by decide, fun h => absurd h.1 (by decide)⟩
    · obtain rfl := List.mem_singleton.mp hmem
      exact ⟨by decide, by decide, by decide, fun _ => by decide⟩
  have hnamed : ∃ sub ∈ [RtcpForwarder.reportAbout7, RtcpForwarder.rembMessage], Names sub (example78.sourceSSRC .video) :=
    ⟨RtcpForwarder.reportAbout7, by simp, .inl ⟨by decide, 0, by decide, by decide⟩⟩
  have hnot : ¬ Ignored [RtcpForwarder.reportAbout7, RtcpForwarder.rembMessage] := by
    rintro ⟨sub, hsingle, -⟩
    cases hsingle
  obtain ⟨p', hdeliver, hqueued⟩ := (feedback_queued_iff (fun _ type => type) example78 rfl (by decide) (by decide) hsubs
    (show 8 ≤ (List.replicate 8 0).length by decide)).mpr fun medium _ =>
      ⟨hnot, .video, by decide, by cases medium <;> rfl⟩
  exact ⟨hnamed, p', hdeliver, hqueued .video hnamed⟩

/-- A report without blocks. -/
def emptyReport : SubPacket where
  bytes := [0x80, 201, 0, 1, 0, 0, 0, 1]
  size := by decide

/-- A request for a keyframe of the source 7. -/
def pliAbout7 : SubPacket where
  bytes := [0x81, 206, 0, 2, 0, 0, 0, 1, 0, 0, 0, 7]
  size := by decide

/-- The header of the request is taken for the source. -/
theorem feedback_lost :
    WellFormed emptyReport ∧ WellFormed pliAbout7 ∧ Names pliAbout7 (example78.sourceSSRC .video)
      ∧ example78.deliverFeedback (fun _ type => type) (compound [emptyReport, pliAbout7] ++ List.replicate 8 0)
          (compound [emptyReport, pliAbout7]).length = .ok example78 :=
  ⟨⟨by decide, by decide, by decide, fun h => absurd h.1 (by decide)⟩,
    ⟨by decide, by decide, by decide, fun h => absurd h.2.1 (by decide)⟩, .inr ⟨by decide, by decide⟩, rfl⟩

end Publisher

end Licode.Media
