import Licode.Media.FecCompleteness
import Licode.Media.FecGenerator

/-!
# A frame with its FEC packets

`GenerateFEC` makes FEC packets for a frame, the network loses some packets and delays others, and the receiver gets
the rest. What it has called back for in the end is told by the masks alone: the packets of the frame that peeling
finds, each as it was sent.
-/

namespace Licode.Media.Fec

open Overlay

variable {s : Stream}

/-! ### An FEC packet on the wire -/

/-- The part of an FEC packet that its lengths tell of is all that counts. -/
theorem IsFec.congr {ssrc : UInt32} {fec pkt : Packet} (h : IsFec s ssrc fec)
    (hsame : ∀ i < payloadOffset fec + protectionLength fec, pkt.data.cell i = fec.data.cell i) :
    protectedPackets pkt = protectedPackets fec ∧ IsFec s ssrc pkt := by
  have hfits := h.protects.fits
  have hread : ∀ {offset count}, offset + count ≤ payloadOffset fec →
      read pkt.data.bytes offset count = read fec.data.bytes offset count := fun hle =>
    PacketData.read_eq (by omega) fun i hi => hsame i (by omega)
  have hoffset : payloadOffset fec = 12 + maskSize (lBitSet fec) := by
    rw [payloadOffset, ulpHeaderSize, kFecHeaderSize]
    omega
  have hlBit : lBitSet pkt = lBitSet fec := by rw [lBitSet, lBitSet, hsame 0 (by omega)]
  have hmask : pkt.mask = fec.mask := by rw [Packet.mask, Packet.mask, hlBit, hread (by omega)]
  have hnumber : parseSequenceNumber pkt = parseSequenceNumber fec := by
    rw [parseSequenceNumber, parseSequenceNumber, hread (by omega)]
  have hlength : protectionLength pkt = protectionLength fec := by
    rw [protectionLength, protectionLength, hread (by omega)]
  have hpayload : payloadOffset pkt = payloadOffset fec := by rw [payloadOffset, payloadOffset, hlBit]
  have hprotected : protectedPackets pkt = protectedPackets fec := by rw [protectedPackets, protectedPackets, hmask, hnumber]
  refine ⟨hprotected, h.ssrc, by rw [hprotected]; exact h.has, ?_⟩
  rw [hprotected]
  exact {
    fits := by rw [hpayload, hlength]; exact hfits
    covers := by rw [hlength]; exact h.protects.covers
    first := by rw [hsame 0 (by omega)]; exact h.protects.first
    header := fun i hi => by rw [hsame i (by omega)]; exact h.protects.header i hi
    payload := fun i hi => by
      rw [hlength] at hi
      rw [hpayload, hsame _ (by omega)]
      exact h.protects.payload i hi }

/-- An FEC packet comes out of its RED packet with all that counts. -/
theorem IsFec.wire {ssrc : UInt32} {fec : Packet} (h : IsFec s ssrc fec)
    (hlength : fec.length.toNat = payloadOffset fec + protectionLength fec) :
    protectedPackets (fecPacketOf fec.wire) = protectedPackets fec ∧ IsFec s ssrc (fecPacketOf fec.wire) := by
  have hfits := h.protects.fits
  have hwire : fec.wire.length = fec.length.toNat := List.length_take_of_le (by rw [fec.data.size]; omega)
  refine h.congr fun i hi => ?_
  change (PacketData.ofBytes fec.wire).cell i = _
  rw [PacketData.cell_ofBytes (by omega), Packet.wire, List.getD_eq_getElem?_getD, List.getElem?_take_of_lt (by omega),
    PacketData.cell, List.getD_eq_getElem?_getD]

/-! ### From the generator to the receiver -/

/-- A packet of a frame, or an FEC packet, by its place. -/
inductive FrameArrival
  | media (i : Nat)
  | fec (i : Nat)
  deriving DecidableEq

/-- The RED packet of an arrival. The numbers of the FEC packets follow those of the frame. -/
def BringsFrame (s : Stream) (base : UInt16) (numMedia : Nat) (fecs : List Packet) : FrameArrival → Datagram → Prop
  | .media i, d => i < numMedia ∧ s.SendsMedia (base + .ofNat i) d
  | .fec i, d => ∃ fec header, fecs[i]? = some fec ∧ getSeqNumber d.buf = base + .ofNat (numMedia + i)
      ∧ getHeaderLength header d.stale = header.length ∧ read header 8 4 = assignUWord32 s.ssrc
      ∧ header.length + fec.wire.length < 2 ^ 16 ∧ d.buf = redFec header fec.wire

/-- The places in the frame of the packets that an FEC packet protects. -/
def maskGroup (masks : List UInt8) (numMedia i : Nat) : List Nat :=
  (List.range numMedia).filter (maskBit (maskRow masks (decide (numMedia > 8 * kMaskSizeLBitClear)) i))

/-- What can be recovered of a frame, by the masks of the FEC packets that have come. -/
def RecoversFrame (masks : List UInt8) (numMedia : Nat) (arrivals : List FrameArrival) (i : Nat) : Prop :=
  Peeling.Recoverable {group | ∃ k, .fec k ∈ arrivals ∧ group = maskGroup masks numMedia k} {i | .media i ∈ arrivals} i

theorem toNat_add_ofNat {base : UInt16} {j : Nat} (h : base.toNat + j < 2 ^ 16) :
    (base + .ofNat j).toNat = base.toNat + j := by
  rw [UInt16.toNat_add, UInt16.toNat_ofNat']
  omega

theorem Stream.content_inj {n n' : UInt16} (hn : s.Has n) (hn' : s.Has n') (h : s.content n = s.content n') : n = n' := by
  have hnumber := hn.isMedia.number
  rw [h, hn'.isMedia.number] at hnumber
  rw [← bufferToUWord16_assign n, ← hnumber, bufferToUWord16_assign]

/-- The generated packets, each with its mask. -/
def GeneratedFor (s : Stream) (base : UInt16) (masks : List UInt8) (numMedia i : Nat) (fec : Packet) : Prop :=
  IsFec s s.ssrc fec ∧ parseSequenceNumber fec = base
    ∧ fec.mask = maskRow masks (decide (numMedia > 8 * kMaskSizeLBitClear)) i
    ∧ fec.length.toNat = payloadOffset fec + protectionLength fec

/-- The numbers that a generated packet protects. -/
theorem GeneratedFor.group {base : UInt16} {masks : List UInt8} {numMedia numFec i : Nat} {fec : Packet}
    (h : GeneratedFor s base masks numMedia i fec) (hfit : MasksFit masks numMedia numFec) (hfew : numMedia ≤ kMaxMediaPackets)
    (hi : i < numFec) :
    (protectedPackets (fecPacketOf fec.wire)).map ProtectedPacket.seqNum
      = (maskGroup masks numMedia i).map fun j => base + .ofNat j := by
  obtain ⟨hisFec, hbase, hmask, hlength⟩ := h
  rw [(hisFec.wire hlength).1, protectedPackets, hbase, hmask, maskOffsets_eq (hfit.le_row hfew hi) (hfit.none i hi),
    List.map_map]
  rfl

section FrameBatch

variable {base : UInt16} {packets fecs : List Packet} {masks : List UInt8} {numFec : Nat}

theorem generated_at (hfecs : List.Forall₂ (GeneratedFor s base masks packets.length) (List.range numFec) fecs) {i : Nat}
    (hi : i < numFec) : ∃ fec, fecs[i]? = some fec ∧ GeneratedFor s base masks packets.length i fec := by
  have hlength := hfecs.length_eq
  rw [List.length_range] at hlength
  have hgenerated := hfecs.get (i := i) (by rw [List.length_range]; exact hi) (by omega)
  rw [List.get_eq_getElem, List.getElem_range] at hgenerated
  exact ⟨fecs[i], List.getElem?_eq_getElem (by omega), hgenerated⟩

/-- The place of an FEC packet, by its number. -/
theorem place_of_number (hwrap : base.toNat + 2 * packets.length ≤ 2 ^ 16) (hle : numFec ≤ packets.length) {i : Nat}
    (hi : i < numFec) : (base + .ofNat (packets.length + i) - base).toNat - packets.length = i := by
  have hbase := base.toNat_lt
  rw [UInt16.toNat_sub, toNat_add_ofNat (by omega)]
  omega

/-- A frame and its FEC packets as a short stream. -/
def frameBatch (h : IsFrame s base packets) (honly : ∀ n, s.Has n → ∃ i < packets.length, n = base + .ofNat i)
    (hwrap : base.toNat + 2 * packets.length ≤ 2 ^ 16) (hle : numFec ≤ packets.length)
    (hfecs : List.Forall₂ (GeneratedFor s base masks packets.length) (List.range numFec) fecs) : Batch s where
  numbers := (List.range packets.length).map fun i => base + .ofNat i
  all n hn := by
    obtain ⟨i, hi, rfl⟩ := honly n hn
    exact List.mem_map_of_mem (List.mem_range.mpr hi)
  few := by
    rw [List.length_map, List.length_range]
    exact h.few
  fecNumbers := (List.range numFec).map fun i => base + .ofNat (packets.length + i)
  fewFecs := by
    rw [List.length_map, List.length_range]
    exact hle.trans h.few
  body k := ((fecs[(k - base).toNat - packets.length]?).map Packet.wire).getD []
  isFec k hk := by
    obtain ⟨i, hi, rfl⟩ := List.mem_map.mp hk
    obtain ⟨fec, hfec, hgenerated⟩ := generated_at hfecs (List.mem_range.mp hi)
    rw [place_of_number hwrap hle (List.mem_range.mp hi), hfec]
    exact (hgenerated.1.wire hgenerated.2.2.2).2
  near n hn k hk := by
    have hrange : ∀ n ∈ (List.range packets.length).map (fun i => base + .ofNat i)
        ++ (List.range numFec).map (fun i => base + .ofNat (packets.length + i)),
        ∃ j < 2 * packets.length, (n : UInt16).toNat = base.toNat + j := by
      intro n hn
      rcases List.mem_append.mp hn with hn | hn
      · obtain ⟨i, hi, rfl⟩ := List.mem_map.mp hn
        have hlt := List.mem_range.mp hi
        exact ⟨i, by omega, toNat_add_ofNat (by omega)⟩
      · obtain ⟨i, hi, rfl⟩ := List.mem_map.mp hn
        have hlt := List.mem_range.mp hi
        exact ⟨packets.length + i, by omega, toNat_add_ofNat (by omega)⟩
    have hfew : packets.length ≤ 48 := h.few
    obtain ⟨j, hj, hn⟩ := hrange n hn
    obtain ⟨j', hj', hk⟩ := hrange k (List.mem_append_right _ hk)
    omega

theorem group_frameBatch (h : IsFrame s base packets) (honly : ∀ n, s.Has n → ∃ i < packets.length, n = base + .ofNat i)
    (hwrap : base.toNat + 2 * packets.length ≤ 2 ^ 16) (hle : numFec ≤ packets.length)
    (hfecs : List.Forall₂ (GeneratedFor s base masks packets.length) (List.range numFec) fecs)
    (hfit : MasksFit masks packets.length numFec) {i : Nat} (hi : i < numFec) :
    (frameBatch h honly hwrap hle hfecs).group (base + .ofNat (packets.length + i))
      = (maskGroup masks packets.length i).map fun j => base + .ofNat j := by
  obtain ⟨fec, hfec, hgenerated⟩ := generated_at hfecs hi
  rw [← hgenerated.group hfit h.few hi, Batch.group]
  change List.map _ (protectedPackets (fecPacketOf (((fecs[_]?).map Packet.wire).getD []))) = _
  rw [place_of_number hwrap hle hi, hfec]
  rfl

/-- The arrivals of a frame, by their numbers. -/
def FrameArrival.numbered (base : UInt16) (numMedia : Nat) : FrameArrival → Arrival
  | .media i => .media (base + .ofNat i)
  | .fec i => .fec (base + .ofNat (numMedia + i))

theorem BringsFrame.brings (h : IsFrame s base packets) (honly : ∀ n, s.Has n → ∃ i < packets.length, n = base + .ofNat i)
    (hwrap : base.toNat + 2 * packets.length ≤ 2 ^ 16) (hle : numFec ≤ packets.length)
    (hfecs : List.Forall₂ (GeneratedFor s base masks packets.length) (List.range numFec) fecs) {a : FrameArrival} {d : Datagram}
    (hd : BringsFrame s base packets.length fecs a d) :
    (frameBatch h honly hwrap hle hfecs).Brings (a.numbered base packets.length) d := by
  cases a with
  | media i => exact hd.2
  | fec i =>
      obtain ⟨fec, header, hfec, hseq, hlength, hssrc, hshort, hbuf⟩ := hd
      have hlt : i < numFec := by
        have hlength := hfecs.length_eq
        rw [List.length_range] at hlength
        rw [hlength]
        exact (List.getElem?_eq_some_iff.mp hfec).1
      obtain ⟨fec', hfec', hgenerated⟩ := generated_at hfecs hlt
      obtain rfl : fec = fec' := Option.some_inj.mp (hfec.symm.trans hfec')
      have hwire := hgenerated.1.wire hgenerated.2.2.2
      have hbody : (frameBatch h honly hwrap hle hfecs).body (base + .ofNat (packets.length + i)) = fec.wire := by
        change ((fecs[_]?).map Packet.wire).getD [] = _
        rw [place_of_number hwrap hle hlt, hfec]
        rfl
      refine ⟨List.mem_map_of_mem (List.mem_range.mpr hlt), hseq, header, ?_⟩
      rw [hbody]
      refine ⟨hlength, hssrc, hshort, ?_, hwire.2, hbuf⟩
      exact (List.length_take_le' _ _).trans fec.data.size.le

/-- What can be recovered of a frame, by its numbers. -/
theorem recovers_frameBatch (h : IsFrame s base packets) (honly : ∀ n, s.Has n → ∃ i < packets.length, n = base + .ofNat i)
    (hwrap : base.toNat + 2 * packets.length ≤ 2 ^ 16) (hle : numFec ≤ packets.length)
    (hfecs : List.Forall₂ (GeneratedFor s base masks packets.length) (List.range numFec) fecs)
    (hfit : MasksFit masks packets.length numFec) {arrivals : List FrameArrival}
    (hmedia : ∀ i, .media i ∈ arrivals → i < packets.length) (hfec : ∀ i, .fec i ∈ arrivals → i < numFec) {i : Nat}
    (hi : i < packets.length) :
    (frameBatch h honly hwrap hle hfecs).Recovers (arrivals.map (FrameArrival.numbered base packets.length)) (base + .ofNat i)
      ↔ RecoversFrame masks packets.length arrivals i := by
  have hinj : Set.InjOn (fun j : Nat => base + UInt16.ofNat j) {j | j < packets.length} := by
    intro j hj j' hj' heq
    have hj : j < packets.length := hj
    have hj' : j' < packets.length := hj'
    have hnat : (base + UInt16.ofNat j).toNat = (base + UInt16.ofNat j').toNat := congrArg UInt16.toNat heq
    rw [toNat_add_ofNat (by omega), toNat_add_ofNat (by omega)] at hnat
    omega
  have hgroups : (frameBatch h honly hwrap hle hfecs).groups (arrivals.map (FrameArrival.numbered base packets.length))
      = List.map (fun j : Nat => base + UInt16.ofNat j)
        '' {group | ∃ k, .fec k ∈ arrivals ∧ group = maskGroup masks packets.length k} := by
    ext group
    constructor
    · rintro ⟨k, hk, rfl⟩
      obtain ⟨a, ha, heq⟩ := List.mem_map.mp hk
      cases a with
      | media j => cases heq
      | fec j =>
          cases heq
          exact ⟨_, ⟨j, ha, rfl⟩, (group_frameBatch h honly hwrap hle hfecs hfit (hfec j ha)).symm⟩
    · rintro ⟨_, ⟨k, hk, rfl⟩, rfl⟩
      exact ⟨_, List.mem_map_of_mem hk, (group_frameBatch h honly hwrap hle hfecs hfit (hfec k hk)).symm⟩
  have hknown : {n | .media n ∈ arrivals.map (FrameArrival.numbered base packets.length)}
      = (fun j : Nat => base + UInt16.ofNat j) '' {j | .media j ∈ arrivals} := by
    ext n
    constructor
    · intro hn
      obtain ⟨a, ha, heq⟩ := List.mem_map.mp hn
      cases a with
      | media j =>
          cases heq
          exact ⟨j, ha, rfl⟩
      | fec j => cases heq
    · rintro ⟨j, hj, rfl⟩
      exact List.mem_map.mpr ⟨.media j, hj, rfl⟩
  rw [Batch.Recovers, hgroups, hknown]
  refine Peeling.recoverable_map_iff hinj ?_ (fun j hj => hmedia j hj) hi
  rintro _ ⟨k, -, rfl⟩ j hj
  exact List.mem_range.mp (List.mem_of_mem_filter hj)

end FrameBatch

/-- **A frame over a lossy network.** Whatever comes of a frame and of the FEC packets that were generated for it, in
whatever order and however often, the receiver calls back for packets of the frame only, each as it was sent, and a
packet of the frame is among them exactly when peeling finds it by the masks. -/
theorem generateFEC_peels {base : UInt16} {packets : List Packet} {masks : Nat → Nat → List UInt8} {protectionFactor : UInt8}
    (h : IsFrame s base packets) (honly : ∀ n, s.Has n → ∃ i < packets.length, n = base + .ofNat i)
    (hwrap : base.toNat + 2 * packets.length ≤ 2 ^ 16)
    (hmasks : ∀ numFec ≤ packets.length, MasksFit (masks packets.length numFec) packets.length numFec) :
    ∃ fecs, generateFEC masks packets protectionFactor = .ok (some fecs) ∧ ∀ arrivals datagrams,
      List.Forall₂ (BringsFrame s base packets.length fecs) arrivals datagrams →
      ∃ r out, FecReceiverImpl.create.receiveAll datagrams = .ok (r, out)
        ∧ (∀ w ∈ out, ∃ i < packets.length, w = s.content (base + .ofNat i))
        ∧ ∀ i < packets.length, s.content (base + .ofNat i) ∈ out
            ↔ RecoversFrame (masks packets.length fecs.length) packets.length arrivals i := by
  obtain ⟨fecs, numFec, hle, -, hgenerate, hfecs⟩ := generateFEC_spec h hmasks protectionFactor
  have hlength := hfecs.length_eq
  rw [List.length_range] at hlength
  subst hlength
  refine ⟨fecs, hgenerate, fun arrivals datagrams hall => ?_⟩
  have hplaces : ∀ a ∈ arrivals, ∃ d, BringsFrame s base packets.length fecs a d := by
    intro a ha
    obtain ⟨i, hi, rfl⟩ := List.getElem_of_mem ha
    exact ⟨_, hall.get hi (by rw [← hall.length_eq]; exact hi)⟩
  have hmedia : ∀ i, .media i ∈ arrivals → i < packets.length := by
    intro i hi
    obtain ⟨d, hd⟩ := hplaces _ hi
    exact hd.1
  have hfec : ∀ i, .fec i ∈ arrivals → i < fecs.length := by
    intro i hi
    obtain ⟨d, fec, header, hfec, -⟩ := hplaces _ hi
    exact (List.getElem?_eq_some_iff.mp hfec).1
  have hbrings := List.forall₂_map_left_iff.mpr (hall.imp fun a d hd => hd.brings h honly hwrap hle hfecs)
  obtain ⟨r, out, hrun, hend⟩ := FecReceiverImpl.Progress.receiveAll (.inl FecReceiverImpl.peeled_create) hbrings
  have hout : ∀ w, w ∈ out ↔ ∃ n, (frameBatch h honly hwrap hle hfecs).Recovers
      (arrivals.map (FrameArrival.numbered base packets.length)) n ∧ s.sent n = some w := hend.out_iff
  refine ⟨r, out, hrun, fun w hw => ?_, fun i hi => ?_⟩
  · obtain ⟨n, -, hn⟩ := (hout w).mp hw
    obtain ⟨i, hi, rfl⟩ := honly n (by rw [Stream.Has, hn]; rfl)
    refine ⟨i, hi, ?_⟩
    rw [Stream.content, hn]
    rfl
  · have hhas := (h.known i hi).1
    rw [hout, ← recovers_frameBatch h honly hwrap hle hfecs (hmasks _ hle) hmedia hfec hi]
    constructor
    · rintro ⟨n, hn, heq⟩
      have hn' : s.Has n := by rw [Stream.Has, heq]; rfl
      rw [Stream.content_inj hhas hn' (by rw [Stream.content, Stream.content, heq]; rfl)]
      exact hn
    · exact fun hn => ⟨_, hn, hhas.sent_eq⟩

/-! ### The two packets as a frame -/

def pairPackets : List Packet := [⟨13, .ofBytes (pairContent 0)⟩, ⟨13, .ofBytes (pairContent 1)⟩]

/-- Masks that select both packets. -/
def pairMasks : List UInt8 := [0xc0, 0, 0xc0, 0, 0, 0, 0, 0, 0, 0, 0, 0]

theorem isFrame_pair : IsFrame pair 0 pairPackets where
  ne_nil := by simp [pairPackets]
  few := by decide
  known i hi := by
    have hi : i < 2 := hi
    obtain rfl | rfl : i = 0 ∨ i = 1 := by omega
    · exact ⟨by decide, rfl, by decide, fun i _ => PacketData.cell_ofBytes (by decide) i⟩
    · exact ⟨by decide, rfl, by decide, fun i _ => PacketData.cell_ofBytes (by decide) i⟩
  room packet hpacket := by
    have hlength : packet.length = 13 := by
      rcases List.mem_cons.mp hpacket with rfl | hpacket
      · rfl
      · rw [List.mem_singleton.mp hpacket]
    rw [hlength]
    decide

theorem masksFit_pair {numFec : Nat} (h : numFec ≤ 2) : MasksFit pairMasks 2 numFec where
  length := (Nat.mul_le_mul_right _ h).trans (by decide)
  some i hi := by
    obtain rfl | rfl : i = 0 ∨ i = 1 := by omega
    · exact ⟨0, by decide, by decide⟩
    · exact ⟨0, by decide, by decide⟩
  none i hi j hj := by
    have hall : ∀ i < 2, ∀ j < 16, 2 ≤ j →
        maskBit (maskRow pairMasks (decide (2 > 8 * kMaskSizeLBitClear)) i) j = false := by decide
    by_cases hin : j < 16
    · exact hall i (by omega) j hin hj
    · have hlength : (maskRow pairMasks (decide (2 > 8 * kMaskSizeLBitClear)) i).length ≤ 2 :=
        List.length_take_le _ _
      have hzero : bitSet 0 (j % 8) = false := by
        rw [bitSet]
        simp
      rw [maskBit, List.getD_eq_default _ _ (by omega), hzero]

theorem generateFEC_pair : ∃ fecs, generateFEC (fun _ _ => pairMasks) pairPackets 128 = .ok (some fecs) ∧ ∀ arrivals datagrams,
    List.Forall₂ (BringsFrame pair 0 2 fecs) arrivals datagrams →
    ∃ r out, FecReceiverImpl.create.receiveAll datagrams = .ok (r, out)
      ∧ (∀ w ∈ out, ∃ i < 2, w = pair.content (0 + .ofNat i))
      ∧ ∀ i < 2, pair.content (0 + .ofNat i) ∈ out ↔ RecoversFrame pairMasks 2 arrivals i := by
  refine generateFEC_peels isFrame_pair (fun n hn => ?_) (by decide) fun numFec hle => masksFit_pair hle
  rcases List.mem_cons.mp (pairBatch.all n hn) with rfl | hn
  · exact ⟨0, by decide, rfl⟩
  · exact ⟨1, by decide, List.mem_singleton.mp hn⟩

end Licode.Media.Fec
