import Licode.Lib.Parity
import Licode.Media.FecReceiver

/-!
# What an FEC packet gives back

The bit string of a packet is what FEC protects of it: the first two bytes, the timestamp, the length of
what follows the header, and that itself. An FEC packet has the parity of the bit strings of its packets.
With all of them but one at hand, `RecoverPacket` makes the missing one, whose version, number and SSRC are
not part of its bit string.
-/

namespace Licode.Media.Fec

open Overlay

/-! ### Bit strings -/

/-- The bit string of a packet. Places 2 and 3 are those of the sequence number, and are not used. -/
def bitString (w : List UInt8) (i : Nat) : UInt8 :=
  if i < 8 then w.getD i 0
  else if i < 10 then (assignUWord16 (.ofNat (w.length - kRtpHeaderSize))).getD (i - 8) 0
  else w.getD (i + 2) 0

/-- The parity of some packets at a place of their bit strings. -/
def parityOf (ws : List (List UInt8)) (i : Nat) : UInt8 :=
  Parity.parity (fun a b : UInt8 => a ^^^ b) 0 (ws.map fun w => bitString w i)

def protectionLength (pkt : Packet) : Nat := (bufferToUWord16 (read pkt.data.bytes 10 2)).toNat

/-- Where the payload of an FEC packet begins. -/
def payloadOffset (pkt : Packet) : Nat := kFecHeaderSize + ulpHeaderSize (lBitSet pkt)

/-- An FEC packet is made from these packets. Its E and L bits are its own. -/
structure Protects (pkt : Packet) (ws : List (List UInt8)) : Prop where
  fits : payloadOffset pkt + protectionLength pkt ≤ ipPacketSize
  covers : ∀ w ∈ ws, w.length ≤ kRtpHeaderSize + protectionLength pkt
  first : pkt.data.cell 0 &&& 0x3f = parityOf ws 0 &&& 0x3f
  header : ∀ i, i = 1 ∨ 4 ≤ i ∧ i < 10 → pkt.data.cell i = parityOf ws i
  payload : ∀ i < protectionLength pkt, pkt.data.cell (payloadOffset pkt + i) = parityOf ws (10 + i)

/-! ### The first byte -/

theorem or_version (x : UInt8) : (x ||| 0x80) &&& 0xbf = (x &&& 0x3f) ||| 0x80 := by
  have h : ∀ x : BitVec 8, (x ||| 0x80) &&& 0xbf = (x &&& 0x3f) ||| 0x80 := by decide +kernel
  exact UInt8.toBitVec_inj.mp (h x.toBitVec)

theorem low_or_high (x : UInt8) : (x &&& 0x3f) ||| (x &&& 0xc0) = x := by
  have h : ∀ x : BitVec 8, (x &&& 0x3f) ||| (x &&& 0xc0) = x := by decide +kernel
  exact UInt8.toBitVec_inj.mp (h x.toBitVec)

theorem xor_and_distrib (x y z : UInt8) : (x ^^^ y) &&& z = (x &&& z) ^^^ (y &&& z) := by
  apply UInt8.toBitVec_inj.mp
  apply BitVec.eq_of_getElem_eq
  intro i hi
  simp [Bool.and_xor_distrib_right]

/-- The version that `FinishRecovery` sets is that of the packet. -/
theorem version_restored {first w : UInt8} (hlow : first &&& 0x3f = w &&& 0x3f) (hversion : w &&& 0xc0 = 0x80) :
    (first ||| 0x80) &&& 0xbf = w := by
  rw [or_version, hlow, ← hversion, low_or_high]

/-! ### The steps of a recovery -/

/-- A packet that is being recovered, as a bit string. -/
def Recovery.bits (r : Recovery) (i : Nat) : UInt8 :=
  if i < 8 then r.data.cell i else if i < 10 then r.lengthRecovery.getD (i - 8) 0 else r.data.cell (i + 2)

/-- A place of a bit string that is used. -/
def Used (i : Nat) : Prop := i < 2 ∨ 4 ≤ i

/-- A recovery with the SSRC in its place. -/
structure Recovery.Ready (ssrc : UInt32) (r : Recovery) : Prop where
  length : r.lengthRecovery.length = 2
  ssrc : ∀ i < 4, r.data.cell (8 + i) = (assignUWord32 ssrc).getD i 0

/-- What an FEC packet with its parity gives to begin with. -/
theorem initRecovery_spec {fec : FecPacket} {ws : List (List UInt8)} (h : Protects fec.pkt ws) :
    ∃ r, initRecovery fec = .ok r ∧ r.Ready fec.ssrc ∧ r.bits 0 = fec.pkt.data.cell 0 ∧
      ∀ i, Used i → i ≠ 0 → r.bits i = if i < 10 + protectionLength fec.pkt then parityOf ws i else 0 := by
  have hfits := h.fits
  have hoffset : 14 ≤ payloadOffset fec.pkt := by
    rw [payloadOffset, ulpHeaderSize, maskSize]
    cases lBitSet fec.pkt <;> decide
  have hsize : ipPacketSize = 1500 := rfl
  have hload := PacketData.load_of_le hfits fec.pkt.data
  have hfield := PacketData.length_read (d := fec.pkt.data) hfits
  have hread : ∀ {offset count : Nat}, offset + count ≤ 12 → (read fec.pkt.data.bytes offset count).length = count :=
    fun hle => PacketData.length_read (by omega)
  have hheader : kRtpHeaderSize = 12 := rfl
  obtain ⟨d₁, hd₁, hcell₁⟩ := PacketData.store_of_le .zero kRtpHeaderSize
    (read fec.pkt.data.bytes (payloadOffset fec.pkt) (protectionLength fec.pkt)) (by omega)
  obtain ⟨d₂, hd₂, hcell₂⟩ := PacketData.store_of_le d₁ 0
    (read fec.pkt.data.bytes 0 2) (by rw [hread (by omega)]; omega)
  obtain ⟨d₃, hd₃, hcell₃⟩ := PacketData.store_of_le d₂ 4
    (read fec.pkt.data.bytes 4 4) (by rw [hread (by omega)]; omega)
  obtain ⟨d₄, hd₄, hcell₄⟩ := PacketData.store_of_le d₃ 8
    (assignUWord32 fec.ssrc) (by rw [assignUWord32, length_image]; omega)
  rw [hread (by omega)] at hcell₂ hcell₃
  rw [hfield] at hcell₁
  rw [assignUWord32, length_image] at hcell₄
  refine ⟨⟨d₄, read fec.pkt.data.bytes 8 2, 0⟩, ?_, ⟨hread (by omega), fun i hi => ?_⟩, ?_, fun i hused hi => ?_⟩
  · rw [initRecovery]
    change (fec.pkt.data.load (payloadOffset fec.pkt) (protectionLength fec.pkt) >>= _) = _
    rw [hload, Checked.ok_bind, hd₁, Checked.ok_bind, hd₂, Checked.ok_bind, hd₃, Checked.ok_bind, hd₄]
    rfl
  · rw [hcell₄, if_pos (by omega), Nat.add_sub_cancel_left]
    rfl
  · change d₄.cell 0 = _
    rw [hcell₄, if_neg (by omega), hcell₃, if_neg (by omega), hcell₂, if_pos (by omega),
      PacketData.getD_read (by omega)]
  · rcases hused with hlow | hhigh
    · obtain rfl : i = 1 := by omega
      change d₄.cell 1 = _
      rw [hcell₄, if_neg (by omega), hcell₃, if_neg (by omega), hcell₂, if_pos (by omega),
        PacketData.getD_read (by omega), if_pos (by omega)]
      exact h.header 1 (.inl rfl)
    · rw [Recovery.bits]
      dsimp only
      by_cases h8 : i < 8
      · rw [if_pos h8, if_pos (by omega), hcell₄, if_neg (by omega), hcell₃, if_pos (by omega),
          PacketData.getD_read (by omega), Nat.add_sub_cancel' hhigh]
        exact h.header i (.inr ⟨hhigh, by omega⟩)
      · rw [if_neg h8]
        by_cases h10 : i < 10
        · rw [if_pos h10, if_pos (by omega), PacketData.getD_read (by omega), Nat.add_sub_cancel' (by omega)]
          exact h.header i (.inr ⟨hhigh, h10⟩)
        · rw [if_neg h10, hcell₄, if_neg (by omega), hcell₃, if_neg (by omega), hcell₂, if_neg (by omega), hcell₁]
          by_cases hin : i < 10 + protectionLength fec.pkt
          · have hpayload := h.payload (i - 10) (by omega)
            rw [Nat.add_sub_cancel' (by omega)] at hpayload
            rw [if_pos (by omega), if_pos hin, PacketData.getD_read (by omega), ← hpayload]
            rfl
          · rw [if_neg (by omega), if_neg hin, PacketData.cell_zero]

/-- A packet is combined with the recovery as a bit string. -/
theorem xorPackets_spec {src : Packet} {w : List UInt8} {dst : Recovery} {ssrc : UInt32} (h : src.Carries w)
    (hheader : kRtpHeaderSize ≤ w.length) (hdst : dst.Ready ssrc) :
    ∃ r, xorPackets src dst = .ok r ∧ r.Ready ssrc ∧ r.seqNum = dst.seqNum ∧
      ∀ i, Used i → r.bits i = dst.bits i ^^^ bitString w i := by
  have hsize : ipPacketSize = 1500 := rfl
  have hfits := h.fits
  have hrtp : kRtpHeaderSize = 12 := rfl
  have hlength := h.length
  obtain ⟨d₁, hd₁, hcell₁⟩ := PacketData.xorBytes_of_le src.data dst.data 0 2
    (Nat.zero_le _) (by omega)
  obtain ⟨d₂, hd₂, hcell₂⟩ := PacketData.xorBytes_of_le src.data d₁ 4 4
    (Nat.zero_le _) (by omega)
  obtain ⟨d₃, hd₃, hcell₃⟩ := PacketData.xorBytes_of_le src.data d₂ kRtpHeaderSize
    (src.length.toNat - kRtpHeaderSize) (Nat.zero_le _) (by omega)
  have hvalue : src.length - .ofNat kRtpHeaderSize = .ofNat (w.length - kRtpHeaderSize) := by
    apply UInt16.toNat_inj.mp
    rw [UInt16.toNat_sub, UInt16.toNat_ofNat', UInt16.toNat_ofNat']
    omega
  have hbytes : (assignUWord16 (src.length - .ofNat kRtpHeaderSize)).length = 2 := length_image _ _
  refine ⟨⟨d₃, List.zipWith (· ^^^ ·) dst.lengthRecovery (assignUWord16 (src.length - .ofNat kRtpHeaderSize)),
    dst.seqNum⟩, ?_, ⟨?_, fun i hi => ?_⟩, rfl, fun i hused => ?_⟩
  · rw [xorPackets, hd₁, Checked.ok_bind, hd₂, Checked.ok_bind, hd₃]
    rfl
  · rw [List.length_zipWith, hdst.length, hbytes, Nat.min_self]
  · rw [hcell₃, if_neg (by omega), hcell₂, if_neg (by omega), hcell₁, if_neg (by omega)]
    exact hdst.ssrc i hi
  · rw [Recovery.bits, Recovery.bits, bitString]
    dsimp only
    by_cases h8 : i < 8
    · rw [if_pos h8, if_pos h8, if_pos h8, ← h.bytes i (by omega), hcell₃, if_neg (by omega), hcell₂, hcell₁]
      rcases hused with hlow | hhigh
      · rw [if_neg (by omega), if_pos (by omega), Nat.sub_zero]
      · rw [if_pos (by omega), if_neg (by omega), Nat.sub_zero]
    · rw [if_neg h8, if_neg h8, if_neg h8]
      by_cases h10 : i < 10
      · rw [if_pos h10, if_pos h10, if_pos h10, ← hvalue, List.getD_eq_getElem?_getD, List.getD_eq_getElem?_getD,
          List.getD_eq_getElem?_getD, List.getElem?_zipWith, List.getElem?_eq_getElem (by rw [hdst.length]; omega),
          List.getElem?_eq_getElem (by omega)]
        rfl
      · rw [if_neg h10, if_neg h10, if_neg h10, hcell₃]
        by_cases hin : i + 2 < w.length
        · rw [if_pos (by omega), hcell₂, if_neg (by omega), hcell₁, if_neg (by omega), Nat.sub_zero,
            h.bytes (i + 2) hin]
        · rw [if_neg (by omega), hcell₂, if_neg (by omega), hcell₁, if_neg (by omega),
            List.getD_eq_default w _ (by omega), UInt8.xor_zero]

/-! ### The missing packet -/

/-- A media packet with its number and the SSRC of its stream. -/
structure IsMedia (ssrc : UInt32) (n : UInt16) (w : List UInt8) : Prop where
  header : kRtpHeaderSize ≤ w.length
  fits : w.length ≤ ipPacketSize
  version : w.getD 0 0 &&& 0xc0 = 0x80
  number : read w 2 2 = assignUWord16 n
  ssrc : read w 8 4 = assignUWord32 ssrc

theorem getD_read {w : List UInt8} {i count : Nat} (h : i < count) (offset : Nat) :
    (read w offset count).getD i 0 = w.getD (offset + i) 0 := by
  rw [Overlay.read, List.getD_eq_getElem?_getD, List.getD_eq_getElem?_getD, List.getElem?_take_of_lt h,
    List.getElem?_drop]

theorem bufferToUWord16_assign (value : UInt16) : bufferToUWord16 (assignUWord16 value) = value := by
  rw [bufferToUWord16, assignUWord16, number_image value.toNat_lt, UInt16.ofNat_toNat]

/-- What `FinishRecovery` makes of the bit string of a packet. -/
theorem finishRecovery_spec {r : Recovery} {ssrc : UInt32} {w : List UInt8} (hw : IsMedia ssrc r.seqNum w)
    (hready : r.Ready ssrc) (hfirst : r.data.cell 0 &&& 0x3f = w.getD 0 0 &&& 0x3f)
    (hbits : ∀ i, Used i → i ≠ 0 → i + 2 < max 12 w.length → r.bits i = bitString w i) :
    ∃ packet, finishRecovery r = .ok packet ∧ packet.seqNum = r.seqNum ∧ packet.wasRecovered = true
      ∧ packet.returned = false ∧ packet.pkt.Carries w := by
  have hsize : ipPacketSize = 1500 := rfl
  have hrtp : kRtpHeaderSize = 12 := rfl
  have hheader := hw.header
  have hfits := hw.fits
  obtain ⟨d₁, hd₁, hcell₁⟩ := PacketData.store_of_le r.data 0
    ([(r.data.cell 0 ||| 0x80) &&& 0xbf]) (by rw [List.length_singleton]; omega)
  obtain ⟨d₂, hd₂, hcell₂⟩ := PacketData.store_of_le d₁ 2
    (assignUWord16 r.seqNum) (by rw [assignUWord16, length_image]; omega)
  rw [List.length_singleton] at hcell₁
  rw [show (assignUWord16 r.seqNum).length = 2 from length_image _ _] at hcell₂
  have hlength : r.lengthRecovery = assignUWord16 (.ofNat (w.length - kRtpHeaderSize)) := by
    have himage : (assignUWord16 (.ofNat (w.length - kRtpHeaderSize))).length = 2 := length_image _ _
    apply List.ext_getElem (hready.length.trans himage.symm)
    intro i hi hi'
    have hbit := hbits (8 + i) (.inr (by omega)) (by omega) (by omega)
    rw [Recovery.bits, bitString, if_neg (by omega), if_pos (by omega), if_neg (by omega), if_pos (by omega),
      Nat.add_sub_cancel_left, List.getD_eq_getElem _ _ hi, List.getD_eq_getElem _ _ hi'] at hbit
    exact hbit
  refine ⟨⟨r.seqNum, true, false, ⟨bufferToUWord16 r.lengthRecovery + .ofNat kRtpHeaderSize, d₂⟩⟩, ?_, rfl, rfl, rfl,
    ?_, hfits, fun i hi => ?_⟩
  · rw [finishRecovery, hd₁, Checked.ok_bind, hd₂]
    rfl
  · rw [hlength, bufferToUWord16_assign, UInt16.toNat_add, UInt16.toNat_ofNat', UInt16.toNat_ofNat']
    omega
  · change d₂.cell i = _
    rw [hcell₂]
    by_cases hnumber : 2 ≤ i ∧ i < 2 + 2
    · rw [if_pos hnumber, ← hw.number, getD_read (by omega), Nat.add_sub_cancel' hnumber.1]
    · rw [if_neg hnumber, hcell₁]
      by_cases hzero : i = 0
      · subst hzero
        rw [if_pos (by omega)]
        exact version_restored hfirst hw.version
      · rw [if_neg (by omega)]
        by_cases hssrc : 8 ≤ i ∧ i < 12
        · have hcell := hready.ssrc (i - 8) (by omega)
          rw [← hw.ssrc, getD_read (by omega), Nat.add_sub_cancel' hssrc.1] at hcell
          exact hcell
        · by_cases hlow : i < 8
          · have hbit := hbits i (by rw [Used]; omega) hzero (by omega)
            rwa [Recovery.bits, bitString, if_pos hlow, if_pos hlow] at hbit
          · have hbit := hbits (i - 2) (.inr (by omega)) (by omega) (by omega)
            rwa [Recovery.bits, bitString, if_neg (by omega), if_neg (by omega), if_neg (by omega), if_neg (by omega),
              Nat.sub_add_cancel (by omega)] at hbit

/-- The packets of a list that are known, as they were sent. -/
def present (content : UInt16 → List UInt8) (ps : List ProtectedPacket) : List (List UInt8) :=
  (ps.filter fun p => p.pkt.isSome).map fun p => content p.seqNum

theorem recoverFrom_spec {content : UInt16 → List UInt8} {ssrc : UInt32} {ps : List ProtectedPacket} {dst : Recovery}
    (hps : ∀ p ∈ ps, ∀ q, p.pkt = some q → q.Carries (content p.seqNum) ∧ kRtpHeaderSize ≤ (content p.seqNum).length)
    (hdst : dst.Ready ssrc) :
    ∃ r, recoverFrom dst ps = .ok r ∧ r.Ready ssrc
      ∧ r.seqNum = ((ps.filter fun p => p.pkt.isNone).map ProtectedPacket.seqNum).getLastD dst.seqNum
      ∧ ∀ i, Used i → r.bits i = dst.bits i ^^^ parityOf (present content ps) i := by
  induction ps generalizing dst with
  | nil => exact ⟨dst, rfl, hdst, rfl, fun i _ => (UInt8.xor_zero).symm⟩
  | cons p ps ih =>
      cases hp : p.pkt with
      | none =>
          have hnext : Recovery.Ready ssrc { dst with seqNum := p.seqNum } := ⟨hdst.length, hdst.ssrc⟩
          obtain ⟨r, hrun, hready, hseq, hbits⟩ := ih (fun p hp => hps p (List.mem_cons_of_mem _ hp)) hnext
          refine ⟨r, by rw [recoverFrom, hp]; exact hrun, hready, ?_, fun i hi => ?_⟩
          · rw [hseq, List.filter_cons_of_pos (by rw [hp]; rfl), List.map_cons, List.getLastD_cons]
          · rw [hbits i hi, present, present, List.filter_cons_of_neg (by rw [hp]; exact Bool.false_ne_true)]
            rfl
      | some q =>
          obtain ⟨hcarries, hheader⟩ := hps p List.mem_cons_self q hp
          obtain ⟨r₁, hxor, hready₁, hseq₁, hbits₁⟩ := xorPackets_spec hcarries hheader hdst
          obtain ⟨r, hrun, hready, hseq, hbits⟩ := ih (fun p hp => hps p (List.mem_cons_of_mem _ hp)) hready₁
          refine ⟨r, ?_, hready, ?_, fun i hi => ?_⟩
          · rw [recoverFrom, hp]
            dsimp only
            rw [hxor, Checked.ok_bind, hrun]
          · rw [hseq, hseq₁, List.filter_cons_of_neg (by rw [hp]; exact Bool.false_ne_true)]
          · rw [hbits i hi, hbits₁ i hi, present, present, List.filter_cons_of_pos (by rw [hp]; rfl), UInt8.xor_assoc]
            rfl

/-- **The missing packet.** An FEC packet that lacks one of its packets gives it back. -/
theorem recoverPacket_spec {fec : FecPacket} {content : UInt16 → List UInt8}
    (hprotects : Protects fec.pkt (fec.protectedPktList.map fun p => content p.seqNum))
    (hmedia : ∀ p ∈ fec.protectedPktList, IsMedia fec.ssrc p.seqNum (content p.seqNum))
    (hknown : ∀ p ∈ fec.protectedPktList, ∀ q, p.pkt = some q → q.Carries (content p.seqNum))
    (hone : numCoveredPacketsMissing fec = 1) :
    ∃ p ∈ fec.protectedPktList, p.pkt = none ∧ (fec.protectedPktList.filter fun p => p.pkt.isNone) = [p] ∧
      ∃ r, recoverPacket fec = .ok r ∧ r.seqNum = p.seqNum ∧ r.wasRecovered = true ∧ r.returned = false
        ∧ r.pkt.Carries (content p.seqNum) := by
  set ps := fec.protectedPktList with hps
  have hcount : (ps.filter fun p => p.pkt.isNone).length = 1 := by
    rw [← List.countP_eq_length_filter]
    rw [numCoveredPacketsMissing, ← hps] at hone
    omega
  obtain ⟨p, hfilter⟩ := List.length_eq_one_iff.mp hcount
  have hmem : p ∈ ps.filter fun p => p.pkt.isNone := by rw [hfilter]; exact List.mem_singleton_self p
  obtain ⟨hp, hnone⟩ := List.mem_filter.mp hmem
  refine ⟨p, hp, Option.isNone_iff_eq_none.mp hnone, hfilter, ?_⟩
  have hperm : (ps.map fun p => content p.seqNum).Perm (content p.seqNum :: present content ps) := by
    have hparts := List.filter_append_perm (fun p : ProtectedPacket => p.pkt.isNone) ps
    rw [hfilter] at hparts
    have hsome : (ps.filter fun p => !p.pkt.isNone) = ps.filter fun p => p.pkt.isSome := by
      refine List.filter_congr fun p _ => ?_
      cases p.pkt <;> rfl
    rw [hsome] at hparts
    exact (hparts.map fun p => content p.seqNum).symm
  have hmissing : ∀ i, parityOf (ps.map fun p => content p.seqNum) i ^^^ parityOf (present content ps) i
      = bitString (content p.seqNum) i := by
    intro i
    exact Parity.parity_missing _ _ (fun a => UInt8.xor_self) (hperm.map fun w => bitString w i)
  obtain ⟨r₀, hinit, hready₀, hfirst₀, hbits₀⟩ := initRecovery_spec hprotects
  have hpresent : ∀ p ∈ ps, ∀ q, p.pkt = some q →
      q.Carries (content p.seqNum) ∧ kRtpHeaderSize ≤ (content p.seqNum).length :=
    fun p hp q hq => ⟨hknown p hp q hq, (hmedia p hp).header⟩
  obtain ⟨r, hrun, hready, hseq, hbits⟩ := recoverFrom_spec hpresent hready₀
  have hnumber : r.seqNum = p.seqNum := by rw [hseq, hfilter]; rfl
  have hw : IsMedia fec.ssrc r.seqNum (content p.seqNum) := hnumber ▸ hmedia p hp
  have hcovers := hprotects.covers (content p.seqNum) (List.mem_map_of_mem hp)
  have hfirst : r.data.cell 0 &&& 0x3f = (content p.seqNum).getD 0 0 &&& 0x3f := by
    have hzero : r.data.cell 0 = fec.pkt.data.cell 0 ^^^ parityOf (present content ps) 0 := by
      rw [← hfirst₀]
      exact hbits 0 (.inl (by omega))
    rw [hzero, xor_and_distrib, hprotects.first, ← xor_and_distrib, hmissing 0]
    rfl
  obtain ⟨packet, hfinish, hseqNum, hrecovered, hreturned, hcarries⟩ := finishRecovery_spec hw hready hfirst (by
    intro i hused hi hin
    have hrtp : kRtpHeaderSize = 12 := rfl
    rw [hbits i hused, hbits₀ i hused hi, if_pos (by omega), hmissing i])
  refine ⟨packet, ?_, hseqNum.trans hnumber, hrecovered, hreturned, hcarries⟩
  rw [recoverPacket, hinit, Checked.ok_bind, hrun, Checked.ok_bind, hfinish]

end Licode.Media.Fec
