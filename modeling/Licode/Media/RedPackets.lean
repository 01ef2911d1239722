import Licode.Media.FecSoundness

/-!
# RED packets of a stream

A media packet comes in a RED packet with one block behind its header, an FEC packet likewise behind a
header of its own. The receiver takes them out again: a media packet as it was sent, and an FEC packet
with the SSRC of its header.
-/

namespace Licode.Media.Fec

open Overlay

/-! ### RED packets -/

/-- A media packet as the only block of a RED packet. -/
def redMedia (w : List UInt8) (headerLength : Nat) : List UInt8 :=
  setPayloadType (w.take headerLength) 116 ++ getPayloadType w :: w.drop headerLength

/-- An FEC packet as the only block of a RED packet. -/
def redFec (header body : List UInt8) : List UInt8 := header ++ ulpPT :: body

/-- The array that bytes are copied into. -/
def PacketData.ofBytes (body : List UInt8) : PacketData :=
  ⟨write PacketData.zero.bytes 0 body, (length_write _ _ _).trans PacketData.zero.size⟩

/-- The packet that an FEC block is taken out as. -/
def fecPacketOf (body : List UInt8) : Packet := ⟨.ofNat body.length, .ofBytes body⟩

/-- A RED packet with what the memory around it and the members that are not set happen to be. -/
structure Datagram where
  buf : List UInt8
  stale : Nat → UInt8
  staleSsrc : UInt32

/-- The RED packet with the media packet of a number. -/
structure Stream.SendsMedia (s : Stream) (n : UInt16) (d : Datagram) : Prop where
  has : s.Has n
  whole : getHeaderLength (s.content n) d.stale ≤ (s.content n).length
  type : getPayloadType (s.content n) ≠ ulpPT
  buf : d.buf = redMedia (s.content n) (getHeaderLength (s.content n) d.stale)

/-- The RED packet with an FEC packet. -/
structure Stream.SendsFec (s : Stream) (header body : List UInt8) (d : Datagram) : Prop where
  headerLength : getHeaderLength header d.stale = header.length
  ssrc : read header 8 4 = assignUWord32 s.ssrc
  short : header.length + body.length < 2 ^ 16
  fits : body.length ≤ ipPacketSize
  isFec : IsFec s s.ssrc (fecPacketOf body)
  buf : d.buf = redFec header body

/-- The RED packets of a stream. -/
inductive Stream.Sends (s : Stream) (d : Datagram) : Prop
  | media (n : UInt16) (h : s.SendsMedia n d)
  | fec (header body : List UInt8) (h : s.SendsFec header body d)

variable {s : Stream}

/-! ### Headers -/

theorem getHeaderLength_ge (data : List UInt8) (stale : Nat → UInt8) : 12 ≤ getHeaderLength data stale := by
  rw [getHeaderLength]
  omega

/-- A header is as long as its own bytes tell. -/
theorem getHeaderLength_append {header rest data : List UInt8} {stale : Nat → UInt8}
    (hlength : header.length = getHeaderLength data stale)
    (hbytes : ∀ i < header.length, i ≠ 1 → byteAt (header ++ rest) stale i = byteAt data stale i) :
    getHeaderLength (header ++ rest) stale = header.length := by
  have hge := getHeaderLength_ge data stale
  rw [hlength] at hbytes ⊢
  have hfirst := hbytes 0 (by omega) (by omega)
  rw [getHeaderLength, hfirst]
  by_cases hextension : (byteAt data stale 0).toNat / 16 % 2 = 0
  · rw [getHeaderLength, hextension, Nat.zero_mul, Nat.zero_mul]
  · have hsixteen : 16 ≤ getHeaderLength data stale := by
      rw [getHeaderLength]
      have hone : (byteAt data stale 0).toNat / 16 % 2 = 1 := by omega
      rw [hone]
      omega
    rw [hbytes 14 (by omega) (by omega), hbytes 15 (by omega) (by omega), getHeaderLength]

theorem byteAt_append {header : List UInt8} {i : Nat} (h : i < header.length) (rest : List UInt8) (stale : Nat → UInt8) :
    byteAt (header ++ rest) stale i = header.getD i 0 := by
  rw [byteAt, List.getD_append _ _ _ _ h, List.getD_eq_getElem _ _ h, List.getD_eq_getElem _ _ h]

theorem length_setPayloadType_take {w : List UInt8} {headerLength : Nat} (h : headerLength ≤ w.length) (type : UInt8) :
    (setPayloadType (w.take headerLength) type).length = headerLength := by
  rw [length_setPayloadType, List.length_take_of_le h]

/-- Only the byte with the payload type is another one. -/
theorem getD_setPayloadType {w : List UInt8} {headerLength i : Nat} (hi : i < headerLength) (hne : i ≠ 1) (type : UInt8) :
    (setPayloadType (w.take headerLength) type).getD i 0 = w.getD i 0 := by
  have hsame := (sameOutside_write (w.take headerLength) 1
    [128 * (typeByte (w.take headerLength) / 128) + type % 128]).2 i (by rw [List.length_singleton]; omega)
  rw [setPayloadType, List.getD_eq_getElem?_getD, hsame, List.getElem?_take_of_lt hi, List.getD_eq_getElem?_getD]

theorem getHeaderLength_redMedia {w : List UInt8} {stale : Nat → UInt8} (h : getHeaderLength w stale ≤ w.length) :
    getHeaderLength (redMedia w (getHeaderLength w stale)) stale = getHeaderLength w stale := by
  have hlength := length_setPayloadType_take h 116
  rw [redMedia, getHeaderLength_append hlength, hlength]
  intro i hi hne
  rw [hlength] at hi
  rw [byteAt_append (by omega), getD_setPayloadType hi hne, byteAt, List.getD_eq_getElem _ _ (hi.trans_le h),
    List.getD_eq_getElem _ _ (hi.trans_le h)]

theorem getHeaderLength_redFec {header : List UInt8} {stale : Nat → UInt8}
    (h : getHeaderLength header stale = header.length) (body : List UInt8) :
    getHeaderLength (redFec header body) stale = header.length := by
  refine getHeaderLength_append h.symm fun i hi _ => ?_
  rw [byteAt_append hi, byteAt, List.getD_eq_getElem _ _ hi, List.getD_eq_getElem _ _ hi]

theorem getSeqNumber_redMedia {w : List UInt8} {n : UInt16} {headerLength : Nat} (hge : 12 ≤ headerLength)
    (hle : headerLength ≤ w.length) (hnumber : read w 2 2 = assignUWord16 n) :
    getSeqNumber (redMedia w headerLength) = n := by
  have hlength := length_setPayloadType_take hle 116
  have htake : (w.take headerLength).length = headerLength := List.length_take_of_le hle
  have hsame : read (redMedia w headerLength) 2 2 = read w 2 2 := by
    have hheader : read (setPayloadType (w.take headerLength) 116) 2 2 = read (w.take headerLength) 2 2 :=
      read_write_after _ 2 (by rw [List.length_singleton])
    rw [redMedia, read_append _ (by omega), hheader]
    conv_rhs => rw [← List.take_append_drop headerLength w]
    rw [read_append _ (by omega)]
  rw [getSeqNumber, hsame, hnumber]
  exact bufferToUWord16_assign n

/-! ### A single block -/

theorem marker_and_type (t : UInt8) : ((128 * (t / 128) + 116 % 128) &&& 0x80) + t % 128 = t := by
  have h : ∀ t : BitVec 8, ((128 * (t / 128) + 116 % 128) &&& 0x80) + t % 128 = t := by decide +kernel
  exact UInt8.toBitVec_inj.mp (h t.toBitVec)

theorem getPayloadType_and (t : UInt8) : (t % 128) &&& 0x80 = 0 ∧ (t % 128) &&& 0x7f = t % 128 := by
  have h : ∀ t : BitVec 8, (t % 128) &&& 0x80 = 0 ∧ (t % 128) &&& 0x7f = t % 128 := by decide +kernel
  exact ⟨UInt8.toBitVec_inj.mp (h t.toBitVec).1, UInt8.toBitVec_inj.mp (h t.toBitVec).2⟩

theorem PacketData.store_zero {body : List UInt8} (h : body.length ≤ ipPacketSize) :
    PacketData.zero.store 0 body = .ok (.ofBytes body) := if_pos (by omega)

theorem PacketData.cell_ofBytes {body : List UInt8} (h : body.length ≤ ipPacketSize) (i : Nat) :
    (PacketData.ofBytes body).cell i = body.getD i 0 := by
  obtain ⟨d, hstore, hcell⟩ := PacketData.zero.store_of_le 0 body (by omega)
  rw [PacketData.store_zero h] at hstore
  rw [Except.ok.inj hstore, hcell, Nat.zero_add, Nat.sub_zero]
  by_cases hi : i < body.length
  · rw [if_pos ⟨Nat.zero_le i, hi⟩]
  · rw [if_neg fun hin => hi hin.2, PacketData.cell_zero, List.getD_eq_default _ _ (not_lt.mp hi)]

theorem PacketData.read_ofBytes {body : List UInt8} {offset count : Nat} (h : body.length ≤ ipPacketSize)
    (hle : offset + count ≤ body.length) : read (PacketData.ofBytes body).bytes offset count = read body offset count := by
  have hleft : (read (PacketData.ofBytes body).bytes offset count).length = count := PacketData.length_read (by omega)
  have hright : (read body offset count).length = count := Overlay.length_read hle
  apply List.ext_getElem (hleft.trans hright.symm)
  intro i hi hi'
  have hcell := PacketData.cell_ofBytes h (offset + i)
  rw [← PacketData.getD_read (show i < count by omega), ← Fec.getD_read (show i < count by omega),
    List.getD_eq_getElem _ _ hi, List.getD_eq_getElem _ _ hi'] at hcell
  exact hcell

/-- The parts of a RED packet with one block. -/
theorem redBlocks_single (header payload : List UInt8) (type : UInt8) :
    (header ++ type :: payload).length = header.length + payload.length + 1
      ∧ incomingByte (header ++ type :: payload) header.length = .ok type
      ∧ incomingBytes (header ++ type :: payload) (header.length + 1) payload.length = .ok payload
      ∧ incomingBytes (header ++ type :: payload) 0 header.length = .ok header := by
  have hlength : (header ++ type :: payload).length = header.length + payload.length + 1 := by
    rw [List.length_append, List.length_cons, Nat.add_assoc]
  refine ⟨hlength, ?_, ?_, ?_⟩
  · rw [incomingByte, dif_pos (by omega), List.getElem_append_right (le_refl _)]
    simp
  · rw [incomingBytes, if_pos (by omega), Int.toNat_natCast]
    have hsplit : header ++ type :: payload = (header ++ [type]) ++ (payload ++ []) := by simp
    rw [hsplit, read_field (by simp) rfl]
  · rw [incomingBytes, if_pos (by omega), Int.toNat_natCast, read_append _ (by omega), Overlay.read,
      List.drop_zero, List.take_length]

namespace FecReceiverImpl

theorem payloadDataLength_eq (header payload : Nat) :
    (UInt16.ofNat (header + payload + 1) - .ofNat header).toNat = (payload + 1) % 2 ^ 16 := by
  rw [UInt16.toNat_sub, UInt16.toNat_ofNat', UInt16.toNat_ofNat']
  omega

/-- An FEC packet is taken out as it is. -/
theorem redBlocks_redFec {header body : List UInt8} {ssrc : UInt32} (hheader : 12 ≤ header.length)
    (hfits : header.length + body.length < 2 ^ 16) (hbody : body.length ≤ ipPacketSize)
    (hssrc : read header 8 4 = assignUWord32 ssrc) (n : UInt16) (stale : UInt32) :
    redBlocks ⟨.ofNat header.length, n⟩ (redFec header body) ulpPT stale
      = .ok (some (⟨n, ssrc, true, fecPacketOf body⟩, none)) := by
  have hsize : ipPacketSize = 1500 := rfl
  obtain ⟨hlength, hfirst, hpayload, -⟩ := redBlocks_single header body ulpPT
  have hhl : (UInt16.ofNat header.length).toNat = header.length := by
    rw [UInt16.toNat_ofNat', Nat.mod_eq_of_lt (by omega)]
  have hdata := payloadDataLength_eq header.length body.length
  rw [Nat.mod_eq_of_lt (by omega)] at hdata
  have hred : redHeader ⟨.ofNat header.length, n⟩ (redFec header body)
      (.ofNat (redFec header body).length - .ofNat header.length) = .ok (some (1, 0)) := by
    rw [redHeader]
    dsimp only
    rw [hhl, redFec, hfirst]
    rfl
  have hwhole : incomingBytes (redFec header body) (header.length + 1)
      ((UInt16.ofNat (redFec header body).length - .ofNat header.length).toNat - (1 : Nat) : Int) = .ok body := by
    rw [redFec, hlength, hdata]
    have hcount : ((body.length + 1 : Nat) : Int) - (1 : Nat) = body.length := by omega
    rw [hcount, hpayload]
  have hnumber : incomingBytes (redFec header body) 8 4 = .ok (assignUWord32 ssrc) := by
    have hle : header.length ≤ (redFec header body).length := by
      rw [redFec, hlength]
      omega
    rw [incomingBytes, if_pos (by omega), redFec, ← hssrc]
    exact congrArg _ (read_append _ (by omega))
  have hword : bufferToUWord32 (assignUWord32 ssrc) = ssrc := by
    rw [bufferToUWord32, assignUWord32, number_image ssrc.toNat_lt, UInt32.ofNat_toNat]
  rw [redBlocks]
  dsimp only
  rw [hred, hhl]
  rw [show incomingByte (redFec header body) header.length = .ok ulpPT from hfirst]
  simp only [Checked.ok_bind, hwhole, hnumber, hword, PacketData.store_zero hbody]
  rfl

/-- A media packet is put together again. -/
theorem redBlocks_redMedia {w : List UInt8} {headerLength : Nat} (hge : 12 ≤ headerLength) (hle : headerLength ≤ w.length)
    (hfits : w.length ≤ ipPacketSize) (htype : getPayloadType w ≠ ulpPT) (n : UInt16) (stale : UInt32) :
    ∃ pkt, redBlocks ⟨.ofNat headerLength, n⟩ (redMedia w headerLength) ulpPT stale
      = .ok (some (⟨n, stale, false, pkt⟩, none)) ∧ pkt.Carries w := by
  have hsize : ipPacketSize = 1500 := rfl
  set header := setPayloadType (w.take headerLength) 116 with hheader
  have hlen : header.length = headerLength := length_setPayloadType_take hle 116
  have hdrop : (w.drop headerLength).length = w.length - headerLength := List.length_drop
  obtain ⟨hlength, hfirst, hpayload, hwhole⟩ :=
    redBlocks_single header (w.drop headerLength) (getPayloadType w)
  rw [hlen] at hlength hfirst hpayload hwhole
  have hhl : (UInt16.ofNat headerLength).toNat = headerLength := by
    rw [UInt16.toNat_ofNat', Nat.mod_eq_of_lt (by omega)]
  have hmasks : getPayloadType w &&& 0x80 = 0 ∧ getPayloadType w &&& 0x7f = getPayloadType w :=
    getPayloadType_and (typeByte w)
  have hdata : (UInt16.ofNat (redMedia w headerLength).length - .ofNat headerLength).toNat = w.length - headerLength + 1 := by
    rw [redMedia, ← hheader, hlength, hdrop, payloadDataLength_eq, Nat.mod_eq_of_lt (by omega)]
  have hred : redHeader ⟨.ofNat headerLength, n⟩ (redMedia w headerLength)
      (.ofNat (redMedia w headerLength).length - .ofNat headerLength) = .ok (some (1, 0)) := by
    rw [redHeader]
    dsimp only
    rw [hhl, redMedia, ← hheader, hfirst, Checked.ok_bind, if_pos hmasks.1]
    rfl
  have hblock : incomingBytes (redMedia w headerLength) (headerLength + 1)
      ((UInt16.ofNat (redMedia w headerLength).length - .ofNat headerLength).toNat - (1 : Nat) : Int)
        = .ok (w.drop headerLength) := by
    have hcount : ((w.length - headerLength + 1 : Nat) : Int) - (1 : Nat) = (w.drop headerLength).length := by omega
    rw [hdata, hcount, redMedia, ← hheader, hpayload]
  obtain ⟨d₁, hd₁, hcell₁⟩ := PacketData.zero.store_of_le 0 header (by omega)
  obtain ⟨d₂, hd₂, hcell₂⟩ := d₁.store_of_le 1 [(d₁.cell 1 &&& 0x80) + getPayloadType w]
    (by rw [List.length_singleton]; omega)
  obtain ⟨d₃, hd₃, hcell₃⟩ := d₂.store_of_le headerLength (w.drop headerLength) (by omega)
  have hmedia : mediaData ⟨.ofNat headerLength, n⟩ (redMedia w headerLength) (getPayloadType w) (w.drop headerLength)
      = .ok d₃ := by
    rw [mediaData]
    dsimp only
    rw [hhl, redMedia, ← hheader, hwhole, Checked.ok_bind, hd₁, Checked.ok_bind, hd₂, Checked.ok_bind, hd₃]
  refine ⟨⟨.ofNat headerLength + (.ofNat (redMedia w headerLength).length - .ofNat headerLength) - .ofNat 1, d₃⟩,
    ?_, ?_, hfits, ?_⟩
  · rw [redBlocks]
    dsimp only
    rw [hred, hhl]
    rw [show incomingByte (redMedia w headerLength) headerLength = .ok (getPayloadType w) from hfirst]
    simp only [Checked.ok_bind, hblock, hmedia, hmasks.2, beq_eq_false_iff_ne.mpr htype]
    rfl
  · rw [UInt16.toNat_sub, UInt16.toNat_add, hdata, hhl, UInt16.toNat_ofNat']
    omega
  · intro i hi
    change d₃.cell i = _
    rw [hcell₃, hdrop]
    by_cases hpay : headerLength ≤ i
    · rw [if_pos (by omega), List.getD_eq_getElem?_getD, List.getElem?_drop, Nat.add_sub_cancel' hpay,
        List.getD_eq_getElem?_getD]
    · rw [if_neg (by omega), hcell₂, List.length_singleton]
      by_cases hone : i = 1
      · subst hone
        have hbyte : header.getD 1 0 = 128 * (typeByte w / 128) + 116 % 128 := by
          have htake : (w.take headerLength).length = headerLength := List.length_take_of_le hle
          have hsame : typeByte (w.take headerLength) = typeByte w := by
            rw [typeByte, typeByte, List.getD_eq_getElem?_getD, List.getElem?_take_of_lt (by omega),
              List.getD_eq_getElem?_getD]
          have hread : read header 1 [128 * (typeByte w / 128) + 116 % 128].length
              = [128 * (typeByte w / 128) + 116 % 128] := by
            rw [hheader, setPayloadType, hsame]
            exact read_write (by rw [List.length_singleton]; omega)
          have hcell : (read header 1 1).getD 0 0 = header.getD (1 + 0) 0 := getD_read (by omega) 1
          rw [List.length_singleton] at hread
          rw [hread] at hcell
          exact hcell.symm
        rw [if_pos (by omega), hcell₁, if_pos (by omega), hbyte]
        exact marker_and_type (typeByte w)
      · rw [if_neg (by omega), hcell₁, if_pos (by omega), Nat.sub_zero, hheader, getD_setPayloadType (by omega) hone]

end FecReceiverImpl

end Licode.Media.Fec
