import Licode.Media.RedPackets

/-!
# Runs of the FEC receiver

Whatever comes of a stream, in whatever order and however often, the receiver works through it without a
fault, and all it calls back for are packets that were sent.
-/

namespace Licode.Media.Fec

open Overlay

variable {s : Stream}

namespace FecReceiverImpl

/-- A receiver between two packets. -/
structure Idle (s : Stream) (r : FecReceiverImpl) : Prop where
  lists : Lists s r.fec.fecPacketList r.recoveredPacketList
  received : r.receivedPacketList = []
  returned : ∀ packet ∈ r.recoveredPacketList, packet.returned = true

theorem idle_create : create.Idle s where
  lists := lists_nil
  received := rfl
  returned := by simp [create]

theorem onRecoveredPacket_of_carries {pkt : Packet} {w : List UInt8} (h : pkt.Carries w) : onRecoveredPacket pkt = .ok w := by
  rw [onRecoveredPacket, PacketData.load_of_le (by rw [Nat.zero_add, h.length]; exact h.fits), ← h.wire_eq]
  rfl

theorem handOn_of_known {n : UInt16} {pkt : Packet} (h : Known s n pkt) (passOver : Bool) :
    handOn passOver pkt = .ok (if passOver then [] else [s.content n]) := by
  cases passOver with
  | true => rfl
  | false =>
      rw [handOn, if_neg Bool.false_ne_true, onRecoveredPacket_of_carries h.2]
      rfl

/-- The callbacks for the recovered packets. -/
theorem returnRecovered_eq {recovered : List RecoveredPacket} (h : ∀ r ∈ recovered, Known s r.seqNum r.pkt) :
    returnRecovered recovered
      = .ok ((recovered.filter fun r => !r.returned).map fun r => s.content r.seqNum) := by
  induction recovered with
  | nil => rfl
  | cons r recovered ih =>
      rw [returnRecovered, handOn_of_known (h r List.mem_cons_self), Checked.ok_bind,
        ih fun r hr => h r (List.mem_cons_of_mem _ hr)]
      cases hreturned : r.returned with
      | true => rw [List.filter_cons_of_neg (by rw [hreturned]; decide)]; rfl
      | false => rw [List.filter_cons_of_pos (by rw [hreturned]; rfl)]; rfl

/-- What the receiver does with a packet that it has taken out. -/
theorem processReceivedFec_eq {r : FecReceiverImpl} {rx : ReceivedPacket} (h : r.Idle s) (hrx : ReceivedOk s rx) :
    ∃ f recovered, r.fec.decodeFec [rx] r.recoveredPacketList = .ok (f, recovered) ∧ Lists s f.fecPacketList recovered
      ∧ processReceivedFec { r with receivedPacketList := [rx] }
        = .ok (⟨f, [], recovered.map fun packet => { packet with returned := true }⟩,
          (if rx.isFec then [] else [s.content rx.seqNum])
            ++ (recovered.filter fun r => !r.returned).map fun r => s.content r.seqNum) := by
  obtain ⟨f, recovered, hdecode, hlists⟩ := decodeFec_lists h.lists (List.cons_ne_nil rx [])
    fun rx' hrx' => List.mem_singleton.mp hrx' ▸ hrx
  refine ⟨f, recovered, hdecode, hlists, ?_⟩
  have hfront : handOn rx.isFec rx.pkt = .ok (if rx.isFec then [] else [s.content rx.seqNum]) := by
    cases hkind : rx.isFec with
    | true => rfl
    | false => rw [handOn_of_known (hrx.media hkind)]
  rw [processReceivedFec]
  dsimp only
  rw [hfront, Checked.ok_bind, hdecode, Checked.ok_bind, Checked.ok_bind, returnRecovered_eq hlists.recoveredOk.known]
  rfl

theorem idle_of_lists {f : ForwardErrorCorrection} {recovered : List RecoveredPacket}
    (h : Lists s f.fecPacketList recovered) :
    Idle s ⟨f, [], recovered.map fun packet => { packet with returned := true }⟩ where
  lists :=
    { fecOk := h.fecOk
      recoveredOk := by
        refine ⟨fun r hr => ?_, List.pairwise_map.mpr h.recoveredOk.ascending⟩
        obtain ⟨r₀, hr₀, rfl⟩ := List.mem_map.mp hr
        exact h.recoveredOk.known r₀ hr₀
      missing := fun fec hfec p hp hnone r hr => by
        obtain ⟨r₀, hr₀, rfl⟩ := List.mem_map.mp hr
        exact h.missing fec hfec p hp hnone r₀ hr₀ }
  received := rfl
  returned r hr := by
    obtain ⟨r₀, -, rfl⟩ := List.mem_map.mp hr
    rfl

/-- A media packet is taken out as it was sent. -/
theorem receiveRed_media {r : FecReceiverImpl} {d : Datagram} {n : UInt16} (h : r.Idle s) (hd : s.SendsMedia n d) :
    ∃ rx, ReceivedOk s rx ∧ rx.isFec = false ∧ rx.seqNum = n
      ∧ r.receiveRed d.buf d.stale d.staleSsrc = processReceivedFec { r with receivedPacketList := [rx] } := by
  have hge := getHeaderLength_ge (s.content n) d.stale
  have hmedia := hd.has.isMedia
  obtain ⟨pkt, hblocks, hcarries⟩ := redBlocks_redMedia hge hd.whole hmedia.fits hd.type n d.staleSsrc
  have hne : pkt.length ≠ 0 := by
    intro hzero
    have hlength := hcarries.length
    rw [hzero] at hlength
    have hheader := hmedia.header
    rw [← hlength] at hheader
    exact absurd hheader (by decide)
  refine ⟨⟨n, d.staleSsrc, false, pkt⟩, ⟨fun _ => ⟨hd.has, hcarries⟩, by simp⟩, rfl, rfl, ?_⟩
  rw [receiveRed, hd.buf, getHeaderLength_redMedia hd.whole, getSeqNumber_redMedia hge hd.whole hmedia.number,
    addReceivedRedPacket, hblocks, Checked.ok_bind]
  dsimp only
  rw [if_neg hne, h.received]
  rfl

/-- An FEC packet is taken out as it is, unless there is nothing in it. -/
theorem receiveRed_fec {r : FecReceiverImpl} {d : Datagram} {header body : List UInt8} (h : r.Idle s)
    (hd : s.SendsFec header body d) : r.receiveRed d.buf d.stale d.staleSsrc = if body = [] then processReceivedFec r
      else processReceivedFec
        { r with receivedPacketList := [⟨getSeqNumber d.buf, s.ssrc, true, fecPacketOf body⟩] } := by
  have hge := getHeaderLength_ge header d.stale
  rw [hd.headerLength] at hge
  have hshort := hd.short
  have hblocks := redBlocks_redFec hge hshort hd.fits hd.ssrc (getSeqNumber (redFec header body)) d.staleSsrc
  have hzero : (fecPacketOf body).length = 0 ↔ body = [] := by
    have hlength : (fecPacketOf body).length.toNat = body.length := by
      change (UInt16.ofNat body.length).toNat = body.length
      rw [UInt16.toNat_ofNat', Nat.mod_eq_of_lt (by omega)]
    rw [← UInt16.toNat_inj, hlength, ← List.length_eq_zero_iff]
    rfl
  rw [receiveRed, hd.buf, getHeaderLength_redFec hd.headerLength, addReceivedRedPacket, hblocks, Checked.ok_bind]
  dsimp only
  by_cases hnil : body = []
  · rw [if_pos (hzero.mpr hnil), if_pos hnil]
    rfl
  · rw [if_neg (fun hlength => hnil (hzero.mp hlength)), if_neg hnil, h.received]
    rfl

/-- The receiver works through some RED packets. -/
def receiveAll : FecReceiverImpl → List Datagram → Checked (FecReceiverImpl × List (List UInt8))
  | r, [] => .ok (r, [])
  | r, d :: rest => do
      let one ← r.receiveRed d.buf d.stale d.staleSsrc
      let others ← receiveAll one.1 rest
      return (others.1, one.2 ++ others.2)

theorem processReceivedFec_idle {r : FecReceiverImpl} (h : r.Idle s) : processReceivedFec r = .ok (r, []) := by
  have hnone : r.recoveredPacketList.filter (fun r => !r.returned) = [] :=
    List.filter_eq_nil_iff.mpr fun packet hpacket => by simp [h.returned packet hpacket]
  have hsame : r.recoveredPacketList.map (fun packet => { packet with returned := true }) = r.recoveredPacketList := by
    refine (List.map_congr_left fun packet hpacket => ?_).trans (List.map_id _)
    have hreturned := h.returned packet hpacket
    cases packet
    cases hreturned
    rfl
  have hreceived := h.received
  rw [processReceivedFec, hreceived]
  dsimp only
  rw [Checked.ok_bind, returnRecovered_eq h.lists.recoveredOk.known, hnone, Checked.ok_bind, hsame]
  cases r
  cases hreceived
  rfl

/-- One RED packet of the stream. -/
theorem receiveRed_sound {r : FecReceiverImpl} {d : Datagram} (h : r.Idle s) (hd : s.Sends d) :
    ∃ r' out, r.receiveRed d.buf d.stale d.staleSsrc = .ok (r', out) ∧ r'.Idle s
      ∧ (∀ w ∈ out, ∃ n, s.sent n = some w) ∧ ∀ n, s.SendsMedia n d → s.content n ∈ out := by
  have hprocess : ∀ rx, ReceivedOk s rx → ∃ r' out,
      processReceivedFec { r with receivedPacketList := [rx] } = .ok (r', out) ∧ r'.Idle s
        ∧ (∀ w ∈ out, ∃ n, s.sent n = some w) ∧ (rx.isFec = false → s.content rx.seqNum ∈ out) := by
    intro rx hrx
    obtain ⟨f, recovered, -, hlists, hrun⟩ := processReceivedFec_eq h hrx
    refine ⟨_, _, hrun, idle_of_lists hlists, fun w hw => ?_, fun hmedia => ?_⟩
    · rcases List.mem_append.mp hw with hw | hw
      · cases hkind : rx.isFec with
        | true =>
            rw [hkind] at hw
            exact absurd hw List.not_mem_nil
        | false =>
            rw [hkind] at hw
            exact ⟨rx.seqNum, by rw [List.mem_singleton.mp hw]; exact (hrx.media hkind).1.sent_eq⟩
      · obtain ⟨packet, hpacket, rfl⟩ := List.mem_map.mp hw
        exact ⟨packet.seqNum, (hlists.recoveredOk.known packet (List.mem_of_mem_filter hpacket)).1.sent_eq⟩
    · rw [hmedia]
      exact List.mem_append_left _ (List.mem_singleton_self _)
  have hmedia : ∀ n, s.SendsMedia n d → ∃ r' out, r.receiveRed d.buf d.stale d.staleSsrc = .ok (r', out) ∧ r'.Idle s
      ∧ (∀ w ∈ out, ∃ n, s.sent n = some w) ∧ s.content n ∈ out := by
    intro n hn
    obtain ⟨rx, hrx, hkind, hseq, hreceive⟩ := receiveRed_media h hn
    obtain ⟨r', out, hrun, hidle, hsent, hout⟩ := hprocess rx hrx
    exact ⟨r', out, hreceive.trans hrun, hidle, hsent, hseq ▸ hout hkind⟩
  have hok : ∃ r' out, r.receiveRed d.buf d.stale d.staleSsrc = .ok (r', out) ∧ r'.Idle s
      ∧ ∀ w ∈ out, ∃ n, s.sent n = some w := by
    cases hd with
    | media n hn =>
        obtain ⟨r', out, hrun, hidle, hsent, -⟩ := hmedia n hn
        exact ⟨r', out, hrun, hidle, hsent⟩
    | fec header body hfec =>
        rw [receiveRed_fec h hfec]
        split_ifs
        · exact ⟨r, [], processReceivedFec_idle h, h, by simp⟩
        · have hrx : ReceivedOk s ⟨getSeqNumber d.buf, s.ssrc, true, fecPacketOf body⟩ :=
            ⟨by simp, fun _ => hfec.isFec⟩
          obtain ⟨r', out, hrun, hidle, hsent, -⟩ := hprocess _ hrx
          exact ⟨r', out, hrun, hidle, hsent⟩
  obtain ⟨r', out, hrun, hidle, hsent⟩ := hok
  refine ⟨r', out, hrun, hidle, hsent, fun n hn => ?_⟩
  obtain ⟨r₁, out₁, hrun₁, -, -, hout⟩ := hmedia n hn
  cases hrun.symm.trans hrun₁
  exact hout

/-- **FEC over a lossy stream.** Whichever RED packets of a stream come, in whatever order and however often, the receiver
commits no fault, calls back for every media packet among them, and for nothing that was not sent. -/
theorem receiveAll_sound {r : FecReceiverImpl} {datagrams : List Datagram} (h : r.Idle s)
    (hsends : ∀ d ∈ datagrams, s.Sends d) :
    ∃ r' out, r.receiveAll datagrams = .ok (r', out) ∧ r'.Idle s ∧ (∀ w ∈ out, ∃ n, s.sent n = some w)
      ∧ ∀ d ∈ datagrams, ∀ n, s.SendsMedia n d → s.content n ∈ out := by
  induction datagrams generalizing r with
  | nil => exact ⟨r, [], rfl, h, by simp, by simp⟩
  | cons d rest ih =>
      obtain ⟨r₁, out₁, hone, hidle₁, hsent₁, hmedia₁⟩ := receiveRed_sound h (hsends d List.mem_cons_self)
      obtain ⟨r', out, hrest, hidle, hsent, hmedia⟩ := ih hidle₁ fun d hd => hsends d (List.mem_cons_of_mem _ hd)
      refine ⟨r', out₁ ++ out, by rw [receiveAll, hone, Checked.ok_bind, hrest]; rfl, hidle, ?_, ?_⟩
      · intro w hw
        rcases List.mem_append.mp hw with hw | hw
        · exact hsent₁ w hw
        · exact hsent w hw
      · intro d' hd' n hn
        rcases List.mem_cons.mp hd' with rfl | hd'
        · exact List.mem_append_left _ (hmedia₁ n hn)
        · exact List.mem_append_right _ (hmedia d' hd' n hn)

end FecReceiverImpl

/-! ### A stream of two packets -/

/-- Two packets with an FEC packet for both. -/
def pairContent : UInt16 → List UInt8
  | 0 => [0x80, 100, 0, 0, 0, 0, 0, 1, 0, 0, 0, 1, 7]
  | _ => [0x80, 100, 0, 1, 0, 0, 0, 1, 0, 0, 0, 1, 9]

def pairFec : List UInt8 := [0, 0, 0, 0, 0, 0, 0, 0, 0, 0, 0, 1, 0xc0, 0, 14]

def pair : Stream where
  ssrc := 1
  base := 0
  sent n := if n = 0 ∨ n = 1 then some (pairContent n) else none
  media n w h := by
    split_ifs at h with hn
    obtain rfl := Option.some_inj.mp h
    rcases hn with rfl | rfl
    · exact ⟨by decide, by decide, by decide, by decide, by decide⟩
    · exact ⟨by decide, by decide, by decide, by decide, by decide⟩
  near n w h := by
    split_ifs at h with hn
    rcases hn with rfl | rfl
    · decide
    · decide

theorem protectedPackets_pairFec : protectedPackets (fecPacketOf pairFec) = [⟨0, none⟩, ⟨1, none⟩] := by
  have hcell : (fecPacketOf pairFec).data.cell 0 = 0 := PacketData.cell_ofBytes (by decide) 0
  have hmask : (fecPacketOf pairFec).mask = [0xc0, 0] := by
    rw [Packet.mask, lBitSet, hcell]
    exact PacketData.read_ofBytes (by decide) (by decide)
  have hnumber : read (fecPacketOf pairFec).data.bytes 2 2 = read pairFec 2 2 :=
    PacketData.read_ofBytes (by decide) (by decide)
  rw [protectedPackets, parseSequenceNumber, hmask, hnumber]
  decide

theorem isFec_pairFec : IsFec pair pair.ssrc (fecPacketOf pairFec) := by
  have hcell : ∀ i, (fecPacketOf pairFec).data.cell i = pairFec.getD i 0 := PacketData.cell_ofBytes (by decide)
  have hlBit : lBitSet (fecPacketOf pairFec) = false := by
    rw [lBitSet, hcell]
    decide
  have hlength : protectionLength (fecPacketOf pairFec) = 1 := by
    have hread : read (fecPacketOf pairFec).data.bytes 10 2 = read pairFec 10 2 :=
      PacketData.read_ofBytes (by decide) (by decide)
    rw [protectionLength, hread]
    decide
  have hoffset : payloadOffset (fecPacketOf pairFec) = 14 := by
    rw [payloadOffset, hlBit]
    rfl
  refine ⟨rfl, ?_, ?_⟩
  · rw [protectedPackets_pairFec]
    decide
  · rw [protectedPackets_pairFec]
    refine ⟨by rw [hoffset, hlength]; decide, ?_, ?_, fun i hi => ?_, fun i hi => ?_⟩
    · rw [hlength]
      decide
    · rw [hcell]
      decide
    · rw [hcell]
      have hall : ∀ i < 10, i = 1 ∨ 4 ≤ i → pairFec.getD i 0 = parityOf [pairContent 0, pairContent 1] i := by decide
      exact hall i (by omega) (by omega)
    · rw [hlength] at hi
      have hzero : i = 0 := by omega
      rw [hzero, hoffset, hcell]
      decide

/-- The RED packet with the second packet, and that with the FEC packet. -/
def pairSecond : Datagram := ⟨redMedia (pairContent 1) 12, fun _ => 0, 0⟩

def pairHeader : List UInt8 := [0x80, 116, 0, 2, 0, 0, 0, 1, 0, 0, 0, 1]

def pairThird : Datagram := ⟨redFec pairHeader pairFec, fun _ => 0, 0⟩

theorem sendsMedia_pair : pair.SendsMedia 1 pairSecond := ⟨by decide, by decide, by decide, by decide⟩

theorem sendsFec_pair : pair.SendsFec pairHeader pairFec pairThird :=
  ⟨by decide, by decide, by decide, by decide, isFec_pairFec, rfl⟩

theorem receiveAll_pair : ∃ r' out, FecReceiverImpl.create.receiveAll [pairThird, pairSecond] = .ok (r', out) ∧ r'.Idle pair
    ∧ (∀ w ∈ out, ∃ n, pair.sent n = some w)
    ∧ ∀ d ∈ [pairThird, pairSecond], ∀ n, pair.SendsMedia n d → pair.content n ∈ out := by
  refine FecReceiverImpl.receiveAll_sound FecReceiverImpl.idle_create fun d hd => ?_
  rcases List.mem_cons.mp hd with rfl | hd
  · exact .fec pairHeader pairFec sendsFec_pair
  · rw [List.mem_singleton.mp hd]
    exact .media 1 sendsMedia_pair

end Licode.Media.Fec
