import Licode.Checked
import Licode.Media.RtpVP8Parser

/-!
# Packets of VP8

`OutputProcessor::packageVideo` cuts a frame into fragments, gives each a descriptor of one byte and
sends it behind an RTP header. Its loop ends when `RtpVP8Fragmenter` has said that a fragment was the
last one, and the fragmenter says so when its queue has become empty.
-/

namespace Licode.Media

open Overlay

namespace RtpVP8Fragmenter

/-- `MAX_SIZE`, with the descriptor. -/
def maxSize : Nat := 1100

structure Fragment where
  position : Nat
  size : Nat
  first : Bool
  deriving DecidableEq

def calculatePackets (currentPos remaining : Nat) : List Fragment :=
  if 0 < remaining then
    let size := if remaining > maxSize - 1 then maxSize - 1 else remaining
    ⟨currentPos, size, currentPos = 0⟩ :: calculatePackets (currentPos + size) (remaining - size)
  else []
termination_by remaining
decreasing_by
  have hmax : maxSize = 1100 := rfl
  split_ifs <;> omega

/-- The S bit stands in the descriptor of the first fragment. -/
def writeFragment (totalData : List UInt8) (fragment : Fragment) : List UInt8 :=
  (if fragment.first then 0x10 else 0) :: read totalData fragment.position fragment.size

end RtpVP8Fragmenter

open RtpVP8Fragmenter

structure OutputProcessor where
  videoPackager : Bool
  seqnum : UInt32

namespace OutputProcessor

/-- The header of a packet, with its own values for the rest. -/
def rtpHeader (marker : Bool) (seqNumber : UInt16) (timestamp : UInt32) : List UInt8 :=
  [0x80, if marker then 228 else 100] ++ image 2 seqNumber.toNat ++ image 4 timestamp.toNat ++ image 4 55543

/-- A packet as it is handed to `receiveRtpData`. -/
def packetOf (marker : Bool) (seqNumber : UInt16) (timestamp : UInt32) (payload : List UInt8) : List UInt8 :=
  rtpHeader marker seqNumber timestamp ++ payload

/-- The loop of `packageVideo`. Without a fragment it would send empty packets for ever. -/
def sendFragments (totalData : List UInt8) (timestamp : UInt32) :
    UInt32 → List Fragment → Checked (List (List UInt8) × UInt32)
  | _, [] => .error .diverged
  | seqnum, fragment :: fragmentQueue => do
      let lastFrame := fragmentQueue.isEmpty
      let packet := packetOf lastFrame seqnum.toUInt16 timestamp (writeFragment totalData fragment)
      if lastFrame then return ([packet], seqnum + 1)
      let (packets, seqnum) ← sendFragments totalData timestamp (seqnum + 1) fragmentQueue
      return (packet :: packets, seqnum)

/-- `av_rescale(t, 90000, 1000)` of the time of the frame, or of the clock where it has none. -/
def rescaled (pts millis : Int) : UInt32 := .ofInt (90 * if pts = 0 then millis else pts)

def packageVideo (p : OutputProcessor) (inBuff : List UInt8) (pts millis : Int) :
    Checked (Int × List (List UInt8) × OutputProcessor) :=
  if p.videoPackager = false then .ok (-1, [], p)
  else if inBuff.length ≤ 0 then .ok (-1, [], p)
  else do
    let (packets, seqnum) ← sendFragments inBuff (rescaled pts millis) p.seqnum
      (calculatePackets 0 inBuff.length)
    return (0, packets, { p with seqnum := seqnum })

end OutputProcessor

/-- A frame as the encoder gives it, and the time of the clock when it is packaged. -/
structure VideoFrame where
  data : List UInt8
  pts : Int
  millis : Int

namespace OutputProcessor

/-- The packets of frame after frame. -/
def packageFrames (p : OutputProcessor) :
    List VideoFrame → Checked (List (List (List UInt8)) × OutputProcessor)
  | [] => .ok ([], p)
  | frame :: frames => do
      let (_, packets, p) ← p.packageVideo frame.data frame.pts frame.millis
      let (groups, p) ← packageFrames p frames
      return (packets :: groups, p)

/-! ### The fields of a packet -/

section Packet

variable (marker : Bool) (seqNumber : UInt16) (timestamp : UInt32) (payload : List UInt8)

@[simp]
theorem length_rtpHeader : (rtpHeader marker seqNumber timestamp).length = 12 := by
  simp [rtpHeader]

theorem drop_packetOf : (packetOf marker seqNumber timestamp payload).drop 12 = payload := by
  have hlength := length_rtpHeader marker seqNumber timestamp
  rw [packetOf, ← hlength, List.drop_left]

theorem getSeqNumber_packetOf : getSeqNumber (packetOf marker seqNumber timestamp payload) = seqNumber := by
  have hread : read (packetOf marker seqNumber timestamp payload) 2 2 = image 2 seqNumber.toNat := by
    rw [packetOf, rtpHeader, List.append_assoc, List.append_assoc, List.append_assoc]
    exact read_field rfl (length_image _ _) _
  rw [getSeqNumber, hread, number_image seqNumber.toNat_lt, UInt16.ofNat_toNat]

theorem getTimestamp_packetOf : getTimestamp (packetOf marker seqNumber timestamp payload) = timestamp := by
  have hread : read (packetOf marker seqNumber timestamp payload) 4 4 = image 4 timestamp.toNat := by
    rw [packetOf, rtpHeader, List.append_assoc, List.append_assoc]
    exact read_field (by simp) (length_image _ _) _
  rw [getTimestamp, hread, number_image timestamp.toNat_lt, UInt32.ofNat_toNat]

theorem getMarker_packetOf : getMarker (packetOf marker seqNumber timestamp payload) = marker := by
  cases marker <;> rfl

theorem getHeaderLength_packetOf (stale : Nat → UInt8) :
    getHeaderLength (packetOf marker seqNumber timestamp payload) stale = 12 := by
  have hfirst : byteAt (packetOf marker seqNumber timestamp payload) stale 0 = 0x80 := rfl
  rw [getHeaderLength, hfirst]
  simp

theorem payloadOf_packetOf (stale : Nat → UInt8) :
    payloadOf (packetOf marker seqNumber timestamp payload) stale = payload := by
  rw [payloadOf, getHeaderLength_packetOf, drop_packetOf]

end Packet

/-! ### The fragments of a frame -/

/-- The size of the next fragment. -/
def fragmentSize (remaining : Nat) : Nat := min (maxSize - 1) remaining

theorem calculatePackets_of_pos {remaining : Nat} (h : 0 < remaining) (currentPos : Nat) :
    calculatePackets currentPos remaining = ⟨currentPos, fragmentSize remaining, currentPos = 0⟩
      :: calculatePackets (currentPos + fragmentSize remaining) (remaining - fragmentSize remaining) := by
  have hsize : (if remaining > maxSize - 1 then maxSize - 1 else remaining) = fragmentSize remaining := by
    rw [fragmentSize]
    split_ifs <;> omega
  rw [calculatePackets, if_pos h, hsize]

theorem calculatePackets_zero (currentPos : Nat) : calculatePackets currentPos 0 = [] := by
  rw [calculatePackets, if_neg (Nat.lt_irrefl 0)]

theorem fragmentSize_pos {remaining : Nat} (h : 0 < remaining) : 0 < fragmentSize remaining := by
  rw [fragmentSize, maxSize]
  omega

theorem fragmentSize_le (remaining : Nat) : fragmentSize remaining ≤ remaining := Nat.min_le_right _ _

/-- The pieces that the fragments stand for. -/
def pieces (totalData : List UInt8) (fragments : List Fragment) : List (List UInt8) :=
  fragments.map fun fragment => read totalData fragment.position fragment.size

/-- The fragments tile what is left of the frame. -/
theorem flatten_pieces {totalData : List UInt8} {currentPos remaining : Nat}
    (h : currentPos + remaining = totalData.length) :
    (pieces totalData (calculatePackets currentPos remaining)).flatten = totalData.drop currentPos := by
  induction remaining using Nat.strong_induction_on generalizing currentPos with
  | _ remaining ih =>
      obtain rfl | hpos := Nat.eq_zero_or_pos remaining
      · rw [calculatePackets_zero, List.drop_of_length_le (by omega)]
        rfl
      · have hsize := fragmentSize_pos hpos
        have hle := fragmentSize_le remaining
        rw [calculatePackets_of_pos hpos, pieces, List.map_cons, List.flatten_cons]
        rw [← pieces, ih (remaining - fragmentSize remaining) (by omega) (by omega), Overlay.read, ← List.drop_drop,
          List.take_append_drop]

/-- The number of packets that a frame of some size needs. -/
def packetCount (size : Nat) : Nat := (size + 1098) / 1099

theorem length_calculatePackets (currentPos remaining : Nat) :
    (calculatePackets currentPos remaining).length = packetCount remaining := by
  induction remaining using Nat.strong_induction_on generalizing currentPos with
  | _ remaining ih =>
      obtain rfl | hpos := Nat.eq_zero_or_pos remaining
      · rw [calculatePackets_zero]
        rfl
      · have hsize := fragmentSize_pos hpos
        rw [calculatePackets_of_pos hpos, List.length_cons, ih (remaining - fragmentSize remaining) (by omega),
          packetCount, packetCount, fragmentSize, maxSize]
        omega

/-- Fragments are not empty and fit a packet, and only the first has the S bit. -/
theorem mem_calculatePackets {currentPos remaining : Nat} {fragment : Fragment}
    (h : fragment ∈ calculatePackets currentPos remaining) :
    0 < fragment.size ∧ fragment.size < maxSize ∧ fragment.position + fragment.size ≤ currentPos + remaining
      ∧ currentPos ≤ fragment.position ∧ fragment.first = decide (fragment.position = 0) := by
  induction remaining using Nat.strong_induction_on generalizing currentPos with
  | _ remaining ih =>
      obtain rfl | hpos := Nat.eq_zero_or_pos remaining
      · rw [calculatePackets_zero] at h
        cases h
      · have hsize := fragmentSize_pos hpos
        have hle := fragmentSize_le remaining
        have hmax : fragmentSize remaining < maxSize := by
          rw [fragmentSize, maxSize]
          omega
        rw [calculatePackets_of_pos hpos, List.mem_cons] at h
        obtain rfl | h := h
        · exact ⟨hsize, hmax, by dsimp only; omega, le_rfl, rfl⟩
        · obtain ⟨hfirst, hsecond, hthird, hfourth, hlast⟩ := ih _ (by omega) h
          exact ⟨hfirst, hsecond, by omega, by omega, hlast⟩

theorem pieces_ne_nil (totalData : List UInt8) :
    ∀ piece ∈ pieces totalData (calculatePackets 0 totalData.length), piece ≠ [] := by
  refine List.forall_mem_map.mpr fun fragment hfragment => ?_
  obtain ⟨hpos, -, hend, -, -⟩ := mem_calculatePackets hfragment
  refine List.ne_nil_of_length_pos ?_
  rw [length_read (by omega)]
  exact hpos

theorem first_of_getElem? {remaining i : Nat} {fragment : Fragment}
    (h : (calculatePackets 0 remaining)[i]? = some fragment) : fragment.first = decide (i = 0) := by
  obtain rfl | hpos := Nat.eq_zero_or_pos remaining
  · rw [calculatePackets_zero] at h
    cases h
  · have hsize := fragmentSize_pos hpos
    rw [calculatePackets_of_pos hpos] at h
    cases i with
    | zero =>
        cases h
        rfl
    | succ i =>
        obtain ⟨-, -, -, hposition, hfirst⟩ := mem_calculatePackets (List.mem_of_getElem? h)
        rw [hfirst, decide_eq_false (by omega), decide_eq_false (Nat.succ_ne_zero i)]

/-- The packets of some fragments, in their order. -/
def packetsOf (totalData : List UInt8) (timestamp : UInt32) : UInt32 → List Fragment → List (List UInt8)
  | _, [] => []
  | seqnum, fragment :: fragmentQueue =>
      packetOf fragmentQueue.isEmpty seqnum.toUInt16 timestamp (writeFragment totalData fragment)
        :: packetsOf totalData timestamp (seqnum + 1) fragmentQueue

theorem add_one_add_ofNat (n : UInt32) (i : Nat) : n + 1 + .ofNat i = n + .ofNat (i + 1) := by
  rw [UInt32.ofNat_add, UInt32.add_assoc, UInt32.add_comm 1]
  rfl

theorem length_packetsOf (totalData : List UInt8) (timestamp seqnum : UInt32) (fragments : List Fragment) :
    (packetsOf totalData timestamp seqnum fragments).length = fragments.length := by
  induction fragments generalizing seqnum with
  | nil => rfl
  | cons fragment fragments ih => rw [packetsOf, List.length_cons, ih, List.length_cons]

theorem getElem?_packetsOf (totalData : List UInt8) (timestamp seqnum : UInt32) (fragments : List Fragment)
    (i : Nat) :
    (packetsOf totalData timestamp seqnum fragments)[i]? = fragments[i]?.map fun fragment =>
      packetOf (i + 1 = fragments.length) (seqnum + .ofNat i).toUInt16 timestamp
        (writeFragment totalData fragment) := by
  induction fragments generalizing seqnum i with
  | nil => rfl
  | cons fragment fragments ih =>
      rw [packetsOf]
      cases i with
      | zero =>
          have hlast : fragments.isEmpty = decide (0 + 1 = (fragment :: fragments).length) := by
            cases fragments <;> simp
          rw [List.getElem?_cons_zero, List.getElem?_cons_zero, Option.map_some, ← hlast]
          simp
      | succ i =>
          rw [List.getElem?_cons_succ, List.getElem?_cons_succ, ih, add_one_add_ofNat]
          simp

theorem sendFragments_eq (totalData : List UInt8) (timestamp seqnum : UInt32) {fragments : List Fragment}
    (hne : fragments ≠ []) :
    sendFragments totalData timestamp seqnum fragments
      = .ok (packetsOf totalData timestamp seqnum fragments, seqnum + .ofNat fragments.length) := by
  induction fragments generalizing seqnum with
  | nil => exact absurd rfl hne
  | cons fragment fragments ih =>
      cases fragments with
      | nil => rfl
      | cons next more =>
          have hsum : seqnum + 1 + .ofNat (next :: more).length = seqnum + .ofNat (fragment :: next :: more).length := by
            rw [List.length_cons (a := fragment), add_one_add_ofNat]
          rw [sendFragments, ih (seqnum + 1) (List.cons_ne_nil next more), hsum]
          rfl

theorem packageVideo_eq {p : OutputProcessor} (hon : p.videoPackager = true) {inBuff : List UInt8}
    (hne : inBuff ≠ []) (pts millis : Int) :
    p.packageVideo inBuff pts millis
      = .ok (0, packetsOf inBuff (rescaled pts millis) p.seqnum (calculatePackets 0 inBuff.length),
          { p with seqnum := p.seqnum + .ofNat (calculatePackets 0 inBuff.length).length }) := by
  have hlength : 0 < inBuff.length := List.length_pos_iff.mpr hne
  have hfragments : calculatePackets 0 inBuff.length ≠ [] := by
    rw [calculatePackets_of_pos hlength]
    exact List.cons_ne_nil _ _
  rw [packageVideo, if_neg (by simp [hon]), if_neg (by omega), sendFragments_eq _ _ _ hfragments]
  rfl

/-! ### The packets of frame after frame -/

/-- The packets of one frame. -/
structure Packetized (frame : List UInt8) (packets : List (List UInt8)) : Prop where
  timestamp : ∃ timestamp, ∀ packet ∈ packets, getTimestamp packet = timestamp
  headerLength : ∀ packet ∈ packets, ∀ stale, getHeaderLength packet stale = 12
  size : ∀ packet ∈ packets, (packet.drop 12).length ≤ 1100
  descriptor : ∀ i packet, packets[i]? = some packet → packet[12]? = some (if i = 0 then 0x10 else 0)
  marker : ∀ i packet, packets[i]? = some packet → getMarker packet = decide (i + 1 = packets.length)
  data : packets.flatMap (·.drop 13) = frame

theorem getElem?_packetOf (marker : Bool) (seqNumber : UInt16) (timestamp : UInt32) (first : UInt8)
    (rest : List UInt8) : (packetOf marker seqNumber timestamp (first :: rest))[12]? = some first := by
  have hlength := length_rtpHeader marker seqNumber timestamp
  rw [packetOf, List.getElem?_append_right (by omega), hlength]
  rfl

theorem drop_packetsOf (totalData : List UInt8) (timestamp seqnum : UInt32) (fragments : List Fragment) :
    (packetsOf totalData timestamp seqnum fragments).map (·.drop 13) = pieces totalData fragments := by
  induction fragments generalizing seqnum with
  | nil => rfl
  | cons fragment fragments ih =>
      have hpayload := drop_packetOf fragments.isEmpty seqnum.toUInt16 timestamp (writeFragment totalData fragment)
      have hdrop := congrArg (List.drop 1) hpayload
      rw [List.drop_drop] at hdrop
      rw [packetsOf, List.map_cons, ih, hdrop]
      rfl

theorem packetized_packetsOf (frame : List UInt8) (timestamp seqnum : UInt32) :
    Packetized frame (packetsOf frame timestamp seqnum (calculatePackets 0 frame.length)) := by
  have hmem : ∀ packet ∈ packetsOf frame timestamp seqnum (calculatePackets 0 frame.length),
      ∃ marker seqNumber, ∃ fragment ∈ calculatePackets 0 frame.length,
        packet = packetOf marker seqNumber timestamp (writeFragment frame fragment) := by
    intro packet hpacket
    obtain ⟨i, hi⟩ := List.mem_iff_getElem?.mp hpacket
    rw [getElem?_packetsOf, Option.map_eq_some_iff] at hi
    obtain ⟨fragment, hfragment, rfl⟩ := hi
    exact ⟨_, _, fragment, List.mem_of_getElem? hfragment, rfl⟩
  refine ⟨⟨timestamp, ?_⟩, ?_, ?_, ?_, ?_, ?_⟩
  · intro packet hpacket
    obtain ⟨marker, seqNumber, fragment, -, rfl⟩ := hmem packet hpacket
    exact getTimestamp_packetOf _ _ _ _
  · intro packet hpacket stale
    obtain ⟨marker, seqNumber, fragment, -, rfl⟩ := hmem packet hpacket
    exact getHeaderLength_packetOf _ _ _ _ stale
  · intro packet hpacket
    obtain ⟨marker, seqNumber, fragment, hfragment, rfl⟩ := hmem packet hpacket
    have hsmall : fragment.size < 1100 := (mem_calculatePackets hfragment).2.1
    have hread : (read frame fragment.position fragment.size).length ≤ fragment.size := List.length_take_le _ _
    rw [drop_packetOf, writeFragment, List.length_cons]
    omega
  · intro i packet hpacket
    rw [getElem?_packetsOf, Option.map_eq_some_iff] at hpacket
    obtain ⟨fragment, hfragment, rfl⟩ := hpacket
    rw [writeFragment, getElem?_packetOf, first_of_getElem? hfragment]
    simp
  · intro i packet hpacket
    rw [getElem?_packetsOf, Option.map_eq_some_iff] at hpacket
    obtain ⟨fragment, -, rfl⟩ := hpacket
    rw [getMarker_packetOf, length_packetsOf]
  · rw [List.flatMap_def, drop_packetsOf, flatten_pieces (by omega), List.drop_zero]

theorem getSeqNumber_packetsOf {totalData : List UInt8} {timestamp seqnum : UInt32} {fragments : List Fragment}
    {i : Nat} {packet : List UInt8} (h : (packetsOf totalData timestamp seqnum fragments)[i]? = some packet) :
    getSeqNumber packet = (seqnum + .ofNat i).toUInt16 := by
  rw [getElem?_packetsOf, Option.map_eq_some_iff] at h
  obtain ⟨fragment, -, rfl⟩ := h
  exact getSeqNumber_packetOf _ _ _ _

/-- **Frames are cut into packets.** -/
theorem packageFrames_packetized {p : OutputProcessor} (hon : p.videoPackager = true) (frames : List VideoFrame)
    (hne : ∀ frame ∈ frames, frame.data ≠ []) :
    ∃ groups p', p.packageFrames frames = .ok (groups, p')
      ∧ List.Forall₂ (fun frame packets => Packetized frame.data packets) frames groups
      ∧ (∀ i packet, groups.flatten[i]? = some packet →
          getSeqNumber packet = (p.seqnum + .ofNat i).toUInt16)
      ∧ p'.seqnum = p.seqnum + .ofNat groups.flatten.length := by
  induction frames generalizing p with
  | nil => exact ⟨[], p, rfl, .nil, by simp, by simp⟩
  | cons frame frames ih =>
      set fragments := calculatePackets 0 frame.data.length with hfragments
      set packets := packetsOf frame.data (rescaled frame.pts frame.millis) p.seqnum fragments with hpackets
      have hlength : packets.length = fragments.length := length_packetsOf _ _ _ _
      obtain ⟨groups, p', hrest, hall, hnumbers, hseqnum⟩ :=
        @ih { p with seqnum := p.seqnum + .ofNat fragments.length } hon
          fun f hf => hne f (List.mem_cons_of_mem frame hf)
      refine ⟨packets :: groups, p', ?_, .cons (packetized_packetsOf _ _ _) hall, ?_, ?_⟩
      · rw [packageFrames, packageVideo_eq hon (hne frame List.mem_cons_self), Checked.ok_bind]
        dsimp only
        rw [← hfragments, hrest]
        rfl
      · intro i packet hpacket
        rw [List.flatten_cons] at hpacket
        by_cases hi : i < packets.length
        · rw [List.getElem?_append_left hi] at hpacket
          exact getSeqNumber_packetsOf hpacket
        · rw [List.getElem?_append_right (Nat.not_lt.mp hi)] at hpacket
          have hsum : fragments.length + (i - packets.length) = i := by omega
          rw [hnumbers _ _ hpacket, UInt32.add_assoc, ← UInt32.ofNat_add, hsum]
      · rw [hseqnum, List.flatten_cons, List.length_append, hlength, UInt32.add_assoc, UInt32.ofNat_add]

/-- Two frames, the second of which has its own time. -/
def twoFrames : List VideoFrame := [⟨[1, 2, 3], 0, 40⟩, ⟨[4], 80, 80⟩]

theorem packageFrames_packetized_wrap :
    ∃ groups p', (OutputProcessor.mk true 65535).packageFrames twoFrames = .ok (groups, p')
      ∧ List.Forall₂ (fun frame packets => Packetized frame.data packets) twoFrames groups
      ∧ (∀ i packet, groups.flatten[i]? = some packet → getSeqNumber packet = (65535 + .ofNat i : UInt32).toUInt16)
      ∧ p'.seqnum = 65535 + .ofNat groups.flatten.length :=
  packageFrames_packetized rfl twoFrames (by simp [twoFrames])

end OutputProcessor

end Licode.Media
