import Licode.Checked
import Licode.Media.SendQueue

/-!
# Compound RTCP packets

`RtcpHeader` is laid over the place of a buffer that a walk has come to. A sub-packet gives its own
length in words, less one, and the walk goes on behind it until the length of the whole has been seen.
An access outside of the buffer is a fault.
-/

namespace Licode.Media.Rtcp

open Overlay

/-! ### `RtcpHeader` -/

def load (buf : List UInt8) (offset width : Nat) : Checked (List UInt8) :=
  if offset + width ≤ buf.length then .ok (read buf offset width) else .error .outOfBounds

def store (buf : List UInt8) (offset : Nat) (field : List UInt8) : Checked (List UInt8) :=
  if offset + field.length ≤ buf.length then .ok (write buf offset field) else .error .outOfBounds

def senderPT : Nat := 200
def receiverPT : Nat := 201
def rtpFeedbackPT : Nat := 205
def psFeedbackPT : Nat := 206

def pliFMT : Nat := 1
def sliFMT : Nat := 2
def firFMT : Nat := 4

/-- The format of application-layer feedback, `RTCP_AFB`. -/
def afbFMT : Nat := 15

/-- The identifier of a REMB message among the application-layer feedback. -/
def rembId : List UInt8 := [82, 69, 77, 66]

/-- The five bits that are a number of blocks or a format. -/
def getBlockCount (buf : List UInt8) : Checked Nat := do
  let byte ← load buf 0 1
  return number byte % 32

def getPacketType (buf : List UInt8) : Checked Nat := do
  let byte ← load buf 1 1
  return number byte

/-- `(ntohs(length) + 1) * 4`. -/
def rtcpLength (buf : List UInt8) : Checked Nat := do
  let length ← load buf 2 2
  return (number length + 1) * 4

def getSSRC (buf : List UInt8) : Checked UInt32 := do
  let ssrc ← load buf 4 4
  return .ofNat (number ssrc)

def getSourceSSRC (buf : List UInt8) : Checked UInt32 := do
  let ssrc ← load buf 8 4
  return .ofNat (number ssrc)

def setSSRC (buf : List UInt8) (ssrc : UInt32) : Checked (List UInt8) :=
  store buf 4 (image 4 ssrc.toNat)

def getHighestSeqnum (buf : List UInt8) : Checked Nat := do
  let highest ← load buf 18 2
  return number highest

def setHighestSeqnum (buf : List UInt8) (highest : Nat) : Checked (List UInt8) :=
  store buf 18 (image 2 highest)

def getSeqnumCycles (buf : List UInt8) : Checked Nat := do
  let cycles ← load buf 16 2
  return number cycles

def setSeqnumCycles (buf : List UInt8) (cycles : Nat) : Checked (List UInt8) :=
  store buf 16 (image 2 cycles)

def getNackPid (buf : List UInt8) : Checked Nat := do
  let pid ← load buf 12 2
  return number pid

def setNackPid (buf : List UInt8) (pid : Nat) : Checked (List UInt8) :=
  store buf 12 (image 2 pid)

/-- The one number that is not in network order. -/
def getNackBlp (buf : List UInt8) : Checked UInt16 := do
  let blp ← load buf 14 2
  return .ofNat (number blp.reverse)

def getFractionLost (buf : List UInt8) : Checked UInt8 := do
  let fraction ← load buf 12 1
  return .ofNat (number fraction)

/-- `ntohl(lost) >> 8`, which takes away the sign of the bit-field. -/
def getLostPackets (buf : List UInt8) : Checked UInt32 := do
  let lost ← load buf 13 3
  return .ofNat (number lost)

def getJitter (buf : List UInt8) : Checked UInt32 := do
  let jitter ← load buf 20 4
  return .ofNat (number jitter)

def getLastSr (buf : List UInt8) : Checked UInt32 := do
  let lastSr ← load buf 24 4
  return .ofNat (number lastSr)

def getDelaySinceLastSr (buf : List UInt8) : Checked UInt32 := do
  let delay ← load buf 28 4
  return .ofNat (number delay)

def getPacketsSent (buf : List UInt8) : Checked UInt32 := do
  let packets ← load buf 20 4
  return .ofNat (number packets)

def getOctetsSent (buf : List UInt8) : Checked UInt32 := do
  let octets ← load buf 24 4
  return .ofNat (number octets)

/-- `ntohl(brLength)`: the three bytes of the bit-field are the upper ones of the number. -/
def brLength (buf : List UInt8) : Checked UInt32 := do
  let field ← load buf 17 3
  return .ofNat (number field * 256)

def getBrExp (buf : List UInt8) : Checked UInt32 := do
  let field ← brLength buf
  return field >>> 26

def getBrMantis (buf : List UInt8) : Checked UInt32 := do
  let field ← brLength buf
  return field >>> 8 &&& 0x3FFFF

/-- The loop of `setREMBBitRate`, with at most `fuel` turns before `exp` is 64. -/
def rembExponent (bitRate : UInt64) : Nat → UInt64 → Nat → Nat
  | 0, _, exp => exp
  | fuel + 1, max, exp =>
      if bitRate ≥ max then rembExponent bitRate fuel (max <<< 1) (exp + 1) else exp

/-- The three bytes that `setREMBBitRate` writes, the lower ones of the number in network order. -/
def rembField (bitRate : UInt64) : List UInt8 :=
  let exp := rembExponent bitRate 64 0x3FFFF 0
  let mantissa := bitRate >>> .ofNat exp &&& 0x3FFFF
  image 3 (mantissa.toNat + (exp % 64) * 2 ^ 18)

def setREMBBitRate (buf : List UInt8) (bitRate : UInt64) : Checked (List UInt8) :=
  store buf 17 (rembField bitRate)

@[simp]
theorem length_rembField (bitRate : UInt64) : (rembField bitRate).length = 3 := length_image _ _

section Append

variable {data field : List UInt8} {offset width : Nat}

theorem load_append (h : offset + width ≤ data.length) (rest : List UInt8) :
    load (data ++ rest) offset width = .ok (read data offset width) := by
  rw [load, if_pos, read_append rest h]
  rw [List.length_append]
  omega

theorem store_append (h : offset + field.length ≤ data.length) (rest : List UInt8) :
    store (data ++ rest) offset field = .ok (write data offset field ++ rest) := by
  rw [store, if_pos, write_append rest h]
  rw [List.length_append]
  omega

end Append

/-! ### The walk -/

/-- The loop over a compound packet, of which `rest` bytes have not been seen, from the place `offset`
on. The result tells where the walk has been. -/
def walk (visit : List UInt8 → Checked (List UInt8)) :
    Nat → Nat → Nat → List UInt8 → Checked (List UInt8 × List Nat)
  | 0, _, _, _ => .error .diverged
  | fuel + 1, offset, rest, movingBuf => do
      let length ← rtcpLength movingBuf
      let movingBuf ← visit movingBuf
      if length < rest then
        let (behind, offsets) ← walk visit fuel (offset + length) (rest - length) (movingBuf.drop length)
        return (movingBuf.take length ++ behind, offset :: offsets)
      else return (movingBuf, [offset])

/-- The same loop where nothing is written, with what has been found so far. -/
def scan {σ : Type} (visit : σ → List UInt8 → Checked σ) : Nat → Nat → σ → List UInt8 → Checked σ
  | 0, _, _, _ => .error .diverged
  | fuel + 1, rest, s, movingBuf => do
      let length ← rtcpLength movingBuf
      let s ← visit s movingBuf
      if length < rest then scan visit fuel (rest - length) s (movingBuf.drop length) else return s

/-- A sub-packet has the length that its header gives. -/
structure SubPacket where
  bytes : List UInt8
  size : bytes.length = (number (read bytes 2 2) + 1) * 4

namespace SubPacket

def count (sub : SubPacket) : Nat := number (read sub.bytes 0 1) % 32

def type (sub : SubPacket) : Nat := number (read sub.bytes 1 1)

theorem four_le (sub : SubPacket) : 4 ≤ sub.bytes.length := by
  have hsize := sub.size
  omega

theorem rtcpLength_append (sub : SubPacket) (rest : List UInt8) :
    rtcpLength (sub.bytes ++ rest) = .ok sub.bytes.length := by
  have hfour := sub.four_le
  rw [rtcpLength, load_append (by omega), sub.size]
  rfl

theorem getPacketType_append (sub : SubPacket) (rest : List UInt8) :
    getPacketType (sub.bytes ++ rest) = .ok sub.type := by
  have hfour := sub.four_le
  rw [getPacketType, load_append (by omega)]
  rfl

theorem getBlockCount_append (sub : SubPacket) (rest : List UInt8) :
    getBlockCount (sub.bytes ++ rest) = .ok sub.count := by
  have hfour := sub.four_le
  rw [getBlockCount, load_append (by omega)]
  rfl

end SubPacket

/-- The buffer that the sub-packets tile. -/
def compound (subs : List SubPacket) : List UInt8 := subs.flatMap SubPacket.bytes

theorem compound_cons (sub : SubPacket) (subs : List SubPacket) :
    compound (sub :: subs) = sub.bytes ++ compound subs := rfl

theorem length_le_compound (subs : List SubPacket) : subs.length ≤ (compound subs).length := by
  induction subs with
  | nil => exact Nat.zero_le _
  | cons sub subs ih =>
      have hfour := sub.four_le
      rw [compound_cons, List.length_append, List.length_cons]
      omega

/-- Where the sub-packets begin. -/
def offsetsFrom (offset : Nat) : List SubPacket → List Nat
  | [] => []
  | sub :: subs => offset :: offsetsFrom (offset + sub.bytes.length) subs

/-- If what is done at a sub-packet stays within it, the walk comes to each sub-packet once, in their
order, and the parts of its result are what was made of them. -/
theorem walk_compound {visit : List UInt8 → Checked (List UInt8)} {R : SubPacket → List UInt8 → Prop}
    {subs : List SubPacket} (hne : subs ≠ [])
    (hvisit : ∀ sub ∈ subs, ∃ result, R sub result ∧ result.length = sub.bytes.length
      ∧ ∀ rest, visit (sub.bytes ++ rest) = .ok (result ++ rest))
    {fuel : Nat} (hfuel : subs.length ≤ fuel) (offset : Nat) :
    ∃ results, List.Forall₂ R subs results
      ∧ walk visit fuel offset (compound subs).length (compound subs)
        = .ok (results.flatten, offsetsFrom offset subs) := by
  induction fuel generalizing subs offset with
  | zero =>
      rw [Nat.le_zero, List.length_eq_zero_iff] at hfuel
      exact absurd hfuel hne
  | succ fuel ih =>
      cases subs with
      | nil => exact absurd rfl hne
      | cons sub subs =>
          obtain ⟨result, hresult, hlength, hlocal⟩ := hvisit sub List.mem_cons_self
          rw [compound_cons, walk, sub.rtcpLength_append, Checked.ok_bind, hlocal, Checked.ok_bind]
          cases hsubs : subs with
          | nil =>
              refine ⟨[result], .cons hresult .nil, ?_⟩
              rw [if_neg (by simp [compound])]
              simp [compound, offsetsFrom]
          | cons next more =>
              rw [← hsubs]
              have hmore : 0 < (compound subs).length := by
                have hlong := length_le_compound subs
                rw [hsubs, List.length_cons] at hlong
                rw [hsubs]
                omega
              obtain ⟨results, hall, hwalk⟩ := ih (by rw [hsubs]; simp)
                (fun sub hmem => hvisit sub (List.mem_cons_of_mem _ hmem))
                (by rw [List.length_cons] at hfuel; omega) (offset + sub.bytes.length)
              refine ⟨result :: results, .cons hresult hall, ?_⟩
              rw [if_pos (by rw [List.length_append]; omega), ← hlength, List.drop_left, hlength,
                List.length_append, Nat.add_sub_cancel_left, hwalk, Checked.ok_bind, ← hlength,
                List.take_left, hlength]
              rfl

end Licode.Media.Rtcp
