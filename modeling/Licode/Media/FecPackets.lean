import Licode.Checked
import Licode.Media.Rtcp

/-!
# Packets of the FEC codec

`ForwardErrorCorrection::Packet` is an array of fixed size with a length beside it. Nothing but the
array's own size bounds what is copied into it or combined with it, so every access is checked against that.
-/

namespace Licode.Media.Fec

open Overlay

/-- `IP_PACKET_SIZE`. -/
def ipPacketSize : Nat := 1500

/-- `uint8_t data[IP_PACKET_SIZE]`. -/
structure PacketData where
  bytes : List UInt8
  size : bytes.length = ipPacketSize
  deriving DecidableEq

namespace PacketData

/-- What an index reads. -/
def cell (d : PacketData) (i : Nat) : UInt8 := d.bytes.getD i 0

/-- A new packet and what `memset` leaves. -/
def zero : PacketData := ⟨List.replicate ipPacketSize 0, List.length_replicate⟩

def byte (d : PacketData) (i : Nat) : Checked UInt8 :=
  if i < ipPacketSize then .ok (d.cell i) else .error .outOfBounds

/-- What `memcpy` takes out of the array. -/
def load (d : PacketData) (offset count : Nat) : Checked (List UInt8) :=
  if offset + count ≤ ipPacketSize then .ok (read d.bytes offset count) else .error .outOfBounds

/-- `memcpy` into the array. -/
def store (d : PacketData) (offset : Nat) (field : List UInt8) : Checked PacketData :=
  if offset + field.length ≤ ipPacketSize then .ok ⟨write d.bytes offset field, (length_write _ _ _).trans d.size⟩
  else .error .outOfBounds

/-- `data[i] ^= byte`. -/
def xorByte (d : PacketData) (i : Nat) (byte : UInt8) : Checked PacketData := do
  let old ← d.byte i
  d.store i [old ^^^ byte]

/-- `for (; i < i + count; ++i) data[i] ^= src[i - shift]`. -/
def xorBytes (src : PacketData) (shift : Nat) : Nat → Nat → PacketData → Checked PacketData
  | _, 0, d => .ok d
  | i, count + 1, d => do
      let byte ← src.byte (i - shift)
      let d ← d.xorByte i byte
      xorBytes src shift (i + 1) count d

/-! ### What the accesses do -/

@[simp]
theorem cell_zero (i : Nat) : zero.cell i = 0 := by
  rw [PacketData.cell, zero, List.getD_eq_getElem?_getD, List.getElem?_replicate]
  split_ifs <;> rfl

theorem byte_of_lt {i : Nat} (h : i < ipPacketSize) (d : PacketData) : d.byte i = .ok (d.cell i) := if_pos h

theorem load_of_le {offset count : Nat} (h : offset + count ≤ ipPacketSize) (d : PacketData) :
    d.load offset count = .ok (read d.bytes offset count) := if_pos h

theorem length_read {d : PacketData} {offset count : Nat} (h : offset + count ≤ ipPacketSize) :
    (read d.bytes offset count).length = count :=
  Overlay.length_read (by rw [d.size]; exact h)

theorem getD_read {i count : Nat} (h : i < count) (d : PacketData) (offset : Nat) :
    (read d.bytes offset count).getD i 0 = d.cell (offset + i) := by
  rw [PacketData.cell, Overlay.read, List.getD_eq_getElem?_getD, List.getD_eq_getElem?_getD,
    List.getElem?_take_of_lt h, List.getElem?_drop]

theorem read_eq {d d' : PacketData} {offset count : Nat} (hle : offset + count ≤ ipPacketSize)
    (h : ∀ i < offset + count, d.cell i = d'.cell i) : read d.bytes offset count = read d'.bytes offset count := by
  have hleft : (read d.bytes offset count).length = count := length_read hle
  have hright : (read d'.bytes offset count).length = count := length_read hle
  apply List.ext_getElem (hleft.trans hright.symm)
  intro i hi hi'
  have hcell := h (offset + i) (by omega)
  rw [← getD_read (show i < count by omega), ← getD_read (show i < count by omega),
    List.getD_eq_getElem _ _ hi, List.getD_eq_getElem _ _ hi'] at hcell
  exact hcell

/-- A copy changes the bytes that it covers. -/
theorem store_of_le (d : PacketData) (offset : Nat) (field : List UInt8)
    (h : offset + field.length ≤ ipPacketSize) : ∃ d', d.store offset field = .ok d' ∧
      ∀ i, d'.cell i = if offset ≤ i ∧ i < offset + field.length then field.getD (i - offset) 0 else d.cell i := by
  refine ⟨_, if_pos h, fun i => ?_⟩
  have htake : (d.bytes.take offset).length = offset := List.length_take_of_le (by rw [d.size]; omega)
  change (write d.bytes offset field).getD i 0 = if _ then _ else d.bytes.getD i 0
  rw [write_of_le (by rw [d.size]; exact h), List.getD_eq_getElem?_getD, List.getD_eq_getElem?_getD,
    List.getD_eq_getElem?_getD]
  by_cases hbefore : i < offset
  · rw [if_neg (by omega), List.getElem?_append_left (by omega), List.getElem?_take_of_lt hbefore]
  · rw [List.getElem?_append_right (by omega), htake]
    by_cases hin : i < offset + field.length
    · rw [if_pos (by omega), List.getElem?_append_left (by omega)]
    · have hindex : offset + field.length + (i - offset - field.length) = i := by omega
      rw [if_neg (by omega), List.getElem?_append_right (by omega), List.getElem?_drop, hindex]

theorem xorByte_of_lt {i : Nat} (h : i < ipPacketSize) (d : PacketData) (byte : UInt8) :
    ∃ d', d.xorByte i byte = .ok d' ∧ ∀ j, d'.cell j = if j = i then d.cell j ^^^ byte else d.cell j := by
  obtain ⟨d', hstore, hcell⟩ := store_of_le d i [d.cell i ^^^ byte]
    (by rw [List.length_singleton]; omega)
  refine ⟨d', by rw [xorByte, byte_of_lt h, Checked.ok_bind, hstore], fun j => ?_⟩
  rw [hcell, List.length_singleton]
  by_cases hj : j = i
  · subst hj
    rw [if_pos (by omega), if_pos rfl, Nat.sub_self]
    rfl
  · rw [if_neg (by omega), if_neg hj]

/-- The loop combines every byte that it comes to. -/
theorem xorBytes_of_le (src d : PacketData) {shift : Nat} (first count : Nat) (hshift : shift ≤ first)
    (h : first + count ≤ ipPacketSize) : ∃ d', xorBytes src shift first count d = .ok d' ∧
      ∀ i, d'.cell i = if first ≤ i ∧ i < first + count then d.cell i ^^^ src.cell (i - shift) else d.cell i := by
  induction count generalizing d first with
  | zero => exact ⟨d, rfl, fun i => by rw [if_neg (by omega)]⟩
  | succ count ih =>
      obtain ⟨d₁, hxor, hcell₁⟩ := xorByte_of_lt (i := first) (by omega) d (src.cell (first - shift))
      obtain ⟨d', hrest, hcell⟩ := ih d₁ (first + 1) (by omega) (by omega)
      refine ⟨d', ?_, fun i => ?_⟩
      · rw [xorBytes, byte_of_lt (by omega), Checked.ok_bind, hxor, Checked.ok_bind, hrest]
      · rw [hcell, hcell₁]
        by_cases hi : i = first
        · subst hi
          rw [if_neg (by omega), if_pos rfl, if_pos (by omega)]
        · rw [if_neg hi]
          exact if_congr (by omega) rfl rfl

end PacketData

/-- `ForwardErrorCorrection::Packet`, without the count of its references. -/
structure Packet where
  length : UInt16
  data : PacketData
  deriving DecidableEq

namespace Packet

/-- `new Packet`. -/
def create : Packet := ⟨0, .zero⟩

/-- The packet as it is on the wire. -/
def wire (p : Packet) : List UInt8 := p.data.bytes.take p.length.toNat

/-- A packet holds these bytes, and they fit into it. -/
structure Carries (p : Packet) (w : List UInt8) : Prop where
  length : p.length.toNat = w.length
  fits : w.length ≤ ipPacketSize
  bytes : ∀ i < w.length, p.data.cell i = w.getD i 0

theorem Carries.wire_eq {p : Packet} {w : List UInt8} (h : p.Carries w) : p.wire = w := by
  apply List.ext_getElem?
  intro i
  rw [wire, h.length]
  by_cases hi : i < w.length
  · have hbyte := h.bytes i hi
    have hsize : i < p.data.bytes.length := by
      rw [p.data.size]
      exact hi.trans_le h.fits
    rw [PacketData.cell, List.getD_eq_getElem _ _ hsize, List.getD_eq_getElem _ _ hi] at hbyte
    rw [List.getElem?_take_of_lt hi, List.getElem?_eq_getElem hsize, List.getElem?_eq_getElem hi, hbyte]
  · have htake := List.length_take_le w.length p.data.bytes
    rw [List.getElem?_eq_none (by omega), List.getElem?_eq_none (by omega)]

end Packet

end Licode.Media.Fec
