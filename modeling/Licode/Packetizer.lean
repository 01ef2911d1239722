import Licode.ByteBufferCodecSpec

/-!
# Composing packets

A `cPacketizer` writes the packet type and then the fields of one packet into the out buffer of its
protocol, and sends the packet when it is destroyed. The calls that one packet makes are a list of
`Field`s; `packetBytes` is what they leave in the out buffer and `frame` what goes over the link,
with the length in front.
-/

namespace Licode

open ByteBuffer

/-- One `WriteXYZ` call of a `cPacketizer`. -/
inductive Field where
  | bool (v : Bool)
  | beInt16 (v : Int16)
  | beUInt16 (v : UInt16)
  | beInt32 (v : Int32)
  | beUInt32 (v : UInt32)
  | beInt64 (v : Int64)
  | varInt32 (v : UInt32)
  | string (v : AString)
  | buf (data : List UInt8)
  deriving DecidableEq

def Field.write : Field → ByteBuffer → Checked (Bool × ByteBuffer)
  | .bool v, out => out.writeBool v
  | .beInt16 v, out => out.writeBEInt16 v
  | .beUInt16 v, out => out.writeBEUInt16 v
  | .beInt32 v, out => out.writeBEInt32 v
  | .beUInt32 v, out => out.writeBEUInt32 v
  | .beInt64 v, out => out.writeBEInt64 v
  | .varInt32 v, out => out.writeVarInt32 v
  | .string v, out => out.writeVarUTF8String v
  | .buf data, out => out.write data

/-- The fields, each under its `VERIFY`. -/
def writeFields : ByteBuffer → List Field → Checked ByteBuffer
  | out, [] => .ok out
  | out, field :: rest => do
      let (res, out) ← field.write out
      verify res
      writeFields out rest

/-- The constructor, which does not look at the result of its write, and the calls up to the
destructor. -/
def packetize (out : ByteBuffer) (packetType : UInt32) (fields : List Field) :
    Checked ByteBuffer := do
  let (_, out) ← out.writeVarInt32 packetType
  writeFields out fields

def Field.bytes : Field → List UInt8
  | .bool v => [boolByte v]
  | .beInt16 v => bigEndian 2 v.toUInt16.toNat
  | .beUInt16 v => bigEndian 2 v.toNat
  | .beInt32 v => bigEndian 4 v.toUInt32.toNat
  | .beUInt32 v => bigEndian 4 v.toNat
  | .beInt64 v => bigEndian 8 v.toUInt64.toNat
  | .varInt32 v => ByteBuffer.varInt32 v
  | .string v => stringBytes v
  | .buf data => data

def fieldsBytes (fields : List Field) : List UInt8 := fields.flatMap Field.bytes

@[simp]
theorem fieldsBytes_nil : fieldsBytes [] = [] := rfl

@[simp]
theorem fieldsBytes_cons (field : Field) (fields : List Field) :
    fieldsBytes (field :: fields) = field.bytes ++ fieldsBytes fields := rfl

/-- Type and payload of a packet. -/
def packetBytes (packetType : UInt32) (payload : List UInt8) : List UInt8 :=
  varInt32 packetType ++ payload

/-- A packet with its length in front. -/
def frame (packet : List UInt8) : List UInt8 :=
  varInt32 (UInt32.ofNat packet.length) ++ packet

theorem Field.encodes (field : Field) : Encodes field.write field.bytes := by
  cases field with
  | bool v => exact encodes_writeBool v
  | beInt16 v => exact encodes_writeBEInt16 v
  | beUInt16 v => exact encodes_writeBEUInt16 v
  | beInt32 v => exact encodes_writeBEInt32 v
  | beUInt32 v => exact encodes_writeBEUInt32 v
  | beInt64 v => exact encodes_writeBEInt64 v
  | varInt32 v => exact encodes_writeVarInt32 v
  | string v => exact encodes_writeVarUTF8String v
  | buf data => exact encodes_write data

theorem Field.needsRoom (field : Field) : NeedsRoom field.write field.bytes := by
  cases field with
  | bool v => exact needsRoom_writeBool v
  | beInt16 v => exact needsRoom_writeScalar _ (bigEndian_length 2 _)
  | beUInt16 v => exact needsRoom_writeScalar _ (bigEndian_length 2 _)
  | beInt32 v => exact needsRoom_writeScalar _ (bigEndian_length 4 _)
  | beUInt32 v => exact needsRoom_writeScalar _ (bigEndian_length 4 _)
  | beInt64 v => exact needsRoom_writeScalar _ (bigEndian_length 8 _)
  | varInt32 v => exact needsRoom_writeVarInt32 v
  | string v => exact needsRoom_writeVarUTF8String v
  | buf data => exact needsRoom_write data

theorem writeFields_of_fit {n : Nat} {out : ByteBuffer} {items rest : List UInt8}
    {fields : List Field} (h : Holds out n items rest)
    (hfit : items.length + (fieldsBytes fields).length ≤ n) :
    ∃ out', writeFields out fields = .ok out'
      ∧ Holds out' n (items ++ fieldsBytes fields) (rest ++ fieldsBytes fields) := by
  induction fields generalizing out items rest with
  | nil =>
      refine ⟨out, rfl, ?_⟩
      simpa using h
  | cons field fields ih =>
      rw [fieldsBytes_cons, List.length_append] at hfit
      obtain ⟨out₁, hwrite, hholds₁⟩ := field.encodes h (by omega)
      have hfit₁ : (items ++ field.bytes).length + (fieldsBytes fields).length ≤ n := by
        rw [List.length_append]
        omega
      obtain ⟨out₂, hrest, hholds₂⟩ := ih hholds₁ hfit₁
      refine ⟨out₂, ?_, ?_⟩
      · rw [writeFields, hwrite]
        exact hrest
      · rw [fieldsBytes_cons, ← List.append_assoc, ← List.append_assoc]
        exact hholds₂

/-- The `VERIFY`s let only packets through that fit. -/
theorem fit_of_writeFields {n : Nat} {out out' : ByteBuffer} {items rest : List UInt8}
    {fields : List Field} (h : Holds out n items rest) (hwrite : writeFields out fields = .ok out') :
    items.length + (fieldsBytes fields).length ≤ n := by
  induction fields generalizing out items rest with
  | nil =>
      have hle := h.length_le
      simpa using hle
  | cons field fields ih =>
      rw [writeFields] at hwrite
      obtain ⟨⟨res, out₁⟩, hfield, hwrite⟩ := exists_of_bind_ok hwrite
      obtain ⟨⟨⟩, hverify, hwrite⟩ := exists_of_bind_ok hwrite
      cases res with
      | false => cases hverify
      | true =>
          have hfit := field.needsRoom h hfield
          obtain ⟨out₂, hfield₂, h₂⟩ := field.encodes h hfit
          rw [hfield, Except.ok.injEq, Prod.mk.injEq] at hfield₂
          obtain ⟨-, rfl⟩ := hfield₂
          have hrest := ih h₂ hwrite
          rw [List.length_append] at hrest
          rw [fieldsBytes_cons, List.length_append]
          omega

/-- A packet that fits an empty out buffer is composed in it. -/
theorem packetize_of_fit {n : Nat} {out : ByteBuffer} {packetType : UInt32} {fields : List Field}
    (h : Holds out n [] []) (hfit : (packetBytes packetType (fieldsBytes fields)).length ≤ n) :
    ∃ out', packetize out packetType fields = .ok out'
      ∧ Holds out' n (packetBytes packetType (fieldsBytes fields))
          (packetBytes packetType (fieldsBytes fields)) := by
  rw [packetBytes, List.length_append] at hfit
  have hfit₁ : ([] : List UInt8).length + (varInt32 packetType).length ≤ n := by
    rw [List.length_nil]
    omega
  obtain ⟨out₁, htype, hholds₁⟩ := encodes_writeVarInt32 packetType h hfit₁
  beta_reduce at htype
  rw [List.nil_append] at hholds₁
  obtain ⟨out₂, hfields, hholds₂⟩ := writeFields_of_fit hholds₁ hfit
  refine ⟨out₂, ?_, hholds₂⟩
  rw [packetize, htype]
  exact hfields

theorem fit_of_packetize {n : Nat} {out out' : ByteBuffer} {packetType : UInt32}
    {fields : List Field} (h : Holds out n [] []) (hn : 5 ≤ n)
    (hwrite : packetize out packetType fields = .ok out') :
    (packetBytes packetType (fieldsBytes fields)).length ≤ n := by
  have hle := varInt32_length_le packetType
  have hfit : ([] : List UInt8).length + (varInt32 packetType).length ≤ n := by
    rw [List.length_nil]
    omega
  obtain ⟨out₁, htype, h₁⟩ := encodes_writeVarInt32 packetType h hfit
  beta_reduce at htype
  rw [packetize, htype, Checked.ok_bind] at hwrite
  rw [packetBytes, List.length_append]
  exact fit_of_writeFields h₁ hwrite

theorem frame_length_pos (packet : List UInt8) : 0 < (frame packet).length := by
  have hpos := varInt32_length_pos (UInt32.ofNat packet.length)
  rw [frame, List.length_append]
  omega

/-- The bytes that the destructor of a `cPacketizer` takes out of the two buffers. -/
theorem readAll_length_of_fit {lenBuffer : ByteBuffer} (h : Holds lenBuffer 20 [] [])
    (packet : List UInt8) :
    ∃ written all emptied,
      lenBuffer.writeVarInt32 (UInt32.ofNat packet.length) = .ok (true, written)
        ∧ written.readAll [] = .ok (varInt32 (UInt32.ofNat packet.length), all)
        ∧ all.commitRead = .ok emptied ∧ Holds emptied 20 [] [] := by
  have hle := varInt32_length_le (UInt32.ofNat packet.length)
  have hfit : ([] : List UInt8).length + (varInt32 (UInt32.ofNat packet.length)).length ≤ 20 := by
    rw [List.length_nil]
    omega
  obtain ⟨written, hwrite, hholds₁⟩ := encodes_writeVarInt32 (UInt32.ofNat packet.length) h hfit
  obtain ⟨all, hread, hholds₂⟩ := hholds₁.readAll []
  obtain ⟨emptied, hcommit, hholds₃⟩ := hholds₂.commitRead
  exact ⟨written, all, emptied, hwrite, hread, hcommit, hholds₃⟩

end Licode
