import Licode.ByteBufferCodecSpec

/-!
# Typed values through the ring

Every typed writer puts the bytes of its value at the end of the ring, and every matching reader takes
them off again, so that a list of values of different types comes back as it went in. A writer that is
refused leaves the ring alone, but for one: `WriteVarUTF8String` asks for the room of the characters and
one byte of their count, and the count may need more.
-/

namespace Licode.ByteBuffer

open ByteImage

/-- A value with the type that it is written at. -/
inductive Value where
  | beInt8 (v : Int8)
  | beUInt8 (v : UInt8)
  | beInt16 (v : Int16)
  | beUInt16 (v : UInt16)
  | beInt32 (v : Int32)
  | beUInt32 (v : UInt32)
  | beInt64 (v : Int64)
  | beUInt64 (v : UInt64)
  | bool (v : Bool)
  | varInt32 (v : UInt32)
  | varInt64 (v : UInt64)
  | varUTF8String (v : AString)
  | leInt32 (v : Int32)
  deriving DecidableEq, Repr

namespace Value

def write (b : ByteBuffer) : Value → Checked (Bool × ByteBuffer)
  | beInt8 v => b.writeBEInt8 v
  | beUInt8 v => b.writeBEUInt8 v
  | beInt16 v => b.writeBEInt16 v
  | beUInt16 v => b.writeBEUInt16 v
  | beInt32 v => b.writeBEInt32 v
  | beUInt32 v => b.writeBEUInt32 v
  | beInt64 v => b.writeBEInt64 v
  | beUInt64 v => b.writeBEUInt64 v
  | bool v => b.writeBool v
  | varInt32 v => b.writeVarInt32 v
  | varInt64 v => b.writeVarInt64 v
  | varUTF8String v => b.writeVarUTF8String v
  | leInt32 v => b.writeLEInt32 v

/-- What the value is on the wire. -/
def bytes : Value → List UInt8
  | beInt8 v => bigEndian 1 v.toUInt8.toNat
  | beUInt8 v => bigEndian 1 v.toNat
  | beInt16 v => bigEndian 2 v.toUInt16.toNat
  | beUInt16 v => bigEndian 2 v.toNat
  | beInt32 v => bigEndian 4 v.toUInt32.toNat
  | beUInt32 v => bigEndian 4 v.toNat
  | beInt64 v => bigEndian 8 v.toUInt64.toNat
  | beUInt64 v => bigEndian 8 v.toNat
  | bool v => [boolByte v]
  | varInt32 v => Base128.encode 5 v.toNat
  | varInt64 v => Base128.encode 10 v.toNat
  | varUTF8String v => stringBytes v
  | leInt32 v => littleEndian 4 v.toUInt32.toNat

end Value

/-- The typed readers; `varInt` is the template at the type `UInt32`. -/
inductive Reader where
  | beInt8
  | beUInt8
  | beInt16
  | beUInt16
  | beInt32
  | beUInt32
  | beInt64
  | beUInt64
  | bool
  | varInt32
  | varInt
  | varInt64
  | varUTF8String
  | leInt
  deriving DecidableEq, Repr

/-- A reader whose result is taken for a value. -/
def readAs {α : Type} (construct : α → Value) (read : ByteBuffer → Checked (Option α × ByteBuffer))
    (b : ByteBuffer) : Checked (Option Value × ByteBuffer) := do
  let (v, b) ← read b
  return (v.map construct, b)

def Reader.read : Reader → ByteBuffer → Checked (Option Value × ByteBuffer)
  | beInt8 => readAs .beInt8 readBEInt8
  | beUInt8 => readAs .beUInt8 readBEUInt8
  | beInt16 => readAs .beInt16 readBEInt16
  | beUInt16 => readAs .beUInt16 readBEUInt16
  | beInt32 => readAs .beInt32 readBEInt32
  | beUInt32 => readAs .beUInt32 readBEUInt32
  | beInt64 => readAs .beInt64 readBEInt64
  | beUInt64 => readAs .beUInt64 readBEUInt64
  | bool => readAs .bool readBool
  | varInt32 => readAs .varInt32 readVarInt32
  | varInt => readAs .varInt32 readVarInt
  | varInt64 => readAs .varInt64 readVarInt64
  | varUTF8String => readAs .varUTF8String readVarUTF8String
  | leInt => readAs .leInt32 readLEInt

/-- The readers that match the writer of a value. -/
def Value.readers : Value → List Reader
  | beInt8 _ => [.beInt8]
  | beUInt8 _ => [.beUInt8]
  | beInt16 _ => [.beInt16]
  | beUInt16 _ => [.beUInt16]
  | beInt32 _ => [.beInt32]
  | beUInt32 _ => [.beUInt32]
  | beInt64 _ => [.beInt64]
  | beUInt64 _ => [.beUInt64]
  | bool _ => [.bool]
  | varInt32 _ => [.varInt32, .varInt]
  | varInt64 _ => [.varInt64]
  | varUTF8String _ => [.varUTF8String]
  | leInt32 _ => [.leInt]

def Matching (readers : List Reader) (values : List Value) : Prop :=
  List.Forall₂ (fun reader (value : Value) => reader ∈ value.readers) readers values

/-- The writers are called one after the other as long as they succeed. -/
def writeValues (b : ByteBuffer) : List Value → Checked (Bool × ByteBuffer)
  | [] => return (true, b)
  | value :: values => do
      let (res, b) ← value.write b
      if res then b.writeValues values else return (false, b)

def readValues (b : ByteBuffer) : List Reader → Checked (Option (List Value) × ByteBuffer)
  | [] => return (some [], b)
  | reader :: readers => do
      let (value, b) ← reader.read b
      match value with
      | none => return (none, b)
      | some value =>
          let (values, b) ← b.readValues readers
          return (values.map (value :: ·), b)

/-! ### Writers that have no room -/

/-- Without room for all of `bytes` the writer does nothing. -/
def Refuses (write : ByteBuffer → Checked (Bool × ByteBuffer)) (bytes : List UInt8) : Prop :=
  ∀ {n : Nat} {b : ByteBuffer} {items rest : List UInt8}, Holds b n items rest →
    n < items.length + bytes.length → write b = .ok (false, b)

theorem refuses_write (bytes : List UInt8) : Refuses (fun b => b.write bytes) bytes :=
  fun h hfull => h.write_of_full hfull

theorem refuses_writeBuf (bytes : List UInt8) : Refuses (fun b => b.writeBuf bytes) bytes :=
  fun h hfull => h.writeBuf_of_full hfull

theorem encodes_writeBuf (bytes : List UInt8) : Encodes (fun b => b.writeBuf bytes) bytes :=
  fun h hfit => h.writeBuf hfit

theorem refuses_writeScalar {width : Nat} {bytes : List UInt8} (image : Nat) (hlength : bytes.length = width) :
    Refuses (fun b => b.writeScalar width image) bytes := by
  intro n b items rest h hfull
  rw [hlength] at hfull
  have hroom : ¬ items.length + width ≤ n := by omega
  simp only [writeScalar, h.checkValid, Checked.ok_bind, h.canWriteBytes, hroom, decide_false]
  rfl

theorem Refuses.needsRoom {write : ByteBuffer → Checked (Bool × ByteBuffer)} {bytes : List UInt8}
    (hrefuses : Refuses write bytes) : NeedsRoom write bytes := by
  intro n b b' items rest h hwrite
  by_contra hfull
  rw [hrefuses h (Nat.lt_of_not_le hfull)] at hwrite
  cases hwrite

/-- A writer that checks the ring and goes on with `WriteBuf`. -/
theorem checked_writeBuf {write : ByteBuffer → Checked (Bool × ByteBuffer)} {bytes : List UInt8}
    (hwrite : ∀ b, b.checkValid = .ok () → write b = b.writeBuf bytes) :
    Encodes write bytes ∧ Refuses write bytes := by
  constructor
  · intro n b items rest h hfit
    rw [hwrite b h.checkValid]
    exact h.writeBuf hfit
  · intro n b items rest h hfull
    rw [hwrite b h.checkValid]
    exact h.writeBuf_of_full hfull

theorem littleEndian_one (v : UInt8) : littleEndian 1 v.toNat = bigEndian 1 v.toNat := rfl

theorem littleEndian_hostToNetwork8 (v : UInt64) :
    littleEndian 8 (hostToNetwork8 v).toNat = bigEndian 8 v.toNat := by
  rw [hostToNetwork8, toNat_ntohll, littleEndian_swap, bigEndian]

theorem toNat_lt_128_pow_ten (v : UInt64) : v.toNat < 128 ^ (9 + 1) := by
  have hlt := v.toNat_lt
  omega

theorem checked_writeVarInt32 (v : UInt32) :
    Encodes (fun b => b.writeVarInt32 v) (varInt32 v) ∧ Refuses (fun b => b.writeVarInt32 v) (varInt32 v) := by
  apply checked_writeBuf
  intro b hvalid
  rw [writeVarInt32, hvalid, Checked.ok_bind, varIntBytes_eq (toNat_lt_128_pow v), Checked.ok_bind]
  rfl

theorem checked_writeVarInt64 (v : UInt64) : Encodes (fun b => b.writeVarInt64 v) (Base128.encode 10 v.toNat)
    ∧ Refuses (fun b => b.writeVarInt64 v) (Base128.encode 10 v.toNat) := by
  apply checked_writeBuf
  intro b hvalid
  rw [writeVarInt64, hvalid, Checked.ok_bind, varIntBytes_eq (toNat_lt_128_pow_ten v), Checked.ok_bind]

theorem checked_writeLEInt32 (v : Int32) : Encodes (fun b => b.writeLEInt32 v) (littleEndian 4 v.toUInt32.toNat)
    ∧ Refuses (fun b => b.writeLEInt32 v) (littleEndian 4 v.toUInt32.toNat) := by
  apply checked_writeBuf
  intro b hvalid
  rw [writeLEInt32, hvalid, Checked.ok_bind]

/-- The fixed-width writers, each with the image it makes of its value. -/
theorem scalar_encodes {width image : Nat} {bytes : List UInt8} (himage : littleEndian width image = bytes) :
    Encodes (fun b => b.writeScalar width image) bytes := by
  rw [← himage]
  exact encodes_writeScalar width image

theorem encodes_value (value : Value) : Encodes (fun b => value.write b) value.bytes := by
  cases value with
  | beInt8 v => exact scalar_encodes (littleEndian_one _)
  | beUInt8 v => exact scalar_encodes (littleEndian_one _)
  | beInt16 v => exact encodes_writeBEInt16 v
  | beUInt16 v => exact encodes_writeBEUInt16 v
  | beInt32 v => exact encodes_writeBEInt32 v
  | beUInt32 v => exact encodes_writeBEUInt32 v
  | beInt64 v => exact encodes_writeBEInt64 v
  | beUInt64 v => exact scalar_encodes (littleEndian_hostToNetwork8 v)
  | bool v => exact encodes_writeBool v
  | varInt32 v => exact encodes_writeVarInt32 v
  | varInt64 v => exact (checked_writeVarInt64 v).1
  | varUTF8String v => exact encodes_writeVarUTF8String v
  | leInt32 v => exact (checked_writeLEInt32 v).1

/-- All writers but that of a string write everything or nothing. -/
theorem refuses_value {value : Value} (hvalue : ∀ s, value ≠ .varUTF8String s) :
    Refuses (fun b => value.write b) value.bytes := by
  cases value with
  | beInt8 | beUInt8 | beInt16 | beUInt16 | beInt32 | beUInt32 | beInt64 | beUInt64 =>
      exact refuses_writeScalar _ (bigEndian_length _ _)
  | bool v =>
      intro n b items rest h hfull
      beta_reduce
      rw [Value.write, writeBool, h.checkValid, Checked.ok_bind]
      exact h.write_of_full hfull
  | varInt32 v => exact (checked_writeVarInt32 v).2
  | varInt64 v => exact (checked_writeVarInt64 v).2
  | varUTF8String s => exact absurd rfl (hvalue s)
  | leInt32 v => exact (checked_writeLEInt32 v).2

theorem needsRoom_value (value : Value) : NeedsRoom (fun b => value.write b) value.bytes := by
  by_cases hstring : ∃ s, value = .varUTF8String s
  · obtain ⟨s, rfl⟩ := hstring
    exact needsRoom_writeVarUTF8String s
  · apply Refuses.needsRoom
    apply refuses_value
    intro s hvalue
    exact hstring ⟨s, hvalue⟩

/-! ### Reading back -/

theorem decodes_readAs {α : Type} {construct : α → Value} {read : ByteBuffer → Checked (Option α × ByteBuffer)}
    {bytes : List UInt8} {v : α} (hread : Decodes read bytes v) :
    Decodes (readAs construct read) bytes (construct v) := by
  intro n b items rest h
  obtain ⟨b', hcall, hholds⟩ := hread h
  refine ⟨b', ?_, hholds⟩
  rw [readAs, hcall]
  rfl

/-- A reader of fixed width finds the number whose image stands ahead of it. -/
theorem decodes_scalar {α : Type} {width : Nat} {bytes : List UInt8} (convert : Nat → α) {v : α}
    (hlength : bytes.length = width) (hconvert : convert (value bytes) = v) :
    Decodes (fun b => b.readScalar width convert) bytes v := by
  rw [← hlength, ← hconvert]
  exact decodes_readScalar convert bytes

theorem value_bigEndian_one (v : UInt8) : UInt8.ofNat (value (bigEndian 1 v.toNat)) = v := by
  have hlt : v.toNat < 256 ^ 1 := v.toNat_lt
  rw [← littleEndian_one, value_littleEndian hlt, UInt8.ofNat_toNat]

theorem decodes_readVarInt64 (v : UInt64) : Decodes readVarInt64 (Base128.encode 10 v.toNat) v := by
  intro n b items rest h
  have hlt := v.toNat_lt
  have hdecode : decodeVarInt 64 (Base128.encode 10 v.toNat ++ rest) 0 0 = .ok (some (0 ||| v.toNat <<< 0), rest) :=
    decodeVarInt_encode (toNat_lt_128_pow_ten v) rest 0 0 (by decide) (by omega)
  obtain ⟨b', hread, hholds⟩ := readVarInt64_of_decodeVarInt h hdecode
  refine ⟨b', ?_, hholds⟩
  rw [hread, Option.map_some, Nat.zero_or, Nat.shiftLeft_zero, UInt64.ofNat_toNat]

theorem decodes_value {value : Value} {reader : Reader} (hreader : reader ∈ value.readers)
    (hlength : ∀ s, value = .varUTF8String s → s.length < 2 ^ 32) : Decodes reader.read value.bytes value := by
  cases value with
  | beInt8 v =>
      obtain rfl := List.mem_singleton.mp hreader
      apply decodes_readAs
      apply decodes_scalar (fun x => (UInt8.ofNat x).toInt8) rfl
      rw [Value.bytes, value_bigEndian_one, Int8.toInt8_toUInt8]
  | beUInt8 v =>
      obtain rfl := List.mem_singleton.mp hreader
      apply decodes_readAs
      exact decodes_scalar UInt8.ofNat rfl (value_bigEndian_one v)
  | beInt16 v =>
      obtain rfl := List.mem_singleton.mp hreader
      exact decodes_readAs (decodes_readBEInt16 v)
  | beUInt16 v =>
      obtain rfl := List.mem_singleton.mp hreader
      apply decodes_readAs
      exact decodes_scalar (fun x => ntohs (UInt16.ofNat x)) rfl (ntohs_value_bigEndian v)
  | beInt32 v =>
      obtain rfl := List.mem_singleton.mp hreader
      exact decodes_readAs (decodes_readBEInt32 v)
  | beUInt32 v =>
      obtain rfl := List.mem_singleton.mp hreader
      apply decodes_readAs
      exact decodes_scalar (fun x => ntohl (UInt32.ofNat x)) rfl (ntohl_value_bigEndian v)
  | beInt64 v =>
      obtain rfl := List.mem_singleton.mp hreader
      exact decodes_readAs (decodes_readBEInt64 v)
  | beUInt64 v =>
      obtain rfl := List.mem_singleton.mp hreader
      apply decodes_readAs
      exact decodes_scalar (fun x => ntohll (UInt64.ofNat x)) rfl (ntohll_value_bigEndian v)
  | bool v =>
      obtain rfl := List.mem_singleton.mp hreader
      exact decodes_readAs (decodes_readBool v)
  | varInt32 v =>
      obtain rfl | hreader := List.mem_cons.mp hreader
      · exact decodes_readAs (decodes_readVarInt32 v)
      · obtain rfl := List.mem_singleton.mp hreader
        exact decodes_readAs (decodes_readVarInt v)
  | varInt64 v =>
      obtain rfl := List.mem_singleton.mp hreader
      exact decodes_readAs (decodes_readVarInt64 v)
  | varUTF8String v =>
      obtain rfl := List.mem_singleton.mp hreader
      exact decodes_readAs (decodes_readVarUTF8String (hlength v rfl))
  | leInt32 v =>
      obtain rfl := List.mem_singleton.mp hreader
      apply decodes_readAs
      apply decodes_scalar (fun x => (UInt32.ofNat x).toInt32) (littleEndian_length 4 _)
      rw [value_littleEndian v.toUInt32.toNat_lt, UInt32.ofNat_toNat, Int32.toInt32_toUInt32]

/-- A list of values that was written stands at the end of the ring, and each of them had its room. -/
theorem holds_writeValues {n : Nat} {b b' : ByteBuffer} {items rest : List UInt8} {values : List Value}
    (h : Holds b n items rest) (hwrite : b.writeValues values = .ok (true, b')) :
    Holds b' n (items ++ values.flatMap Value.bytes) (rest ++ values.flatMap Value.bytes) := by
  induction values generalizing b items rest with
  | nil =>
      cases hwrite
      simpa using h
  | cons value values ih =>
      rw [writeValues] at hwrite
      obtain ⟨⟨res, b₁⟩, hvalue, hrest⟩ := exists_of_bind_ok hwrite
      cases res with
      | false => cases hrest
      | true =>
          obtain ⟨b₂, hvalue₂, h₂⟩ := encodes_value value h (needsRoom_value value h hvalue)
          beta_reduce at hvalue₂
          rw [hvalue, Except.ok.injEq, Prod.mk.injEq] at hvalue₂
          obtain ⟨-, rfl⟩ := hvalue₂
          rw [List.flatMap_cons, ← List.append_assoc, ← List.append_assoc]
          exact ih h₂ hrest

/-- The readers take the values off the front one after the other. -/
theorem readValues_of_holds {n : Nat} {values : List Value} {readers : List Reader}
    (hreaders : Matching readers values)
    (hlength : ∀ s, Value.varUTF8String s ∈ values → s.length < 2 ^ 32) {b : ByteBuffer} {items rest : List UInt8}
    (h : Holds b n items (values.flatMap Value.bytes ++ rest)) :
    ∃ b', b.readValues readers = .ok (some values, b') ∧ Holds b' n items rest := by
  induction hreaders generalizing b with
  | nil => exact ⟨b, rfl, h⟩
  | @cons reader value readers values hreader _ ih =>
      rw [List.flatMap_cons, List.append_assoc] at h
      obtain ⟨b₁, hvalue, h₁⟩ := decodes_value hreader
        (fun s hs => hlength s (hs ▸ List.mem_cons_self)) h
      obtain ⟨b₂, hvalues, h₂⟩ := ih (fun s hs => hlength s (List.mem_cons_of_mem _ hs)) h₁
      refine ⟨b₂, ?_, h₂⟩
      rw [readValues, hvalue, Checked.ok_bind]
      dsimp only
      rw [hvalues]
      rfl

theorem length_le_of_mem {s : AString} {values : List Value} (hmem : .varUTF8String s ∈ values) :
    s.length ≤ (values.flatMap Value.bytes).length := by
  obtain ⟨before, after, rfl⟩ := List.append_of_mem hmem
  calc s.length ≤ (Value.varUTF8String s).bytes.length := by
        rw [Value.bytes, stringBytes, List.length_append]
        exact Nat.le_add_left _ _
    _ ≤ ((before ++ .varUTF8String s :: after).flatMap Value.bytes).length := by
        rw [List.flatMap_append, List.flatMap_cons, List.length_append, List.length_append]
        omega

theorem Holds.bufferSize {n : Nat} {b : ByteBuffer} {items rest : List UInt8} (h : Holds b n items rest) :
    b.bufferSize = n + 1 := by
  obtain ⟨q, hrep, -, -⟩ := h
  exact hrep.bufferSize_eq

/-- **Typed values come back as they were written,** wherever the cursors of the ring are, when nothing is
unread before. The size of the ring is a `size_t`, which has 32 bits on the platform that the program is
built for, and so no string that fits is longer than its count can say. -/
theorem readValues_writeValues {n : Nat} {b b' : ByteBuffer} {items : List UInt8} {values : List Value}
    {readers : List Reader} (h : Holds b n items []) (hsize : b.bufferSize < 2 ^ 32)
    (hreaders : Matching readers values)
    (hwrite : b.writeValues values = .ok (true, b')) :
    (∃ b'', b'.readValues readers = .ok (some values, b'') ∧ b''.getReadableSpace = .ok 0)
      ∧ b'.getUsedSpace = .ok (items.length + (values.flatMap Value.bytes).length)
      ∧ (∀ v, (Value.varInt32 v).bytes.length ≤ 5) ∧ ∀ v, (Value.varInt64 v).bytes.length ≤ 10 := by
  have hwritten := holds_writeValues h hwrite
  have hfit : (values.flatMap Value.bytes).length ≤ n := by
    have hlength := hwritten.length_le
    rw [List.length_append] at hlength
    omega
  have hlength (s : AString) (hmem : Value.varUTF8String s ∈ values) : s.length < 2 ^ 32 := by
    calc s.length ≤ (values.flatMap Value.bytes).length := length_le_of_mem hmem
      _ ≤ n := hfit
      _ < b.bufferSize := by rw [h.bufferSize]; exact Nat.lt_succ_self n
      _ < 2 ^ 32 := hsize
  refine ⟨?_, ?_, fun v => Base128.encode_length_le 5 v.toNat, fun v => Base128.encode_length_le 10 v.toNat⟩
  · rw [List.nil_append, ← List.append_nil (values.flatMap Value.bytes)] at hwritten
    obtain ⟨b'', hread, hempty⟩ := readValues_of_holds hreaders hlength hwritten
    exact ⟨b'', hread, hempty.getReadableSpace⟩
  · rw [← List.length_append]
    exact hwritten.getUsedSpace

theorem readValues_writeValues_fresh : ∃ b' b'',
    (create 64).writeValues [.beInt16 (-2), .varInt32 300, .varUTF8String [0, 255], .bool true] = .ok (true, b')
      ∧ b'.readValues [.beInt16, .varInt, .varUTF8String, .bool]
        = .ok (some [.beInt16 (-2), .varInt32 300, .varUTF8String [0, 255], .bool true], b'') := by
  have hwrite : ∃ b', (create 64).writeValues
      [.beInt16 (-2), .varInt32 300, .varUTF8String [0, 255], .bool true] = .ok (true, b') := ⟨_, rfl⟩
  have hreaders : Matching [.beInt16, .varInt, .varUTF8String, .bool]
      [.beInt16 (-2), .varInt32 300, .varUTF8String [0, 255], .bool true] := by
    simp [Matching, Value.readers]
  obtain ⟨b', hwrite⟩ := hwrite
  obtain ⟨⟨b'', hread, -⟩, -⟩ := readValues_writeValues (holds_create 64 _) (by decide) hreaders hwrite
  exact ⟨b', b'', hwrite, hread⟩

/-! ### Writers that are refused -/

/-- The operations that write. -/
inductive WriteOp where
  | value (v : Value)
  | writeBuf (bytes : List UInt8)
  | write (bytes : List UInt8)
  deriving DecidableEq, Repr

def WriteOp.exec (b : ByteBuffer) : WriteOp → Checked (Bool × ByteBuffer)
  | value v => v.write b
  | writeBuf bytes => b.writeBuf bytes
  | write bytes => b.write bytes

/-- The contents of the ring and its spaces are what they were. -/
structure Unchanged (b b' : ByteBuffer) : Prop where
  buffer : b'.buffer = b.buffer
  used : b'.getUsedSpace = b.getUsedSpace
  free : b'.getFreeSpace = b.getFreeSpace
  readable : b'.getReadableSpace = b.getReadableSpace

theorem Unchanged.refl (b : ByteBuffer) : Unchanged b b := ⟨rfl, rfl, rfl, rfl⟩

/-- The operation returns, and where it returns false it has done nothing. -/
def Untouched (b : ByteBuffer) (op : WriteOp) : Prop :=
  ∃ res b', op.exec b = .ok (res, b') ∧ (res = false → Unchanged b b')

/-- A string for which there is room with one byte for its count, and not with all bytes of the count. -/
def WriteOp.CountAlone (free : Nat) : WriteOp → Prop
  | value (.varUTF8String s) => s.length + 1 ≤ free ∧ free < (stringBytes s).length
  | _ => False

section Refused

variable {n : Nat} {b : ByteBuffer} {items rest : List UInt8}

theorem untouched_of_writes {op : WriteOp} {bytes : List UInt8} (hencodes : Encodes op.exec bytes)
    (hrefuses : Refuses op.exec bytes) (h : Holds b n items rest) : Untouched b op := by
  by_cases hfit : items.length + bytes.length ≤ n
  · obtain ⟨b', hwrite, -⟩ := hencodes h hfit
    exact ⟨true, b', hwrite, fun hfalse => absurd hfalse (by decide)⟩
  · exact ⟨false, b, hrefuses h (Nat.lt_of_not_le hfit), fun _ => .refl b⟩

theorem writeVarUTF8String_of_full (h : Holds b n items rest) {s : AString} (hfull : n < items.length + (s.length + 1)) :
    b.writeVarUTF8String s = .ok (false, b) := by
  have hroom : ¬ items.length + (s.length + 1) ≤ n := Nat.not_le.mpr hfull
  rw [writeVarUTF8String, h.checkValid, Checked.ok_bind, h.canWriteBytes, Checked.ok_bind, decide_eq_false hroom]
  rfl

/-- The count is written and the characters are refused. -/
theorem writeVarUTF8String_countAlone (h : Holds b n items rest) {s : AString}
    (hroom : items.length + (s.length + 1) ≤ n) (hshort : n < items.length + (stringBytes s).length)
    (hcount : items.length + (varInt32 (.ofNat s.length)).length ≤ n) : ∃ b', b.writeVarUTF8String s = .ok (false, b')
      ∧ Holds b' n (items ++ varInt32 (.ofNat s.length)) (rest ++ varInt32 (.ofNat s.length)) := by
  obtain ⟨b', hwrite, h'⟩ := encodes_writeVarInt32 (.ofNat s.length) h hcount
  have hfull : n < (items ++ varInt32 (.ofNat s.length)).length + s.length := by
    rw [stringBytes, List.length_append] at hshort
    rw [List.length_append]
    omega
  refine ⟨b', ?_, h'⟩
  rw [writeVarUTF8String, h.checkValid, Checked.ok_bind, h.canWriteBytes, Checked.ok_bind, decide_eq_true hroom]
  simp only [hwrite, Checked.ok_bind, not_true_eq_false, if_false]
  exact h'.writeBuf_of_full hfull

theorem Holds.getFreeSpace (h : Holds b n items rest) : b.getFreeSpace = .ok (n - items.length) := by
  obtain ⟨q, hrep, rfl, -⟩ := h
  rw [hrep.getFreeSpace]
  rfl

/-- Where there is room for the characters and a byte, there is room for the count. -/
theorem varInt32_length_le_of_room {s : AString} {free : Nat} (hroom : s.length + 1 ≤ free) :
    (varInt32 (.ofNat s.length)).length ≤ free := by
  have hle := varInt32_length_le (.ofNat s.length)
  by_cases hsmall : s.length < 128
  · have hone : (varInt32 (.ofNat s.length)).length = 1 := by
      have hcount : (UInt32.ofNat s.length).toNat < 128 := by
        rw [UInt32.toNat_ofNat', Nat.mod_eq_of_lt (by omega)]
        exact hsmall
      rw [varInt32, Base128.encode_of_lt hcount]
      rfl
    omega
  · omega

theorem not_untouched_of_countAlone (h : Holds b n items rest) {s : AString} (hroom : s.length + 1 ≤ n - items.length)
    (hshort : n - items.length < (stringBytes s).length) : ¬ Untouched b (.value (.varUTF8String s)) := by
  have hlength := h.length_le
  have hcount := varInt32_length_le_of_room hroom
  have hfits : items.length + (s.length + 1) ≤ n := by omega
  obtain ⟨b', hwrite, h'⟩ := writeVarUTF8String_countAlone h hfits (by omega) (by omega)
  rintro ⟨res, b₁, hexec, hunchanged⟩
  have hsame : (false, b') = (res, b₁) := Except.ok.inj (hwrite.symm.trans hexec)
  cases hsame
  have hused := (hunchanged rfl).used
  rw [h.getUsedSpace, h'.getUsedSpace, Except.ok.injEq, List.length_append] at hused
  have hpos := varInt32_length_pos (.ofNat s.length)
  omega

/-- **A write that returns false has changed nothing,** but for the count of a string whose characters are
then refused. -/
theorem untouched_iff (h : Holds b n items rest) :
    ∃ free, b.getFreeSpace = .ok free ∧ ∀ op, Untouched b op ↔ ¬ op.CountAlone free := by
  refine ⟨n - items.length, h.getFreeSpace, ?_⟩
  intro op
  cases op with
  | writeBuf bytes => exact iff_of_true (untouched_of_writes (encodes_writeBuf bytes) (refuses_writeBuf bytes) h) id
  | write bytes => exact iff_of_true (untouched_of_writes (encodes_write bytes) (refuses_write bytes) h) id
  | value v =>
      by_cases hstring : ∃ s, v = .varUTF8String s
      · obtain ⟨s, rfl⟩ := hstring
        constructor
        · rintro huntouched ⟨hroom, hshort⟩
          exact not_untouched_of_countAlone h hroom hshort huntouched
        · intro halone
          have hlength := h.length_le
          by_cases hroom : s.length + 1 ≤ n - items.length
          · have hfit : (stringBytes s).length ≤ n - items.length := by
              by_contra hshort
              exact halone ⟨hroom, Nat.lt_of_not_le hshort⟩
            obtain ⟨b', hwrite, -⟩ := encodes_writeVarUTF8String s h (by omega)
            exact ⟨true, b', hwrite, fun hfalse => absurd hfalse (by decide)⟩
          · exact ⟨false, b, writeVarUTF8String_of_full h (by omega), fun _ => .refl b⟩
      · have hother (s : AString) : v ≠ .varUTF8String s := fun hv => hstring ⟨s, hv⟩
        apply iff_of_true (untouched_of_writes (encodes_value v) (refuses_value hother) h)
        cases v with
        | varUTF8String s => exact absurd rfl (hother s)
        | _ => exact id

end Refused

theorem untouched_iff_fresh : ∃ free, (create 130).getFreeSpace = .ok free
    ∧ ∀ op, Untouched (create 130) op ↔ ¬ op.CountAlone free :=
  untouched_iff (holds_create 130 _)

/-- A string of 129 bytes and a ring with room for 130. -/
theorem count_written_alone : ¬ Untouched (create 130) (.value (.varUTF8String (List.replicate 129 0))) := by
  have hlength : (stringBytes (List.replicate 129 0)).length = 131 := by decide +kernel
  apply not_untouched_of_countAlone (holds_create 130 _)
  · rw [List.length_replicate, List.length_nil]
  · rw [hlength]
    decide

end Licode.ByteBuffer
