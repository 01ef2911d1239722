import Licode.ByteBufferCodec
import Licode.ByteBufferRefinement

/-!
# What the typed readers and writers put on the wire

`Holds b n items rest` is the queue view with the cursor given by what lies ahead of it. A reader
that decodes a format takes its bytes off the front of `rest`, and a writer that encodes one puts
them at the back of both lists; `Decodes` and `Encodes` say so once, and every typed function is an
instance. Composite packets follow by chaining.
-/

namespace Licode

open ByteImage

namespace ByteBuffer

/-- The ring has capacity `n` and holds `items`, of which `rest` is still to be read. -/
def Holds (b : ByteBuffer) (n : Nat) (items rest : List UInt8) : Prop :=
  ∃ q : CursorQueue UInt8 n, Represents b q ∧ q.items = items ∧ q.unread = rest

section Holds

variable {n : Nat} {b : ByteBuffer} {items rest : List UInt8}

theorem holds_create (n : Nat) (garbage : Nat → UInt8) : Holds (create n garbage) n [] [] :=
  ⟨CursorQueue.empty, represents_create n garbage, rfl, rfl⟩

theorem Holds.length_le (h : Holds b n items rest) : items.length ≤ n := by
  obtain ⟨q, -, rfl, -⟩ := h
  exact q.length_le

theorem Holds.rest_length_le (h : Holds b n items rest) : rest.length ≤ items.length := by
  obtain ⟨q, -, rfl, rfl⟩ := h
  rw [q.unread_length]
  omega

theorem Holds.checkValid (h : Holds b n items rest) : b.checkValid = .ok () := by
  obtain ⟨q, hrep, -, -⟩ := h
  exact hrep.checkValid

theorem Holds.getUsedSpace (h : Holds b n items rest) : b.getUsedSpace = .ok items.length := by
  obtain ⟨q, hrep, rfl, -⟩ := h
  exact hrep.getUsedSpace

theorem Holds.getReadableSpace (h : Holds b n items rest) :
    b.getReadableSpace = .ok rest.length := by
  obtain ⟨q, hrep, -, rfl⟩ := h
  exact hrep.getReadableSpace

theorem Holds.canReadBytes (h : Holds b n items rest) (count : Nat) :
    b.canReadBytes count = .ok (decide (count ≤ rest.length)) := by
  obtain ⟨q, hrep, -, rfl⟩ := h
  exact hrep.canReadBytes count

theorem Holds.canWriteBytes (h : Holds b n items rest) (count : Nat) :
    b.canWriteBytes count = .ok (decide (items.length + count ≤ n)) := by
  obtain ⟨q, hrep, rfl, -⟩ := h
  have hlength := q.length_le
  rw [hrep.canWriteBytes, CursorQueue.free]
  congr 2
  simp only [eq_iff_iff]
  omega

theorem Holds.write (h : Holds b n items rest) {bytes : List UInt8}
    (hfit : items.length + bytes.length ≤ n) :
    ∃ b', b.write bytes = .ok (true, b') ∧ Holds b' n (items ++ bytes) (rest ++ bytes) := by
  obtain ⟨q, hrep, rfl, rfl⟩ := h
  have hfree : bytes.length ≤ q.free := by
    unfold CursorQueue.free
    omega
  obtain ⟨b', hwrite, hrep'⟩ := hrep.write hfree
  exact ⟨b', hwrite, _, hrep', rfl, q.unread_append bytes hfree⟩

theorem Holds.write_of_full (h : Holds b n items rest) {bytes : List UInt8}
    (hfull : n < items.length + bytes.length) : b.write bytes = .ok (false, b) := by
  obtain ⟨q, hrep, rfl, rfl⟩ := h
  have hlength := q.length_le
  apply hrep.write_of_full
  unfold CursorQueue.free
  omega

theorem Holds.writeBuf (h : Holds b n items rest) {bytes : List UInt8}
    (hfit : items.length + bytes.length ≤ n) :
    ∃ b', b.writeBuf bytes = .ok (true, b') ∧ Holds b' n (items ++ bytes) (rest ++ bytes) := by
  obtain ⟨q, hrep, rfl, rfl⟩ := h
  have hfree : bytes.length ≤ q.free := by
    unfold CursorQueue.free
    omega
  obtain ⟨b', hwrite, hrep'⟩ := hrep.writeBuf hfree
  exact ⟨b', hwrite, _, hrep', rfl, q.unread_append bytes hfree⟩

theorem Holds.writeBuf_of_full (h : Holds b n items rest) {bytes : List UInt8}
    (hfull : n < items.length + bytes.length) : b.writeBuf bytes = .ok (false, b) := by
  obtain ⟨q, hrep, rfl, rfl⟩ := h
  have hlength := q.length_le
  apply hrep.writeBuf_of_full
  unfold CursorQueue.free
  omega

theorem Holds.readBuf (h : Holds b n items rest) {count : Nat} (hcount : count ≤ rest.length) :
    ∃ b', b.readBuf count = .ok (some (rest.take count), b')
      ∧ Holds b' n items (rest.drop count) := by
  obtain ⟨q, hrep, rfl, rfl⟩ := h
  obtain ⟨b', hread, hrep'⟩ := hrep.readBuf hcount
  exact ⟨b', hread, _, hrep', rfl, q.unread_advance count hcount⟩

theorem Holds.readBuf_of_short (h : Holds b n items rest) {count : Nat}
    (hshort : rest.length < count) : b.readBuf count = .ok (none, b) := by
  obtain ⟨q, hrep, rfl, rfl⟩ := h
  exact hrep.readBuf_of_short (by omega)

theorem Holds.readAll (h : Holds b n items rest) (data : List UInt8) :
    ∃ b', b.readAll data = .ok (rest, b') ∧ Holds b' n items [] := by
  obtain ⟨q, hrep, rfl, rfl⟩ := h
  obtain ⟨b', hread, hrep'⟩ := hrep.readAll data
  refine ⟨b', hread, _, hrep', rfl, ?_⟩
  rw [q.unread_advance, List.drop_length]

theorem Holds.commitRead (h : Holds b n items rest) :
    ∃ b', b.commitRead = .ok b' ∧ Holds b' n rest rest := by
  obtain ⟨q, hrep, rfl, rfl⟩ := h
  obtain ⟨b', hcommit, hrep'⟩ := hrep.commitRead
  exact ⟨b', hcommit, _, hrep', rfl, q.unread_commit⟩

theorem Holds.resetRead (h : Holds b n items rest) :
    ∃ b', b.resetRead = .ok b' ∧ Holds b' n items items := by
  obtain ⟨q, hrep, rfl, rfl⟩ := h
  obtain ⟨b', hreset, hrep'⟩ := hrep.resetRead
  exact ⟨b', hreset, _, hrep', rfl, q.unread_reset⟩

theorem Holds.clearAll (h : Holds b n items rest) : Holds b.clearAll n [] [] := by
  obtain ⟨q, hrep, -, -⟩ := h
  exact ⟨_, hrep.clearAll, rfl, rfl⟩

theorem Holds.readToByteBuffer (h : Holds b n items rest) {m : Nat} {dst : ByteBuffer}
    {dstItems dstRest : List UInt8} (hdst : Holds dst m dstItems dstRest) {numBytes : Nat}
    (hread : numBytes ≤ rest.length) (hwrite : dstItems.length + numBytes ≤ m) :
    ∃ b' dst', b.readToByteBuffer dst numBytes = .ok (true, b', dst')
      ∧ Holds b' n items (rest.drop numBytes)
      ∧ Holds dst' m (dstItems ++ rest.take numBytes) (dstRest ++ rest.take numBytes) := by
  obtain ⟨q, hrep, rfl, rfl⟩ := h
  obtain ⟨d, hrepDst, rfl, rfl⟩ := hdst
  have hfree : (q.unread.take numBytes).length ≤ d.free := by
    rw [List.length_take_of_le hread, CursorQueue.free]
    omega
  obtain ⟨b', dst', hcopy, hrep', hrepDst'⟩ := hrep.readToByteBuffer hrepDst hread hfree
  exact ⟨b', dst', hcopy, ⟨_, hrep', rfl, q.unread_advance _ hread⟩,
    ⟨_, hrepDst', rfl, d.unread_append _ hfree⟩⟩

end Holds

/-! ### Readers -/

/-- The reader takes exactly `bytes` off a ring and returns `v`. -/
def Decodes {α : Type} (read : ByteBuffer → Checked (Option α × ByteBuffer)) (bytes : List UInt8)
    (v : α) : Prop :=
  ∀ {n : Nat} {b : ByteBuffer} {items rest : List UInt8}, Holds b n items (bytes ++ rest) →
    ∃ b', read b = .ok (some v, b') ∧ Holds b' n items rest

theorem decodes_readScalar {α : Type} (convert : Nat → α) (bytes : List UInt8) :
    Decodes (fun b => b.readScalar bytes.length convert) bytes (convert (value bytes)) := by
  intro n b items rest h
  have hlen : bytes.length ≤ (bytes ++ rest).length := by simp
  obtain ⟨b', hread, hholds⟩ := h.readBuf hlen
  rw [List.take_left] at hread
  rw [List.drop_left] at hholds
  refine ⟨b', ?_, hholds⟩
  simp only [readScalar, h.checkValid, Checked.ok_bind, h.canReadBytes, hread]
  simp

theorem readScalar_of_short {α : Type} {n : Nat} {b : ByteBuffer} {items rest : List UInt8}
    (h : Holds b n items rest) {width : Nat} (hshort : rest.length < width) (convert : Nat → α) :
    b.readScalar width convert = .ok (none, b) := by
  rw [readScalar, h.checkValid, Checked.ok_bind, h.canReadBytes, Checked.ok_bind,
    if_pos (by simpa using hshort)]
  rfl

/-- The bytes of a number in network order. -/
def bigEndian (width v : Nat) : List UInt8 := (littleEndian width v).reverse

@[simp]
theorem bigEndian_length (width v : Nat) : (bigEndian width v).length = width := by
  simp [bigEndian]

theorem swap_value_bigEndian {width v : Nat} (h : v < 256 ^ width) :
    swap width (value (bigEndian width v)) = v := by
  have hswap := swap_value_reverse (littleEndian width v)
  rw [littleEndian_length, value_littleEndian h] at hswap
  exact hswap

theorem ntohs_value_bigEndian (v : UInt16) :
    ntohs (UInt16.ofNat (value (bigEndian 2 v.toNat))) = v := by
  have hlt : value (bigEndian 2 v.toNat) < 2 ^ 16 := by
    simpa using value_lt (bigEndian 2 v.toNat)
  rw [ntohs, UInt16.toNat_ofNat', Nat.mod_eq_of_lt hlt, swap_value_bigEndian v.toNat_lt,
    UInt16.ofNat_toNat]

theorem ntohl_value_bigEndian (v : UInt32) :
    ntohl (UInt32.ofNat (value (bigEndian 4 v.toNat))) = v := by
  have hlt : value (bigEndian 4 v.toNat) < 2 ^ 32 := by
    simpa using value_lt (bigEndian 4 v.toNat)
  rw [ntohl, UInt32.toNat_ofNat', Nat.mod_eq_of_lt hlt, swap_value_bigEndian v.toNat_lt,
    UInt32.ofNat_toNat]

/-- The two halves are swapped by themselves and exchanged. -/
theorem toNat_ntohll (v : UInt64) : (ntohll v).toNat = swap 8 v.toNat := by
  have hv := v.toNat_lt
  have hlow : swap 4 (v.toNat % 2 ^ 32) = swap 4 v.toNat := by
    have hmod : littleEndian 4 (v.toNat % 2 ^ 32) = littleEndian 4 v.toNat :=
      littleEndian_mod 4 v.toNat
    rw [swap, swap, hmod]
  have hlow_lt : swap 4 v.toNat < 2 ^ 32 := swap_lt 4 _
  have hhigh_lt : swap 4 (v.toNat / 2 ^ 32) < 2 ^ 32 := swap_lt 4 _
  have hhigh : v.toNat / 2 ^ 32 % 2 ^ 32 = v.toNat / 2 ^ 32 := Nat.mod_eq_of_lt (by omega)
  have hhalves : swap 8 v.toNat = swap 4 (v.toNat / 2 ^ 32) + 2 ^ 32 * swap 4 v.toNat :=
    swap_add 4 v.toNat
  simp only [ntohll, ntohl, UInt64.toNat_add, UInt64.toNat_shiftLeft, UInt64.toNat_shiftRight,
    UInt32.toNat_toUInt64, UInt64.toNat_toUInt32, UInt32.toNat_ofNat', Nat.shiftLeft_eq,
    Nat.shiftRight_eq_div_pow, UInt64.reduceToNat, Nat.reduceMod]
  rw [hlow, hhigh, Nat.mod_eq_of_lt hlow_lt, Nat.mod_eq_of_lt hhigh_lt, hhalves]
  omega

theorem ntohll_value_bigEndian (v : UInt64) :
    ntohll (UInt64.ofNat (value (bigEndian 8 v.toNat))) = v := by
  have hlt : value (bigEndian 8 v.toNat) < 2 ^ 64 := by
    simpa using value_lt (bigEndian 8 v.toNat)
  rw [← UInt64.toNat_inj, toNat_ntohll, UInt64.toNat_ofNat', Nat.mod_eq_of_lt hlt,
    swap_value_bigEndian v.toNat_lt]

theorem decodes_readBEInt16 (v : Int16) :
    Decodes readBEInt16 (bigEndian 2 v.toUInt16.toNat) v := by
  intro n b items rest h
  have hread := decodes_readScalar (fun x => (ntohs (UInt16.ofNat x)).toInt16)
    (bigEndian 2 v.toUInt16.toNat) h
  simp only [bigEndian_length, ntohs_value_bigEndian, Int16.toInt16_toUInt16] at hread
  exact hread

theorem decodes_readBEInt32 (v : Int32) :
    Decodes readBEInt32 (bigEndian 4 v.toUInt32.toNat) v := by
  intro n b items rest h
  have hread := decodes_readScalar (fun x => (ntohl (UInt32.ofNat x)).toInt32)
    (bigEndian 4 v.toUInt32.toNat) h
  simp only [bigEndian_length, ntohl_value_bigEndian, Int32.toInt32_toUInt32] at hread
  exact hread

theorem decodes_readBEInt64 (v : Int64) :
    Decodes readBEInt64 (bigEndian 8 v.toUInt64.toNat) v := by
  intro n b items rest h
  have hread := decodes_readScalar (fun x => (ntohll (UInt64.ofNat x)).toInt64)
    (bigEndian 8 v.toUInt64.toNat) h
  simp only [bigEndian_length, ntohll_value_bigEndian, Int64.toInt64_toUInt64] at hread
  exact hread

/-- The byte of a boolean. -/
def boolByte (v : Bool) : UInt8 := if v then 1 else 0

theorem decodes_readBool (v : Bool) : Decodes readBool [boolByte v] v := by
  intro n b items rest h
  have hread := decodes_readScalar (fun x => UInt8.ofNat x != 0) [boolByte v] h
  cases v <;> exact hread

/-! ### The base-128 loop

`decodeVarInt` is the loop on the bytes ahead of the cursor, with the same accumulator; the ring
follows it step by step, whatever the bytes are. -/

def decodeVarInt (width : Nat) : List UInt8 → Nat → Nat → Checked (Option Nat × List UInt8)
  | [], _, _ => .ok (none, [])
  | byte :: rest, acc, shift => do
      let acc := acc ||| (← shiftLeft width (byte.toNat % 128) shift)
      if byte.toNat ≥ 128 then decodeVarInt width rest acc (shift + 7) else return (some acc, rest)

theorem toNat_and_127 (byte : UInt8) : (byte &&& 0x7f).toNat = byte.toNat % 128 := by
  rw [UInt8.toNat_and]
  exact Nat.and_two_pow_sub_one_eq_mod byte.toNat 7

theorem and_128_ne_zero_iff (byte : UInt8) : byte &&& 0x80 ≠ 0 ↔ byte.toNat ≥ 128 := by
  have hbits : ∀ i : Fin 256, (i.val &&& 128 = 0) ↔ i.val < 128 := by decide +kernel
  have hbyte : byte.toNat &&& 128 = 0 ↔ byte.toNat < 128 := hbits ⟨byte.toNat, byte.toNat_lt⟩
  rw [ne_eq, ← UInt8.toNat_inj, UInt8.toNat_and]
  change ¬ byte.toNat &&& 128 = 0 ↔ _
  rw [hbyte]
  omega

theorem readVarIntLoop_eq (width : Nat) :
    ∀ {fuel : Nat} {n : Nat} {b : ByteBuffer} {items rest : List UInt8} (acc shift : Nat),
      Holds b n items rest → rest.length < fuel →
      (∀ e, decodeVarInt width rest acc shift = .error e →
          readVarIntLoop width fuel b acc shift = .error e)
        ∧ ∀ v rest', decodeVarInt width rest acc shift = .ok (v, rest') →
          ∃ b', readVarIntLoop width fuel b acc shift = .ok (v, b') ∧ Holds b' n items rest' := by
  intro fuel
  induction fuel with
  | zero => intro n b items rest acc shift _ hfuel; omega
  | succ fuel ih =>
      intro n b items rest acc shift h hfuel
      rw [readVarIntLoop, h.canReadBytes]
      cases rest with
      | nil =>
          refine ⟨by simp [decodeVarInt], ?_⟩
          intro v rest' hdecode
          simp only [decodeVarInt, Except.ok.injEq, Prod.mk.injEq] at hdecode
          obtain ⟨rfl, rfl⟩ := hdecode
          exact ⟨b, rfl, h⟩
      | cons byte rest =>
          have hone : 1 ≤ (byte :: rest).length := by simp
          obtain ⟨b₁, hread, hholds⟩ := h.readBuf hone
          simp only [List.take_succ_cons, List.take_zero, List.drop_succ_cons,
            List.drop_zero] at hread hholds
          simp only [hone, decide_true, Checked.ok_bind, not_true_eq_false, if_false, hread,
            Option.getD_some, List.headD_cons, toNat_and_127, decodeVarInt]
          cases shiftLeft width (byte.toNat % 128) shift with
          | error e => simp
          | ok term =>
              simp only [Checked.ok_bind, and_128_ne_zero_iff]
              by_cases hmore : byte.toNat ≥ 128
              · simp only [if_pos hmore]
                exact ih _ _ hholds (by simpa using hfuel)
              · simp only [if_neg hmore, Checked.pure_eq_ok]
                refine ⟨by simp, ?_⟩
                intro v rest' hdecode
                simp only [Except.ok.injEq, Prod.mk.injEq] at hdecode
                obtain ⟨rfl, rfl⟩ := hdecode
                exact ⟨b₁, rfl, hholds⟩

/-- The groups of a number, read at a shift at which they all fit, add the number there. -/
theorem decodeVarInt_encode {width room v : Nat} (hroom : v < 128 ^ (room + 1))
    (rest : List UInt8) (acc shift : Nat) (hshift : shift < width)
    (hfit : v * 2 ^ shift < 2 ^ width) :
    decodeVarInt width (Base128.encode (room + 1) v ++ rest) acc shift
      = .ok (some (acc ||| v <<< shift), rest) := by
  induction room generalizing v acc shift with
  | zero =>
      have hv : v < 128 := by simpa using hroom
      rw [Base128.encode_of_lt hv, List.singleton_append, decodeVarInt,
        Base128.toNat_ofNat_of_lt (by omega), shiftLeft, if_pos hshift, Checked.ok_bind,
        if_neg (by omega), Nat.mod_eq_of_lt hv, Nat.shiftLeft_eq, Nat.mod_eq_of_lt hfit]
      rfl
  | succ room ih =>
      rw [Base128.encode]
      by_cases hmore : v / 128 > 0
      · have hbyte : v % 128 + 128 < 256 := by omega
        have hlow : v % 128 * 2 ^ shift < 2 ^ width :=
          lt_of_le_of_lt (Nat.mul_le_mul_right _ (Nat.mod_le v 128)) hfit
        have hpow : 2 ^ (shift + 7) = 128 * 2 ^ shift := by
          rw [pow_add]
          ring
        have hhigh : v / 128 * 2 ^ (shift + 7) < 2 ^ width := by
          refine lt_of_le_of_lt ?_ hfit
          rw [hpow, ← Nat.mul_assoc]
          exact Nat.mul_le_mul_right _ (Nat.div_mul_le_self v 128)
        have hshift' : shift + 7 < width := by
          by_contra hge
          have hle : 2 ^ width ≤ 2 ^ (shift + 7) := Nat.pow_le_pow_right (by decide) (by omega)
          have : 2 ^ (shift + 7) ≤ v / 128 * 2 ^ (shift + 7) := Nat.le_mul_of_pos_left _ hmore
          omega
        have hdiv : v / 128 < 128 ^ (room + 1) := by
          rw [Nat.div_lt_iff_lt_mul (by decide)]
          rwa [pow_succ] at hroom
        have hsplit : (v % 128) <<< shift ||| (v / 128) <<< (shift + 7) = v <<< shift := by
          have hgroup : 2 ^ 7 * (v / 128) + v % 128 = 2 ^ 7 * (v / 128) ||| v % 128 :=
            Nat.two_pow_add_eq_or_of_lt (Nat.mod_lt v (by decide)) (v / 128)
          have hv : (v / 128) <<< 7 ||| v % 128 = v := by
            rw [Nat.shiftLeft_eq, Nat.mul_comm, ← hgroup]
            omega
          rw [Nat.add_comm shift 7, Nat.shiftLeft_add, ← Nat.shiftLeft_or_distrib, Nat.or_comm, hv]
        rw [if_pos hmore, List.cons_append, decodeVarInt, Base128.toNat_ofNat_of_lt hbyte,
          show (v % 128 + 128) % 128 = v % 128 by omega, shiftLeft, if_pos hshift, Checked.ok_bind,
          if_pos (by omega), Nat.shiftLeft_eq, Nat.mod_eq_of_lt hlow,
          ih hdiv _ _ hshift' hhigh, ← Nat.shiftLeft_eq, Nat.or_assoc, hsplit]
      · have hv : v < 128 := by omega
        rw [if_neg hmore, List.singleton_append, decodeVarInt,
          Base128.toNat_ofNat_of_lt (by omega), shiftLeft, if_pos hshift, Checked.ok_bind,
          if_neg (by omega), Nat.mod_eq_of_lt hv, Nat.shiftLeft_eq, Nat.mod_eq_of_lt hfit]
        rfl

/-- Bytes that end inside a number of at most `width` bits leave the loop without a result. -/
theorem decodeVarInt_of_decode_none {width : Nat} {bytes : List UInt8}
    (hnone : Base128.decode bytes = none) (acc shift : Nat)
    (hshort : shift + 7 * bytes.length ≤ width + 6) :
    decodeVarInt width bytes acc shift = .ok (none, []) := by
  induction bytes generalizing acc shift with
  | nil => rfl
  | cons byte rest ih =>
      rw [Base128.decode] at hnone
      split at hnone
      · next hmore =>
          rw [List.length_cons] at hshort
          rw [decodeVarInt, shiftLeft, if_pos (by omega), Checked.ok_bind, if_pos hmore]
          exact ih (by simpa using hnone) _ _ (by omega)
      · simp at hnone

/-- A value that `ReadVarInt32` and the 32-bit `ReadVarInt` read. -/
def varInt32 (v : UInt32) : List UInt8 := Base128.encode 5 v.toNat

theorem varInt32_length_le (v : UInt32) : (varInt32 v).length ≤ 5 :=
  Base128.encode_length_le 5 v.toNat

theorem varInt32_length_pos (v : UInt32) : 0 < (varInt32 v).length :=
  Base128.encode_length_pos 4 v.toNat

theorem toNat_lt_128_pow (v : UInt32) : v.toNat < 128 ^ (4 + 1) := by
  have := v.toNat_lt
  omega

theorem readVarInt64_of_decodeVarInt {n : Nat} {b : ByteBuffer} {items rest rest' : List UInt8}
    {v : Option Nat} (h : Holds b n items rest)
    (hdecode : decodeVarInt 64 rest 0 0 = .ok (v, rest')) :
    ∃ b', b.readVarInt64 = .ok (v.map UInt64.ofNat, b') ∧ Holds b' n items rest' := by
  obtain ⟨b', hloop, hholds⟩ :=
    (readVarIntLoop_eq 64 0 0 h (Nat.lt_succ_self _)).2 v rest' hdecode
  refine ⟨b', ?_, hholds⟩
  rw [readVarInt64, h.checkValid, Checked.ok_bind, h.getReadableSpace, Checked.ok_bind, hloop]
  rfl

theorem decodes_readVarInt (v : UInt32) : Decodes readVarInt (varInt32 v) v := by
  intro n b items rest h
  have hlt := v.toNat_lt
  have hdecode : decodeVarInt 64 (varInt32 v ++ rest) 0 0
      = .ok (some (0 ||| v.toNat <<< 0), rest) :=
    decodeVarInt_encode (toNat_lt_128_pow v) rest 0 0 (by decide) (by omega)
  obtain ⟨b', hread, hholds⟩ := readVarInt64_of_decodeVarInt h hdecode
  refine ⟨b', ?_, hholds⟩
  simp only [readVarInt, hread, Checked.ok_bind, Option.map_some, Nat.zero_or,
    Nat.shiftLeft_zero, Checked.pure_eq_ok]
  have hword : (UInt64.ofNat v.toNat).toUInt32 = v := by
    rw [← UInt32.toNat_inj, UInt64.toNat_toUInt32, UInt64.toNat_ofNat']
    omega
  rw [hword]

theorem decodes_readVarInt32 (v : UInt32) : Decodes readVarInt32 (varInt32 v) v := by
  intro n b items rest h
  have hlt := v.toNat_lt
  have hdecode : decodeVarInt 32 (varInt32 v ++ rest) 0 0
      = .ok (some (0 ||| v.toNat <<< 0), rest) :=
    decodeVarInt_encode (toNat_lt_128_pow v) rest 0 0 (by decide) (by omega)
  obtain ⟨b', hloop, hholds⟩ :=
    (readVarIntLoop_eq 32 0 0 h (Nat.lt_succ_self _)).2 _ rest hdecode
  refine ⟨b', ?_, hholds⟩
  simp only [readVarInt32, h.checkValid, h.getReadableSpace, hloop, Checked.ok_bind,
    Option.map_some, Nat.zero_or, Nat.shiftLeft_zero, Checked.pure_eq_ok, UInt32.ofNat_toNat]

/-- An incomplete number at the end of a ring: the reader fails and the cursor moves to the end. -/
theorem readVarInt_of_decode_none {n : Nat} {b : ByteBuffer} {items rest : List UInt8}
    (h : Holds b n items rest) (hnone : Base128.decode rest = none) (hshort : rest.length ≤ 10) :
    ∃ b', b.readVarInt = .ok (none, b') ∧ Holds b' n items [] := by
  obtain ⟨b', hread, hholds⟩ := readVarInt64_of_decodeVarInt h
    (decodeVarInt_of_decode_none hnone 0 0 (by omega))
  exact ⟨b', by rw [readVarInt, hread]; rfl, hholds⟩

/-- The bytes of a string: its length and its characters. -/
def stringBytes (s : AString) : List UInt8 := varInt32 (UInt32.ofNat s.length) ++ s

theorem stringBytes_length_le (s : AString) : (stringBytes s).length ≤ s.length + 5 := by
  have hle := varInt32_length_le (UInt32.ofNat s.length)
  rw [stringBytes, List.length_append]
  omega

theorem decodes_readVarUTF8String {s : AString} (hlength : s.length < 2 ^ 32) :
    Decodes readVarUTF8String (stringBytes s) s := by
  intro n b items rest h
  rw [stringBytes, List.append_assoc] at h
  obtain ⟨b₁, hsize, hholds₁⟩ := decodes_readVarInt _ h
  have hcount : s.length ≤ (s ++ rest).length := by simp
  obtain ⟨b₂, hread, hholds₂⟩ := hholds₁.readBuf hcount
  rw [List.take_left] at hread
  rw [List.drop_left] at hholds₂
  refine ⟨b₂, ?_, hholds₂⟩
  simp only [readVarUTF8String, h.checkValid, Checked.ok_bind, hsize, readString_eq_readBuf,
    UInt32.toNat_ofNat', Nat.mod_eq_of_lt hlength, hread]

/-! ### Readers on any bytes

Whatever a reader finds, and whether it succeeds or not, it only moves the cursor. -/

/-- The reader only moves the cursor. -/
def Keeps {α : Type} (read : ByteBuffer → Checked (Option α × ByteBuffer)) : Prop :=
  ∀ {n : Nat} {b b' : ByteBuffer} {items rest : List UInt8} {v : Option α},
    Holds b n items rest → read b = .ok (v, b') → ∃ rest', Holds b' n items rest'

theorem keeps_readBuf (count : Nat) : Keeps fun b => b.readBuf count := by
  intro n b b' items rest v h hread
  beta_reduce at hread
  by_cases hcount : count ≤ rest.length
  · obtain ⟨b₁, hread₁, h₁⟩ := h.readBuf hcount
    rw [hread₁, Except.ok.injEq, Prod.mk.injEq] at hread
    obtain ⟨-, rfl⟩ := hread
    exact ⟨_, h₁⟩
  · rw [h.readBuf_of_short (by omega), Except.ok.injEq, Prod.mk.injEq] at hread
    obtain ⟨-, rfl⟩ := hread
    exact ⟨_, h⟩

theorem keeps_readString (count : Nat) : Keeps fun b => b.readString count := by
  simp only [readString_eq_readBuf]
  exact keeps_readBuf count

theorem keeps_readScalar {α : Type} (width : Nat) (convert : Nat → α) :
    Keeps fun b => b.readScalar width convert := by
  intro n b b' items rest v h hread
  beta_reduce at hread
  by_cases hwidth : width ≤ rest.length
  · obtain ⟨b₁, hread₁, h₁⟩ := h.readBuf hwidth
    simp only [readScalar, h.checkValid, Checked.ok_bind, h.canReadBytes, hwidth, decide_true,
      not_true_eq_false, if_false, hread₁, Checked.pure_eq_ok, Except.ok.injEq,
      Prod.mk.injEq] at hread
    obtain ⟨-, rfl⟩ := hread
    exact ⟨_, h₁⟩
  · rw [readScalar_of_short h (by omega), Except.ok.injEq, Prod.mk.injEq] at hread
    obtain ⟨-, rfl⟩ := hread
    exact ⟨_, h⟩

theorem holds_of_readVarIntLoop {width fuel n acc shift : Nat} {b b' : ByteBuffer}
    {items rest : List UInt8} {v : Option Nat} (h : Holds b n items rest)
    (hfuel : rest.length < fuel) (hread : readVarIntLoop width fuel b acc shift = .ok (v, b')) :
    ∃ rest', Holds b' n items rest' := by
  obtain ⟨herror, hok⟩ := readVarIntLoop_eq width acc shift h hfuel
  cases hdecode : decodeVarInt width rest acc shift with
  | error e =>
      rw [herror e hdecode] at hread
      cases hread
  | ok result =>
      obtain ⟨v', rest'⟩ := result
      obtain ⟨b₁, hread₁, h₁⟩ := hok v' rest' hdecode
      rw [hread₁, Except.ok.injEq, Prod.mk.injEq] at hread
      obtain ⟨-, rfl⟩ := hread
      exact ⟨rest', h₁⟩

theorem keeps_readVarInt32 : Keeps readVarInt32 := by
  intro n b b' items rest v h hread
  rw [readVarInt32, h.checkValid, Checked.ok_bind, h.getReadableSpace, Checked.ok_bind] at hread
  obtain ⟨⟨v₁, b₁⟩, hloop, hread⟩ := exists_of_bind_ok hread
  simp only [Checked.pure_eq_ok, Except.ok.injEq, Prod.mk.injEq] at hread
  obtain ⟨-, rfl⟩ := hread
  exact holds_of_readVarIntLoop h (Nat.lt_succ_self _) hloop

theorem keeps_readVarInt : Keeps readVarInt := by
  intro n b b' items rest v h hread
  rw [readVarInt, readVarInt64, h.checkValid, Checked.ok_bind, h.getReadableSpace,
    Checked.ok_bind] at hread
  obtain ⟨⟨v₁, b₁⟩, hread₁, hread⟩ := exists_of_bind_ok hread
  obtain ⟨⟨v₂, b₂⟩, hloop, hread₁⟩ := exists_of_bind_ok hread₁
  simp only [Checked.pure_eq_ok, Except.ok.injEq, Prod.mk.injEq] at hread hread₁
  obtain ⟨-, rfl⟩ := hread
  obtain ⟨-, rfl⟩ := hread₁
  exact holds_of_readVarIntLoop h (Nat.lt_succ_self _) hloop

theorem keeps_readVarUTF8String : Keeps readVarUTF8String := by
  intro n b b' items rest v h hread
  rw [readVarUTF8String, h.checkValid, Checked.ok_bind] at hread
  obtain ⟨⟨size, b₁⟩, hsize, hread⟩ := exists_of_bind_ok hread
  obtain ⟨rest₁, h₁⟩ := keeps_readVarInt h hsize
  cases size with
  | none =>
      simp only [Checked.pure_eq_ok, Except.ok.injEq, Prod.mk.injEq] at hread
      obtain ⟨-, rfl⟩ := hread
      exact ⟨rest₁, h₁⟩
  | some size => exact keeps_readString size.toNat h₁ hread

/-! ### Writers -/

/-- The writer puts exactly `bytes` at the end of a ring that has room for them. -/
def Encodes (write : ByteBuffer → Checked (Bool × ByteBuffer)) (bytes : List UInt8) : Prop :=
  ∀ {n : Nat} {b : ByteBuffer} {items rest : List UInt8}, Holds b n items rest →
    items.length + bytes.length ≤ n →
    ∃ b', write b = .ok (true, b') ∧ Holds b' n (items ++ bytes) (rest ++ bytes)

theorem encodes_write (bytes : List UInt8) : Encodes (fun b => b.write bytes) bytes :=
  fun h hfit => h.write hfit

theorem encodes_writeScalar (width image : Nat) :
    Encodes (fun b => b.writeScalar width image) (littleEndian width image) := by
  intro n b items rest h hfit
  obtain ⟨b', hwrite, hholds⟩ := h.writeBuf hfit
  rw [littleEndian_length] at hfit
  refine ⟨b', ?_, hholds⟩
  simp only [writeScalar, h.checkValid, Checked.ok_bind, h.canWriteBytes, hfit, hwrite]
  simp

theorem littleEndian_ntohs (v : UInt16) : littleEndian 2 (ntohs v).toNat = bigEndian 2 v.toNat := by
  have hlt : swap 2 v.toNat < 2 ^ 16 := by simpa using swap_lt 2 v.toNat
  rw [ntohs, UInt16.toNat_ofNat', Nat.mod_eq_of_lt hlt, littleEndian_swap, bigEndian]

theorem littleEndian_ntohl (v : UInt32) : littleEndian 4 (ntohl v).toNat = bigEndian 4 v.toNat := by
  have hlt : swap 4 v.toNat < 2 ^ 32 := by simpa using swap_lt 4 v.toNat
  rw [ntohl, UInt32.toNat_ofNat', Nat.mod_eq_of_lt hlt, littleEndian_swap, bigEndian]

theorem encodes_writeBEInt16 (v : Int16) :
    Encodes (fun b => b.writeBEInt16 v) (bigEndian 2 v.toUInt16.toNat) := by
  rw [← littleEndian_ntohs]
  exact encodes_writeScalar 2 _

theorem encodes_writeBEUInt16 (v : UInt16) :
    Encodes (fun b => b.writeBEUInt16 v) (bigEndian 2 v.toNat) := by
  rw [← littleEndian_ntohs]
  exact encodes_writeScalar 2 _

theorem encodes_writeBEInt32 (v : Int32) :
    Encodes (fun b => b.writeBEInt32 v) (bigEndian 4 v.toUInt32.toNat) := by
  rw [← littleEndian_ntohl]
  exact encodes_writeScalar 4 _

theorem encodes_writeBEUInt32 (v : UInt32) :
    Encodes (fun b => b.writeBEUInt32 v) (bigEndian 4 v.toNat) := by
  rw [← littleEndian_ntohl]
  exact encodes_writeScalar 4 _

theorem encodes_writeBEInt64 (v : Int64) :
    Encodes (fun b => b.writeBEInt64 v) (bigEndian 8 v.toUInt64.toNat) := by
  have himage : littleEndian 8 (hostToNetwork8 v.toUInt64).toNat = bigEndian 8 v.toUInt64.toNat := by
    rw [hostToNetwork8, toNat_ntohll, littleEndian_swap, bigEndian]
  rw [← himage]
  intro n b items rest h hfit
  exact encodes_writeScalar 8 (hostToNetwork8 v.toUInt64).toNat h hfit

theorem encodes_writeBool (v : Bool) : Encodes (fun b => b.writeBool v) [boolByte v] := by
  intro n b items rest h hfit
  obtain ⟨b', hwrite, hholds⟩ := h.write hfit
  exact ⟨b', by simp only [writeBool, h.checkValid, Checked.ok_bind]; exact hwrite, hholds⟩

theorem varIntBytes_eq {room v : Nat} (h : v < 128 ^ (room + 1)) :
    varIntBytes (room + 1) v = .ok (Base128.encode (room + 1) v) := by
  have hshift : v >>> 7 = v / 128 := Nat.shiftRight_eq_div_pow v 7
  have hmask : v &&& 0x7f = v % 128 := Nat.and_two_pow_sub_one_eq_mod v 7
  induction room generalizing v with
  | zero =>
      have hv : v < 128 := by simpa using h
      rw [varIntBytes, Base128.encode_of_lt hv]
      simp only [hshift, hmask]
      rw [if_neg (by omega), if_neg (by omega), Nat.or_zero, Nat.mod_eq_of_lt hv]
      rfl
  | succ room ih =>
      rw [varIntBytes, Base128.encode]
      simp only [hshift, hmask]
      by_cases hmore : v / 128 > 0
      · have hdiv : v / 128 < 128 ^ (room + 1) := by
          rw [Nat.div_lt_iff_lt_mul (by decide)]
          rwa [pow_succ] at h
        have hor : v % 128 ||| 0x80 = v % 128 + 128 := by
          have hgroup : 2 ^ 7 * 1 + v % 128 = 2 ^ 7 * 1 ||| v % 128 :=
            Nat.two_pow_add_eq_or_of_lt (Nat.mod_lt v (by decide)) 1
          rw [Nat.or_comm, Nat.add_comm]
          exact hgroup.symm
        rw [if_pos hmore, if_pos hmore, if_pos (by omega), hor,
          ih hdiv (Nat.shiftRight_eq_div_pow _ 7) (Nat.and_two_pow_sub_one_eq_mod _ 7)]
        rfl
      · rw [if_neg hmore, if_neg hmore, if_neg (by omega), Nat.or_zero, Nat.mod_eq_of_lt (by omega)]
        rfl

theorem encodes_writeVarInt32 (v : UInt32) :
    Encodes (fun b => b.writeVarInt32 v) (varInt32 v) := by
  intro n b items rest h hfit
  obtain ⟨b', hwrite, hholds⟩ := h.writeBuf hfit
  refine ⟨b', ?_, hholds⟩
  simp only [writeVarInt32, h.checkValid, Checked.ok_bind, varIntBytes_eq (toNat_lt_128_pow v)]
  exact hwrite

theorem encodes_writeVarUTF8String (s : AString) :
    Encodes (fun b => b.writeVarUTF8String s) (stringBytes s) := by
  intro n b items rest h hfit
  have hpos := varInt32_length_pos (UInt32.ofNat s.length)
  rw [stringBytes, List.length_append] at hfit
  obtain ⟨b₁, hsize, hholds₁⟩ := encodes_writeVarInt32 (UInt32.ofNat s.length) h (by omega)
  have hfit₁ : (items ++ varInt32 (UInt32.ofNat s.length)).length + s.length ≤ n := by
    rw [List.length_append]
    omega
  obtain ⟨b₂, hwrite, hholds₂⟩ := hholds₁.writeBuf hfit₁
  rw [List.append_assoc, List.append_assoc] at hholds₂
  refine ⟨b₂, ?_, hholds₂⟩
  have hroom : items.length + (s.length + 1) ≤ n := by omega
  simp only [writeVarUTF8String, h.checkValid, Checked.ok_bind, h.canWriteBytes, hroom, hsize]
  simpa using hwrite

/-! ### Writes that succeed

A writer that returns true had the room; the packet composer checks nothing else. -/

/-- A true result means that the bytes fit. -/
def NeedsRoom (write : ByteBuffer → Checked (Bool × ByteBuffer)) (bytes : List UInt8) : Prop :=
  ∀ {n : Nat} {b b' : ByteBuffer} {items rest : List UInt8}, Holds b n items rest →
    write b = .ok (true, b') → items.length + bytes.length ≤ n

theorem needsRoom_write (bytes : List UInt8) : NeedsRoom (fun b => b.write bytes) bytes := by
  intro n b b' items rest h hwrite
  by_contra hfull
  have hfalse := h.write_of_full (Nat.lt_of_not_le hfull)
  beta_reduce at hwrite
  rw [hfalse] at hwrite
  cases hwrite

theorem needsRoom_writeBuf (bytes : List UInt8) : NeedsRoom (fun b => b.writeBuf bytes) bytes := by
  intro n b b' items rest h hwrite
  by_contra hfull
  have hfalse := h.writeBuf_of_full (Nat.lt_of_not_le hfull)
  beta_reduce at hwrite
  rw [hfalse] at hwrite
  cases hwrite

theorem needsRoom_writeScalar {width : Nat} {bytes : List UInt8} (image : Nat)
    (hlength : bytes.length = width) : NeedsRoom (fun b => b.writeScalar width image) bytes := by
  intro n b b' items rest h hwrite
  by_contra hfull
  rw [hlength] at hfull
  simp [writeScalar, h.checkValid, h.canWriteBytes, hfull] at hwrite

theorem needsRoom_writeBool (v : Bool) : NeedsRoom (fun b => b.writeBool v) [boolByte v] := by
  intro n b b' items rest h hwrite
  simp only [writeBool, h.checkValid, Checked.ok_bind] at hwrite
  exact needsRoom_write [boolByte v] h hwrite

theorem needsRoom_writeVarInt32 (v : UInt32) :
    NeedsRoom (fun b => b.writeVarInt32 v) (varInt32 v) := by
  intro n b b' items rest h hwrite
  simp only [writeVarInt32, h.checkValid, Checked.ok_bind,
    varIntBytes_eq (toNat_lt_128_pow v)] at hwrite
  exact needsRoom_writeBuf _ h hwrite

theorem needsRoom_writeVarUTF8String (s : AString) :
    NeedsRoom (fun b => b.writeVarUTF8String s) (stringBytes s) := by
  intro n b b' items rest h hwrite
  by_cases hroom : items.length + (s.length + 1) ≤ n
  · simp only [writeVarUTF8String, h.checkValid, Checked.ok_bind, h.canWriteBytes, hroom,
      decide_true, not_true_eq_false, if_false] at hwrite
    obtain ⟨⟨res, b₁⟩, hsize, hwrite⟩ := exists_of_bind_ok hwrite
    cases res with
    | false => simp at hwrite
    | true =>
        have hfit := needsRoom_writeVarInt32 _ h hsize
        obtain ⟨b₂, hsize₂, h₂⟩ := encodes_writeVarInt32 _ h hfit
        beta_reduce at hsize₂
        rw [hsize, Except.ok.injEq, Prod.mk.injEq] at hsize₂
        obtain ⟨-, rfl⟩ := hsize₂
        have hend := needsRoom_writeBuf s h₂ (by simpa using hwrite)
        rw [List.length_append] at hend
        rw [stringBytes, List.length_append]
        omega
  · simp [writeVarUTF8String, h.checkValid, h.canWriteBytes, hroom] at hwrite

end ByteBuffer

end Licode
