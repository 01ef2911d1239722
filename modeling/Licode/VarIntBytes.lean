import Licode.ByteBufferCodecSpec

/-!
# Variable-length integers from a stranger

The readers of variable-length integers go on for as long as the bytes have the top bit set. What they
return is the number that the bytes denote, but for the bits that their variables have no place for; and
where there are too many bytes, the shift is one that C++ gives no meaning to. `ReadVarInt` reads with 64
bits and gives back 32 of them.
-/

namespace Licode.ByteBuffer

open Base128

/-! ### The loop as a function of the bytes -/

/-- A group that is put above what has been read, in a variable of `width` bits. -/
theorem or_group {width acc group shift : Nat} (hshift : shift < width) (hacc : acc < 2 ^ shift) :
    acc ||| (group <<< shift) % 2 ^ width = (acc + group * 2 ^ shift) % 2 ^ width := by
  have hwidth : 2 ^ width = 2 ^ shift * 2 ^ (width - shift) := by
    rw [← pow_add, Nat.add_sub_cancel' hshift.le]
  have hgroup : (group <<< shift) % 2 ^ width = 2 ^ shift * (group % 2 ^ (width - shift)) := by
    rw [Nat.shiftLeft_eq, Nat.mul_comm, hwidth, Nat.mul_mod_mul_left]
  have hmod : group % 2 ^ (width - shift) < 2 ^ (width - shift) := Nat.mod_lt _ (Nat.two_pow_pos _)
  have hlt : 2 ^ shift * (group % 2 ^ (width - shift)) + acc < 2 ^ width := by
    calc 2 ^ shift * (group % 2 ^ (width - shift)) + acc
        < 2 ^ shift * (group % 2 ^ (width - shift)) + 2 ^ shift := Nat.add_lt_add_left hacc _
      _ = 2 ^ shift * (group % 2 ^ (width - shift) + 1) := by ring
      _ ≤ 2 ^ shift * 2 ^ (width - shift) := Nat.mul_le_mul_left _ hmod
      _ = 2 ^ width := hwidth.symm
  have hsplit : acc + group * 2 ^ shift
      = 2 ^ shift * (group % 2 ^ (width - shift)) + acc + 2 ^ width * (group / 2 ^ (width - shift)) := by
    calc acc + group * 2 ^ shift
        = acc + (group % 2 ^ (width - shift) + 2 ^ (width - shift) * (group / 2 ^ (width - shift))) * 2 ^ shift := by
          rw [Nat.mod_add_div]
      _ = _ := by
          rw [hwidth]
          ring
  rw [hgroup, Nat.or_comm, ← Nat.two_pow_add_eq_or_of_lt hacc, hsplit, Nat.add_mul_mod_self_left, Nat.mod_eq_of_lt hlt]

/-- While there is a place for each group, the loop gives the number that is denoted, in `width` bits. -/
theorem decodeVarInt_eq {width : Nat} {bytes : List UInt8} {acc shift : Nat} (hacc : acc < 2 ^ shift)
    (hplace : shift + 7 * groups bytes < width + 7) : ∃ rest, decodeVarInt width bytes acc shift
      = .ok ((decode bytes).map fun result => (acc + result.1 * 2 ^ shift) % 2 ^ width, rest) := by
  induction bytes generalizing acc shift with
  | nil => exact ⟨[], rfl⟩
  | cons byte bytes ih =>
      rw [groups] at hplace
      have hshift : shift < width := by
        split at hplace
        all_goals omega
      rw [decodeVarInt, shiftLeft, if_pos hshift, Checked.ok_bind, or_group hshift hacc, decode]
      have hgroup : byte.toNat % 128 < 128 := Nat.mod_lt _ (by decide)
      by_cases hmore : byte.toNat ≥ 128
      · rw [if_pos hmore] at hplace
        rw [if_pos hmore, if_pos hmore]
        have hacc' : (acc + byte.toNat % 128 * 2 ^ shift) % 2 ^ width < 2 ^ (shift + 7) := by
          calc (acc + byte.toNat % 128 * 2 ^ shift) % 2 ^ width
              ≤ acc + byte.toNat % 128 * 2 ^ shift := Nat.mod_le _ _
            _ < 2 ^ shift + 127 * 2 ^ shift := by
                apply Nat.add_lt_add_of_lt_of_le hacc
                exact Nat.mul_le_mul_right _ (by omega)
            _ = 2 ^ (shift + 7) := by ring
        obtain ⟨rest, hdecode⟩ := ih hacc' (by omega)
        refine ⟨rest, ?_⟩
        rw [hdecode, Option.map_map]
        congr 3
        funext result
        have hnumber : acc + byte.toNat % 128 * 2 ^ shift + result.1 * 2 ^ (shift + 7)
            = acc + (byte.toNat % 128 + 128 * result.1) * 2 ^ shift := by ring
        rw [Function.comp_apply, Nat.mod_add_mod, hnumber]
      · have hlow : byte.toNat % 128 = byte.toNat := Nat.mod_eq_of_lt (Nat.lt_of_not_le hmore)
        refine ⟨bytes, ?_⟩
        rw [if_neg hmore, if_neg hmore, hlow]
        rfl

/-- A group for which there is no place is shifted out of range. -/
theorem decodeVarInt_shiftRange {width : Nat} {bytes : List UInt8} {acc shift : Nat} (hshift : shift < width + 7)
    (hplace : width + 7 ≤ shift + 7 * groups bytes) :
    decodeVarInt width bytes acc shift = .error .shiftRange := by
  induction bytes generalizing acc shift with
  | nil =>
      rw [groups] at hplace
      omega
  | cons byte bytes ih =>
      rw [decodeVarInt, shiftLeft]
      by_cases hin : shift < width
      · rw [if_pos hin, Checked.ok_bind]
        rw [groups] at hplace
        split at hplace
        · next hmore =>
            rw [if_pos hmore]
            exact ih (by omega) (by omega)
        · omega
      · rw [if_neg hin]
        rfl

/-! ### The readers -/

/-- The common body of the readers: `width` bits are read and then cast. -/
def readVarIntAs {α : Type} (width : Nat) (cast : Nat → α) (b : ByteBuffer) : Checked (Option α × ByteBuffer) := do
  b.checkValid
  let (v, b) ← readVarIntLoop width ((← b.getReadableSpace) + 1) b 0 0
  return (v.map cast, b)

theorem readVarInt_eq (b : ByteBuffer) : b.readVarInt = b.readVarIntAs 64 fun v => (UInt64.ofNat v).toUInt32 := by
  rw [readVarInt, readVarInt64, readVarIntAs, bind_assoc]
  congr 1
  funext _
  rw [bind_assoc]
  congr 1
  funext space
  rw [bind_assoc]
  congr 1
  funext result
  obtain ⟨v, b'⟩ := result
  rw [pure_bind]
  cases v
  all_goals rfl

/-- What a reader does on some bytes that are ahead of the cursor: it fails, or gives the number that is denoted
and has taken no more than `limit` bytes for it. -/
def ReadsNumber {α : Type} (read : ByteBuffer → Checked (Option α × ByteBuffer)) (toNat : α → Nat) (limit : Nat)
    (b : ByteBuffer) (bytes : List UInt8) : Prop :=
  ∃ v b', read b = .ok (v, b') ∧ ∀ x, v = some x → (∃ rest, decode bytes = some (toNat x, rest)) ∧ groups bytes ≤ limit

/-- Bytes that a reader of numbers of `width` bits does right by: a number is in its place and in its width, and
what is no number is not longer than `reach`. -/
structure Regular (width limit reach : Nat) (bytes : List UInt8) : Prop where
  number : ∀ v rest, decode bytes = some (v, rest) → groups bytes ≤ limit ∧ v < 2 ^ width
  endless : decode bytes = none → groups bytes ≤ reach

section Reads

variable {n : Nat} {b : ByteBuffer} {items bytes : List UInt8}

theorem readVarIntAs_eq {α : Type} {width : Nat} (cast : Nat → α) (h : Holds b n items bytes)
    (hplace : 7 * groups bytes < width + 7) : ∃ b', b.readVarIntAs width cast
      = .ok ((decode bytes).map fun result => cast (result.1 % 2 ^ width), b') := by
  obtain ⟨rest, hdecode⟩ := decodeVarInt_eq (show 0 < 2 ^ 0 by decide) (by rwa [Nat.zero_add])
  obtain ⟨b', hloop, -⟩ := (readVarIntLoop_eq width 0 0 h (Nat.lt_succ_self _)).2 _ rest hdecode
  refine ⟨b', ?_⟩
  rw [readVarIntAs, h.checkValid, Checked.ok_bind, h.getReadableSpace, Checked.ok_bind, hloop, Checked.ok_bind]
  simp only [Option.map_map, Function.comp_def, Nat.zero_add, pow_zero, Nat.mul_one]
  rfl

theorem readVarIntAs_shiftRange {α : Type} {width : Nat} (cast : Nat → α) (h : Holds b n items bytes)
    (hplace : width + 7 ≤ 7 * groups bytes) : b.readVarIntAs width cast = .error .shiftRange := by
  have hdecode : decodeVarInt width bytes 0 0 = .error .shiftRange :=
    decodeVarInt_shiftRange (Nat.add_pos_right _ (by decide)) (by rwa [Nat.zero_add])
  have hloop := (readVarIntLoop_eq width 0 0 h (Nat.lt_succ_self _)).1 _ hdecode
  rw [readVarIntAs, h.checkValid, Checked.ok_bind, h.getReadableSpace, Checked.ok_bind, hloop, Checked.error_bind]

/-- The loop has places for `reach` groups, of which the reader's type has the lower `width` bits. -/
theorem readsNumber_iff {α : Type} {width width' limit reach : Nat} {cast : Nat → α} {toNat : α → Nat}
    (hcast : ∀ v, toNat (cast (v % 2 ^ width')) = v % 2 ^ width) (hlimit : limit ≤ reach)
    (hreach : ∀ k, 7 * k < width' + 7 ↔ k ≤ reach) (h : Holds b n items bytes) :
    ReadsNumber (readVarIntAs width' cast) toNat limit b bytes ↔ Regular width limit reach bytes := by
  constructor
  · rintro ⟨v, b', hread, hnumber⟩
    have hplace : groups bytes ≤ reach := by
      by_contra hlong
      rw [readVarIntAs_shiftRange cast h (Nat.le_of_not_lt (mt (hreach _).mp hlong))] at hread
      cases hread
    obtain ⟨b₁, hread₁⟩ := readVarIntAs_eq cast h ((hreach _).mpr hplace)
    rw [hread₁, Except.ok.injEq, Prod.mk.injEq] at hread
    refine ⟨fun w rest hdecode => ?_, fun _ => hplace⟩
    rw [hdecode, Option.map_some] at hread
    obtain ⟨⟨rest', hsame⟩, hshort⟩ := hnumber _ hread.1.symm
    rw [hdecode, hcast, Option.some_inj, Prod.mk.injEq] at hsame
    refine ⟨hshort, ?_⟩
    rw [hsame.1]
    exact Nat.mod_lt _ (Nat.two_pow_pos width)
  · intro hregular
    have hplace : groups bytes ≤ reach := by
      cases hdecode : decode bytes with
      | none => exact hregular.endless hdecode
      | some result => exact (hregular.number result.1 result.2 hdecode).1.trans hlimit
    obtain ⟨b', hread⟩ := readVarIntAs_eq cast h ((hreach _).mpr hplace)
    refine ⟨_, b', hread, ?_⟩
    intro x hx
    obtain ⟨⟨v, rest⟩, hdecode, rfl⟩ := Option.map_eq_some_iff.mp hx
    obtain ⟨hshort, hlt⟩ := hregular.number v rest hdecode
    refine ⟨⟨rest, ?_⟩, hshort⟩
    rw [hdecode, hcast, Nat.mod_eq_of_lt hlt]

theorem readsNumber_readVarInt_iff (h : Holds b n items bytes) :
    ReadsNumber readVarInt UInt32.toNat 5 b bytes ↔ Regular 32 5 10 bytes := by
  have htemplate : readVarInt = readVarIntAs 64 fun v => (UInt64.ofNat v).toUInt32 := funext readVarInt_eq
  rw [htemplate]
  apply readsNumber_iff (fun v => ?_) (by decide) (fun k => by omega) h
  rw [UInt64.toNat_toUInt32, UInt64.toNat_ofNat']
  omega

/-- **When the readers of variable-length integers read right,** for all bytes that may be ahead of the cursor.
The last of them reads the lengths of the frames from the link. -/
theorem readVarInt_number_iff (h : Holds b n items bytes) :
    (ReadsNumber readVarInt32 UInt32.toNat 5 b bytes ↔ Regular 32 5 5 bytes)
      ∧ (ReadsNumber readVarInt64 UInt64.toNat 10 b bytes ↔ Regular 64 10 10 bytes)
      ∧ (ReadsNumber readVarInt UInt32.toNat 5 b bytes ↔ Regular 32 5 10 bytes) := by
  refine ⟨?_, ?_, ?_⟩
  · apply readsNumber_iff (fun v => ?_) le_rfl (fun k => by omega) h
    rw [UInt32.toNat_ofNat', Nat.mod_mod]
  · apply readsNumber_iff (fun v => ?_) le_rfl (fun k => by omega) h
    rw [UInt64.toNat_ofNat', Nat.mod_mod]
  · exact readsNumber_readVarInt_iff h

end Reads

/-- Each of the readers gives 300 for the two bytes of 300. -/
theorem readVarInt_number_iff_300 : ∃ b, (create 8).write [0xAC, 0x02] = .ok (true, b)
    ∧ ReadsNumber readVarInt32 UInt32.toNat 5 b [0xAC, 0x02]
    ∧ ReadsNumber readVarInt64 UInt64.toNat 10 b [0xAC, 0x02]
    ∧ ReadsNumber readVarInt UInt32.toNat 5 b [0xAC, 0x02]
    ∧ ∃ b', b.readVarInt = .ok (some 300, b') := by
  have hempty : Holds (create 8) 8 [] [] := holds_create 8 fun _ => 0
  obtain ⟨b, hwrite, hb⟩ := @Holds.write _ _ _ _ hempty [0xAC, 0x02] (by decide)
  obtain ⟨b', hread⟩ := @readVarIntAs_eq _ _ _ _ _ 64 (fun v => (UInt64.ofNat v).toUInt32) hb (by decide)
  have hdecode : decode [0xAC, 0x02] = some (300, []) := by decide
  have hregular : ∀ {width limit reach}, 9 ≤ width → 2 ≤ limit → Regular width limit reach [0xAC, 0x02] := by
    intro width limit reach hwidth hlimit
    refine ⟨fun v rest h => ?_, fun h => ?_⟩
    · rw [hdecode] at h
      cases h
      exact ⟨hlimit, (show 300 < 2 ^ 9 by decide).trans_le (Nat.pow_le_pow_right (by decide) hwidth)⟩
    · rw [hdecode] at h
      cases h
  obtain ⟨h₁, h₂, h₃⟩ := readVarInt_number_iff hb
  refine ⟨b, hwrite, h₁.mpr (hregular ?_ ?_), h₂.mpr (hregular ?_ ?_), h₃.mpr (hregular ?_ ?_), b', ?_⟩
  iterate 6 decide
  rw [readVarInt_eq, hread, List.nil_append, hdecode]
  rfl

/-- Five bytes that denote the length 2 ^ 32 are read as the length 0, and eleven bytes are shifted out of range. -/
theorem readVarInt_wraps : ∃ b b' c,
    (create 16).write [128, 128, 128, 128, 16] = .ok (true, b) ∧ b.readVarInt = .ok (some 0, b')
      ∧ decode [128, 128, 128, 128, 16] = some (2 ^ 32, [])
      ∧ (create 16).write (List.replicate 10 128 ++ [1]) = .ok (true, c) ∧ c.readVarInt = .error .shiftRange := by
  have hempty : Holds (create 16) 16 [] [] := holds_create 16 fun _ => 0
  obtain ⟨b, hwrite, hb⟩ := @Holds.write _ _ _ _ hempty [128, 128, 128, 128, 16] (by decide)
  obtain ⟨c, hwrite', hc⟩ := @Holds.write _ _ _ _ hempty (List.replicate 10 128 ++ [1]) (by decide)
  obtain ⟨b', hread⟩ := @readVarIntAs_eq _ _ _ _ _ 64 (fun v => (UInt64.ofNat v).toUInt32) hb (by decide)
  have hdecode : decode [128, 128, 128, 128, 16] = some (2 ^ 32, []) := by decide
  refine ⟨b, b', c, hwrite, ?_, hdecode, hwrite', ?_⟩
  · rw [readVarInt_eq, hread, List.nil_append, hdecode]
    rfl
  · rw [readVarInt_eq]
    apply readVarIntAs_shiftRange _ hc
    decide

end Licode.ByteBuffer
