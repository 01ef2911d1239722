import Mathlib.Data.Nat.Bitwise
import Mathlib.Tactic.Ring

/-!
# Base-128 numbers

A natural number as groups of seven bits, least significant group first, one group a byte, with the
top bit of a byte saying that more groups follow. The encoding is self-delimiting: a decoder that
stops at the first byte without the top bit reads back the number and leaves what follows alone,
and no proper initial part of an encoding is accepted.
-/

namespace Base128

/-- The groups of a number, at most `room` of them. -/
def encode : Nat → Nat → List UInt8
  | 0, _ => []
  | room + 1, value =>
      if value / 128 > 0 then UInt8.ofNat (value % 128 + 128) :: encode room (value / 128)
      else [UInt8.ofNat value]

/-- The number a decoder reads and the bytes behind it; `none` when the bytes end too early. -/
def decode : List UInt8 → Option (Nat × List UInt8)
  | [] => none
  | byte :: rest =>
      if byte.toNat ≥ 128 then
        (decode rest).map fun r => (byte.toNat % 128 + 128 * r.1, r.2)
      else
        some (byte.toNat, rest)

/-- The number of bytes that a decoder looks at: those up to the first one without the top bit. -/
def groups : List UInt8 → Nat
  | [] => 0
  | byte :: rest => if byte.toNat ≥ 128 then groups rest + 1 else 1

theorem toNat_ofNat_of_lt {value : Nat} (h : value < 256) : (UInt8.ofNat value).toNat = value := by
  rw [UInt8.toNat_ofNat']
  exact Nat.mod_eq_of_lt h

theorem encode_length_le (room value : Nat) : (encode room value).length ≤ room := by
  induction room generalizing value with
  | zero => simp [encode]
  | succ room ih =>
      rw [encode]
      split
      · simpa using ih (value / 128)
      · simp

theorem encode_length_pos (room value : Nat) : 0 < (encode (room + 1) value).length := by
  rw [encode]
  split <;> simp

theorem encode_of_lt {room value : Nat} (h : value < 128) :
    encode (room + 1) value = [UInt8.ofNat value] := by
  rw [encode, if_neg (by omega)]

/-- One more group of room is needed for every factor of 128. -/
theorem encode_length_le_of_lt {room value groups : Nat} (h : value < 128 ^ (groups + 1)) :
    (encode room value).length ≤ groups + 1 := by
  induction groups generalizing room value with
  | zero =>
      cases room with
      | zero => simp [encode]
      | succ room =>
          have hvalue : value < 128 := by simpa using h
          rw [encode_of_lt hvalue]
          rfl
  | succ groups ih =>
      cases room with
      | zero => simp [encode]
      | succ room =>
          rw [encode]
          split
          · have hdiv : value / 128 < 128 ^ (groups + 1) := by
              rw [Nat.div_lt_iff_lt_mul (by decide)]
              rwa [pow_succ] at h
            simpa using ih hdiv
          · simp

/-- A proper initial part of an encoding is no encoding. -/
theorem decode_take_encode {room value k : Nat} (hk : k < (encode room value).length) :
    decode ((encode room value).take k) = none := by
  induction room generalizing value k with
  | zero => simp [encode] at hk
  | succ room ih =>
      cases k with
      | zero => simp [decode]
      | succ k =>
          rw [encode] at hk ⊢
          split at hk
          · next hmore =>
              have hbyte : value % 128 + 128 < 256 := by omega
              rw [if_pos hmore, List.take_succ_cons, decode, toNat_ofNat_of_lt hbyte,
                if_pos (by omega), ih (by simpa using hk), Option.map_none]
          · simp at hk

end Base128
