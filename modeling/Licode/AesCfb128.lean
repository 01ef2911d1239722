import Licode.Lib.FeedbackCipher
import Mathlib.Data.UInt

/-!
# The link cipher

`cAesCfb128Encryptor` and `cAesCfb128Decryptor` run AES in ciphertext feedback of one byte: the
first byte of the enciphered register masks a byte, and the ciphertext byte is shifted into the
register. The block cipher stays a parameter. Nothing below depends on what it computes, since
both directions only ever run it forwards.
-/

namespace Licode

abbrev Block := Vector UInt8 16

/-- Sixteen bytes of a buffer as a key. -/
def toBlock (bytes : List UInt8) : Block := Vector.ofFn fun i => bytes.getD i 0

/-- The members of `cAesCfb128Encryptor`, which are those of `cAesCfb128Decryptor`. `processed`
is not in the source: it counts the bytes since `Init` and names the position in the keystream. -/
structure AesCfb128 where
  key : Block
  iv : Block
  isValid : Bool
  processed : Nat
  deriving DecidableEq

namespace AesCfb128

/-- An object that has not been keyed. -/
def unkeyed : AesCfb128 := ⟨Vector.replicate 16 0, Vector.replicate 16 0, false, 0⟩

/-- `Init`; its assertion that the object is not keyed yet does nothing in a release build. -/
def init (key iv : Block) : AesCfb128 := ⟨key, iv, true, 0⟩

/-- The loop that moves `m_IV` one byte down, and the store of the new last byte. -/
def shiftIn (iv : Block) (byte : UInt8) : Block :=
  Vector.ofFn fun idx => if h : idx.val + 1 < 16 then iv[idx.val + 1] else byte

def feed (c : AesCfb128) (byte : UInt8) : AesCfb128 :=
  { c with iv := shiftIn c.iv byte, processed := c.processed + 1 }

variable (aesCryptEcb : Block → Block → Block)

/-- `cAesCfb128Encryptor::ProcessData`. -/
def encryptData : AesCfb128 → List UInt8 → List UInt8 × AesCfb128
  | c, [] => ([], c)
  | c, plain :: rest =>
      let buffer := aesCryptEcb c.key c.iv
      let encrypted := plain ^^^ buffer[0]
      let (out, c) := encryptData (c.feed encrypted) rest
      (encrypted :: out, c)

/-- `cAesCfb128Decryptor::ProcessData`. -/
def decryptData : AesCfb128 → List UInt8 → List UInt8 × AesCfb128
  | c, [] => ([], c)
  | c, encrypted :: rest =>
      let buffer := aesCryptEcb c.key c.iv
      let (out, c) := decryptData (c.feed encrypted) rest
      ((encrypted ^^^ buffer[0]) :: out, c)

/-- The two classes as one feedback cipher. -/
def cfb8 : FeedbackCipher AesCfb128 UInt8 where
  mask c plain := plain ^^^ (aesCryptEcb c.key c.iv)[0]
  unmask c encrypted := encrypted ^^^ (aesCryptEcb c.key c.iv)[0]
  feed := feed
  unmask_mask c plain := by
    rw [UInt8.xor_assoc, UInt8.xor_self, UInt8.xor_zero]

theorem encryptData_eq (c : AesCfb128) (plain : List UInt8) :
    encryptData aesCryptEcb c plain = (cfb8 aesCryptEcb).encrypt c plain := by
  induction plain generalizing c with
  | nil => rfl
  | cons byte rest ih =>
      rw [encryptData, ih]
      rfl

theorem decryptData_eq (c : AesCfb128) (encrypted : List UInt8) :
    decryptData aesCryptEcb c encrypted = (cfb8 aesCryptEcb).decrypt c encrypted := by
  induction encrypted generalizing c with
  | nil => rfl
  | cons byte rest ih =>
      rw [decryptData, ih]
      rfl

@[simp]
theorem encryptData_nil (c : AesCfb128) : encryptData aesCryptEcb c [] = ([], c) := rfl

@[simp]
theorem length_encryptData (c : AesCfb128) (plain : List UInt8) :
    (encryptData aesCryptEcb c plain).1.length = plain.length := by
  rw [encryptData_eq, FeedbackCipher.length_encrypt]

theorem encryptData_append (c : AesCfb128) (left right : List UInt8) :
    encryptData aesCryptEcb c (left ++ right) =
      ((encryptData aesCryptEcb c left).1
          ++ (encryptData aesCryptEcb (encryptData aesCryptEcb c left).2 right).1,
        (encryptData aesCryptEcb (encryptData aesCryptEcb c left).2 right).2) := by
  simp only [encryptData_eq]
  exact FeedbackCipher.encrypt_append _ c left right

/-- A decryptor in the encryptor's state undoes it and ends in the encryptor's next state. -/
theorem decryptData_encryptData (c : AesCfb128) (plain : List UInt8) :
    decryptData aesCryptEcb c (encryptData aesCryptEcb c plain).1
      = (plain, (encryptData aesCryptEcb c plain).2) := by
  rw [decryptData_eq, encryptData_eq]
  exact FeedbackCipher.decrypt_encrypt _ c plain

theorem encryptData_take (c : AesCfb128) (plain : List UInt8) (count : Nat) :
    (encryptData aesCryptEcb c plain).1.take count
      = (encryptData aesCryptEcb c (plain.take count)).1 := by
  simp only [encryptData_eq]
  exact FeedbackCipher.encrypt_take _ c plain count

theorem encryptData_processed (c : AesCfb128) (plain : List UInt8) :
    (encryptData aesCryptEcb c plain).2.processed = c.processed + plain.length := by
  induction plain generalizing c with
  | nil => rfl
  | cons byte rest ih =>
      rw [encryptData, List.length_cons]
      simp only [ih, feed]
      omega

end AesCfb128

end Licode
