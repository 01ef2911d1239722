import Mathlib.Data.List.Basic

/-!
# Stream ciphers that feed back their own output

Every symbol is masked under a register, and the register moves on by the masked symbol only. The
receiver sees exactly these symbols, so both registers stay equal however the stream is cut: the
pieces of a stream compose, and decryption undoes encryption on every prefix.
-/

namespace Licode

/-- A mask under a register that is fed the masked symbols. -/
structure FeedbackCipher (ρ β : Type*) where
  mask : ρ → β → β
  unmask : ρ → β → β
  feed : ρ → β → ρ
  unmask_mask : ∀ register symbol, unmask register (mask register symbol) = symbol

namespace FeedbackCipher

variable {ρ β : Type*} (cipher : FeedbackCipher ρ β)

def encrypt : ρ → List β → List β × ρ
  | register, [] => ([], register)
  | register, symbol :: rest =>
      let output := cipher.mask register symbol
      let (outputs, final) := encrypt (cipher.feed register output) rest
      (output :: outputs, final)

def decrypt : ρ → List β → List β × ρ
  | register, [] => ([], register)
  | register, symbol :: rest =>
      let output := cipher.unmask register symbol
      let (outputs, final) := decrypt (cipher.feed register symbol) rest
      (output :: outputs, final)

@[simp]
theorem encrypt_nil (register : ρ) : cipher.encrypt register [] = ([], register) := rfl

@[simp]
theorem length_encrypt (register : ρ) (plain : List β) :
    (cipher.encrypt register plain).1.length = plain.length := by
  induction plain generalizing register with
  | nil => rfl
  | cons symbol rest ih =>
      rw [encrypt, List.length_cons, List.length_cons, ih]

theorem encrypt_append (register : ρ) (left right : List β) :
    cipher.encrypt register (left ++ right) =
      ((cipher.encrypt register left).1
          ++ (cipher.encrypt (cipher.encrypt register left).2 right).1,
        (cipher.encrypt (cipher.encrypt register left).2 right).2) := by
  induction left generalizing register with
  | nil => rfl
  | cons symbol rest ih =>
      rw [List.cons_append, encrypt, ih]
      rfl

/-- The receiver's register after a stream is the sender's. -/
theorem decrypt_encrypt (register : ρ) (plain : List β) :
    cipher.decrypt register (cipher.encrypt register plain).1
      = (plain, (cipher.encrypt register plain).2) := by
  induction plain generalizing register with
  | nil => rfl
  | cons symbol rest ih =>
      rw [encrypt, decrypt, ih, cipher.unmask_mask]

theorem encrypt_take (register : ρ) (plain : List β) (count : Nat) :
    (cipher.encrypt register plain).1.take count
      = (cipher.encrypt register (plain.take count)).1 := by
  induction plain generalizing register count with
  | nil => simp
  | cons symbol rest ih =>
      cases count with
      | zero => rfl
      | succ count =>
          rw [encrypt, List.take_succ_cons, ih, List.take_succ_cons, encrypt]

end FeedbackCipher

end Licode
