import Licode.ByteBufferRefinement

/-!
# Runs of the ring buffer

A client of the ring calls its functions in any order. `Op.Meets` says what one call must do to the
bytes written and not committed and to the cursor in them; the theorem is that a run of any length,
from a fresh ring of any capacity, goes through without a fault and meets it call by call.
-/

namespace Licode.ByteBuffer

/-- One call on a ring. The destination of `readToByteBuffer` is another ring in any valid state. -/
inductive Op where
  | write (bytes : List UInt8)
  | writeBuf (bytes : List UInt8)
  | readBuf (count : Nat)
  | readString (count : Nat)
  | readAll (data : List UInt8)
  | skipRead (count : Nat)
  | readToByteBuffer {m : Nat} (dst : ByteBuffer) (d : CursorQueue UInt8 m)
      (hdst : Represents dst d) (numBytes : Nat)
  | commitRead
  | resetRead
  | readAgain (out : List UInt8)

/-- What a call hands back to its caller. -/
inductive Output where
  | done (ok : Bool)
  | bytes (result : Option (List UInt8))
  | string (result : List UInt8)
  | copied (ok : Bool) (dst : ByteBuffer)
  | nothing

def exec (b : ByteBuffer) : Op → Checked (Output × ByteBuffer)
  | .write bytes => do
      let (ok, b) ← b.write bytes
      return (.done ok, b)
  | .writeBuf bytes => do
      let (ok, b) ← b.writeBuf bytes
      return (.done ok, b)
  | .readBuf count => do
      let (result, b) ← b.readBuf count
      return (.bytes result, b)
  | .readString count => do
      let (result, b) ← b.readString count
      return (.bytes result, b)
  | .readAll data => do
      let (result, b) ← b.readAll data
      return (.string result, b)
  | .skipRead count => do
      let (ok, b) ← b.skipRead count
      return (.done ok, b)
  | .readToByteBuffer dst _ _ numBytes => do
      let (ok, b, dst) ← b.readToByteBuffer dst numBytes
      return (.copied ok dst, b)
  | .commitRead => do
      return (.nothing, ← b.commitRead)
  | .resetRead => do
      return (.nothing, ← b.resetRead)
  | .readAgain out => do
      return (.string (← b.readAgain out), b)

def run (b : ByteBuffer) : List Op → Checked (List Output × ByteBuffer)
  | [] => .ok ([], b)
  | op :: ops => do
      let (out, b) ← b.exec op
      let (outs, b) ← run b ops
      return (out :: outs, b)

section Meets

variable {n : Nat}

/-- A write succeeds iff the bytes fit, and then appends exactly them; else nothing changes. -/
def WriteMeets (bytes : List UInt8) (b : ByteBuffer) (q : CursorQueue UInt8 n) (out : Output)
    (b' : ByteBuffer) (q' : CursorQueue UInt8 n) : Prop :=
  (bytes.length ≤ n - q.items.length ∧ out = .done true
      ∧ q'.items = q.items ++ bytes ∧ q'.cursor = q.cursor)
    ∨ (n - q.items.length < bytes.length ∧ out = .done false ∧ b' = b ∧ q' = q)

/-- A read succeeds iff enough unread bytes exist, and then moves the cursor over the next ones,
which are what `success` is given; else nothing changes. -/
def ReadMeets (count : Nat) (success : List UInt8 → Output) (failure : Output) (b : ByteBuffer)
    (q : CursorQueue UInt8 n) (out : Output) (b' : ByteBuffer) (q' : CursorQueue UInt8 n) : Prop :=
  (count ≤ q.items.length - q.cursor ∧ out = success ((q.items.drop q.cursor).take count)
      ∧ q'.items = q.items ∧ q'.cursor = q.cursor + count)
    ∨ (q.items.length - q.cursor < count ∧ out = failure ∧ b' = b ∧ q' = q)

/-- What one call does to the bytes written and not committed, `q.items`, and to the cursor. -/
def Op.Meets (b : ByteBuffer) (q : CursorQueue UInt8 n) (out : Output) (b' : ByteBuffer)
    (q' : CursorQueue UInt8 n) : Op → Prop
  | .write bytes => WriteMeets bytes b q out b' q'
  | .writeBuf bytes => WriteMeets bytes b q out b' q'
  | .readBuf count => ReadMeets count (fun l => .bytes (some l)) (.bytes none) b q out b' q'
  | .readString count => ReadMeets count (fun l => .bytes (some l)) (.bytes none) b q out b' q'
  | .readAll _ => out = .string (q.items.drop q.cursor) ∧ q'.items = q.items
      ∧ q'.cursor = q.items.length
  | .skipRead count => ReadMeets count (fun _ => .done true) (.done false) b q out b' q'
  | .readToByteBuffer (m := m) dst d _ numBytes =>
      (numBytes ≤ q.items.length - q.cursor ∧ numBytes ≤ m - d.items.length
        ∧ (∃ (dst' : ByteBuffer) (d' : CursorQueue UInt8 m), out = .copied true dst'
            ∧ Represents dst' d'
            ∧ d'.items = d.items ++ (q.items.drop q.cursor).take numBytes ∧ d'.cursor = d.cursor)
        ∧ q'.items = q.items ∧ q'.cursor = q.cursor + numBytes)
      ∨ (¬ (numBytes ≤ q.items.length - q.cursor ∧ numBytes ≤ m - d.items.length)
        ∧ out = .copied false dst ∧ b' = b ∧ q' = q)
  | .commitRead => out = .nothing ∧ q'.items = q.items.drop q.cursor ∧ q'.cursor = 0
  | .resetRead => out = .nothing ∧ q'.items = q.items ∧ q'.cursor = 0
  | .readAgain out₀ => out = .string (out₀ ++ q.items.take q.cursor) ∧ b' = b ∧ q' = q

/-- A run meets the specification when each of its calls does. -/
inductive RunMeets : ByteBuffer → CursorQueue UInt8 n → List Op → List Output → ByteBuffer →
    CursorQueue UInt8 n → Prop where
  | nil (b : ByteBuffer) (q : CursorQueue UInt8 n) : RunMeets b q [] [] b q
  | cons {b b' b'' : ByteBuffer} {q q' q'' : CursorQueue UInt8 n} {op : Op} {ops : List Op}
      {out : Output} {outs : List Output} (hop : op.Meets b q out b' q')
      (hops : RunMeets b' q' ops outs b'' q'') : RunMeets b q (op :: ops) (out :: outs) b'' q''

variable {b : ByteBuffer} {q : CursorQueue UInt8 n}

private theorem exec_write_meets (h : Represents b q) (bytes : List UInt8)
    {f : ByteBuffer → Checked (Bool × ByteBuffer)}
    (hok : ∀ hfree : bytes.length ≤ q.free,
      ∃ b', f b = .ok (true, b') ∧ Represents b' (q.append bytes hfree))
    (hfull : ¬ bytes.length ≤ q.free → f b = .ok (false, b)) :
    ∃ out b', ∃ q' : CursorQueue UInt8 n,
      (f b >>= fun r => pure (Output.done r.1, r.2)) = .ok (out, b')
        ∧ WriteMeets bytes b q out b' q' ∧ Represents b' q' := by
  by_cases hfree : bytes.length ≤ q.free
  · obtain ⟨b', hwrite, hrep⟩ := hok hfree
    exact ⟨.done true, b', q.append bytes hfree, by rw [hwrite]; rfl, Or.inl ⟨hfree, rfl, rfl, rfl⟩, hrep⟩
  · exact ⟨.done false, b, q, by rw [hfull hfree]; rfl,
      Or.inr ⟨Nat.lt_of_not_le hfree, rfl, rfl, rfl⟩, h⟩

private theorem exec_readBuf_meets (h : Represents b q) (count : Nat) :
    ∃ out b', ∃ q' : CursorQueue UInt8 n,
      (b.readBuf count >>= fun r => pure (Output.bytes r.1, r.2)) = .ok (out, b')
        ∧ ReadMeets count (fun l => .bytes (some l)) (.bytes none) b q out b' q'
        ∧ Represents b' q' := by
  have hunread := q.unread_length
  by_cases hcount : count ≤ q.unread.length
  · obtain ⟨b', hread, hrep⟩ := h.readBuf hcount
    exact ⟨_, b', q.advance count hcount, by rw [hread]; rfl,
      Or.inl ⟨by omega, rfl, rfl, rfl⟩, hrep⟩
  · exact ⟨_, b, q, by rw [h.readBuf_of_short hcount]; rfl,
      Or.inr ⟨by omega, rfl, rfl, rfl⟩, h⟩

/-- One call, from any state that represents a queue. -/
theorem exec_meets (h : Represents b q) (op : Op) :
    ∃ out b', ∃ q' : CursorQueue UInt8 n, b.exec op = .ok (out, b')
      ∧ op.Meets b q out b' q' ∧ Represents b' q' := by
  have hunread := q.unread_length
  have hcursor := q.cursor_le
  cases op with
  | write bytes =>
      exact exec_write_meets h bytes (f := fun b => b.write bytes) (fun hfree => h.write hfree)
        (fun hfull => h.write_of_full hfull)
  | writeBuf bytes =>
      exact exec_write_meets h bytes (f := fun b => b.writeBuf bytes)
        (fun hfree => h.writeBuf hfree) (fun hfull => h.writeBuf_of_full hfull)
  | readBuf count => exact exec_readBuf_meets h count
  | readString count => exact exec_readBuf_meets h count
  | readAll data =>
      obtain ⟨b', hread, hrep⟩ := h.readAll data
      refine ⟨_, b', q.advance q.unread.length le_rfl, by rw [exec, hread]; rfl, ⟨rfl, rfl, ?_⟩, hrep⟩
      change q.cursor + q.unread.length = q.items.length
      omega
  | skipRead count =>
      by_cases hcount : count ≤ q.unread.length
      · obtain ⟨b', hskip, hrep⟩ := h.skipRead hcount
        exact ⟨_, b', q.advance count hcount, by rw [exec, hskip]; rfl,
          Or.inl ⟨by omega, rfl, rfl, rfl⟩, hrep⟩
      · exact ⟨_, b, q, by rw [exec, h.skipRead_of_short hcount]; rfl,
          Or.inr ⟨by omega, rfl, rfl, rfl⟩, h⟩
  | readToByteBuffer dst d hdst numBytes =>
      by_cases hboth : numBytes ≤ q.unread.length ∧ numBytes ≤ d.free
      · obtain ⟨hread, hwrite⟩ := hboth
        obtain ⟨b', dst', hcopy, hrep, hrepDst⟩ := h.readToByteBuffer hdst hread
          (by rw [List.length_take_of_le hread]; exact hwrite)
        exact ⟨_, b', q.advance numBytes hread, by rw [exec, hcopy]; rfl,
          Or.inl ⟨by omega, hwrite, ⟨dst', _, rfl, hrepDst, rfl, rfl⟩, rfl, rfl⟩, hrep⟩
      · refine ⟨_, b, q, by rw [exec, h.readToByteBuffer_of_not hdst hboth]; rfl,
          Or.inr ⟨?_, rfl, rfl, rfl⟩, h⟩
        rintro ⟨hread, hwrite⟩
        exact hboth ⟨by omega, hwrite⟩
  | commitRead =>
      obtain ⟨b', hcommit, hrep⟩ := h.commitRead
      exact ⟨_, b', q.commit, by rw [exec, hcommit]; rfl, ⟨rfl, rfl, rfl⟩, hrep⟩
  | resetRead =>
      obtain ⟨b', hreset, hrep⟩ := h.resetRead
      exact ⟨_, b', q.reset, by rw [exec, hreset]; rfl, ⟨rfl, rfl, rfl⟩, hrep⟩
  | readAgain out =>
      exact ⟨_, b, q, by rw [exec, h.readAgain]; rfl, ⟨rfl, rfl, rfl⟩, h⟩

/-- Any run from a state that represents a queue. -/
theorem run_meets (h : Represents b q) (ops : List Op) :
    ∃ outs b', ∃ q' : CursorQueue UInt8 n, b.run ops = .ok (outs, b')
      ∧ RunMeets b q ops outs b' q' ∧ Represents b' q' := by
  induction ops generalizing b q with
  | nil => exact ⟨[], b, q, rfl, .nil b q, h⟩
  | cons op ops ih =>
      obtain ⟨out, b₁, q₁, hexec, hmeets, hrep₁⟩ := exec_meets h op
      obtain ⟨outs, b₂, q₂, hrun, hmeetsAll, hrep₂⟩ := ih hrep₁
      refine ⟨out :: outs, b₂, q₂, ?_, .cons hmeets hmeetsAll, hrep₂⟩
      simp only [run, hexec, Checked.ok_bind, hrun, Checked.pure_eq_ok]

end Meets

/-- **The ring is a queue with a cursor.** Every run from a fresh ring of any capacity returns
without a failed assertion or an access outside the array, each call does what `Op.Meets` says, and
afterwards the three sizes the ring reports are those of the queue. -/
theorem run_create_refines (n : Nat) (garbage : Nat → UInt8) (ops : List Op) :
    ∃ outs b, ∃ q : CursorQueue UInt8 n, (create n garbage).run ops = .ok (outs, b)
      ∧ RunMeets (create n garbage) CursorQueue.empty ops outs b q
      ∧ q.cursor ≤ q.items.length ∧ q.items.length ≤ n
      ∧ b.getUsedSpace = .ok q.items.length
      ∧ b.getFreeSpace = .ok (n - q.items.length)
      ∧ b.getReadableSpace = .ok (q.items.length - q.cursor)
      ∧ b.dataStart < b.bufferSize ∧ b.writePos < b.bufferSize ∧ b.readPos < b.bufferSize := by
  obtain ⟨outs, b, q, hrun, hmeets, hrep⟩ := run_meets (represents_create n garbage) ops
  have hsize := hrep.bufferSize_eq
  refine ⟨outs, b, q, hrun, hmeets, q.cursor_le, q.length_le, hrep.getUsedSpace,
    hrep.getFreeSpace, ?_, ?_, ?_, ?_⟩
  · rw [hrep.getReadableSpace, q.unread_length]
  · rw [hsize]
    exact hrep.dataStart_lt
  · rw [hsize]
    exact hrep.writePos_lt
  · rw [hsize]
    exact hrep.readPos_lt

end Licode.ByteBuffer
