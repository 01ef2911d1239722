import Licode.ByteBuffer
import Licode.Lib.CursorQueue

/-!
# The ring buffer is a bounded queue with a cursor

`Represents b q` ties the three positions and the array to an abstract queue. Under it every
function of the ring returns without a fault, so that all of its assertions hold, and does to the
queue what it is for. The two places where the ring touches its array are `copyIn` and `copyOut`;
the wrap-around branches of the callers are two such accesses in a row.
-/

namespace Licode.ByteBuffer

open CyclicWindow

/-- The array shows the queue: the items are the window that starts at `dataStart` and ends at
`writePos`, and `readPos` is the cursor's place in it. -/
structure Represents {n : Nat} (b : ByteBuffer) (q : CursorQueue UInt8 n) : Prop where
  bufferSize_eq : b.bufferSize = n + 1
  buffer_length : b.buffer.length = n + 1
  dataStart_lt : b.dataStart < n + 1
  readPos_eq : b.readPos = advance (n + 1) b.dataStart q.cursor
  writePos_eq : b.writePos = advance (n + 1) b.dataStart q.items.length
  window_eq : window b.buffer b.dataStart q.items.length = q.items

theorem represents_create (n : Nat) (garbage : Nat → UInt8) :
    Represents (create n garbage) (CursorQueue.empty : CursorQueue UInt8 n) where
  bufferSize_eq := rfl
  buffer_length := by simp [create]
  dataStart_lt := Nat.succ_pos n
  readPos_eq := (advance_zero (Nat.succ_pos n)).symm
  writePos_eq := (advance_zero (Nat.succ_pos n)).symm
  window_eq := window_zero _ _

section Observers

variable {n : Nat} {b : ByteBuffer} {q : CursorQueue UInt8 n}

theorem Represents.readPos_lt (h : Represents b q) : b.readPos < n + 1 := by
  have := q.cursor_le
  have := q.length_le
  rw [h.readPos_eq]
  exact advance_lt h.dataStart_lt (by omega)

theorem Represents.writePos_lt (h : Represents b q) : b.writePos < n + 1 := by
  have := q.length_le
  rw [h.writePos_eq]
  exact advance_lt h.dataStart_lt (by omega)

/-- The cursor sits where the unread part of the window begins. -/
theorem Represents.window_unread (h : Represents b q) :
    window b.buffer b.readPos q.unread.length = q.unread := by
  have hcursor := q.cursor_le
  have hlength := q.length_le
  have hdrop := drop_window (a := q.cursor) (by rw [h.buffer_length]; exact h.dataStart_lt)
    hcursor (by rw [h.buffer_length]; omega)
  rw [h.window_eq, h.buffer_length, ← h.readPos_eq] at hdrop
  rw [q.unread_length, ← hdrop, CursorQueue.unread]

theorem Represents.checkValid (h : Represents b q) : b.checkValid = .ok () := by
  rw [ByteBuffer.checkValid, assert_of (by rw [h.bufferSize_eq]; exact h.readPos_lt),
    Checked.ok_bind, assert_of (by rw [h.bufferSize_eq]; exact h.writePos_lt)]

theorem Represents.getFreeSpace (h : Represents b q) : b.getFreeSpace = .ok q.free := by
  have hsize := h.bufferSize_eq
  have hwrite := h.writePos_lt
  have hstart := h.dataStart_lt
  have hlength := q.length_le
  have hwritePos := h.writePos_eq
  have hend := advance_cases (n + 1) b.dataStart q.items.length
  rw [ByteBuffer.getFreeSpace, h.checkValid, Checked.ok_bind, CursorQueue.free]
  by_cases hwrap : b.writePos ≥ b.dataStart
  · rw [if_pos hwrap, assert_of (by omega), Checked.ok_bind, assert_of (by omega),
      Checked.ok_bind, Checked.pure_eq_ok]
    congr 1
    omega
  · rw [if_neg hwrap, assert_of (by omega), Checked.ok_bind, assert_of (by omega),
      Checked.ok_bind, Checked.pure_eq_ok]
    congr 1
    omega

theorem Represents.getUsedSpace (h : Represents b q) : b.getUsedSpace = .ok q.items.length := by
  have hsize := h.bufferSize_eq
  have hlength := q.length_le
  rw [ByteBuffer.getUsedSpace, h.checkValid, Checked.ok_bind, h.getFreeSpace, Checked.ok_bind,
    CursorQueue.free, assert_of (by omega), Checked.ok_bind, assert_of (by omega),
    Checked.ok_bind, Checked.pure_eq_ok]
  congr 1
  omega

theorem Represents.getReadableSpace (h : Represents b q) :
    b.getReadableSpace = .ok q.unread.length := by
  have hsize := h.bufferSize_eq
  have hread := h.readPos_lt
  have hstart := h.dataStart_lt
  have hcursor := q.cursor_le
  have hlength := q.length_le
  have hwritePos := h.writePos_eq
  have hreadPos := h.readPos_eq
  have hend := advance_cases (n + 1) b.dataStart q.items.length
  have hmid := advance_cases (n + 1) b.dataStart q.cursor
  rw [ByteBuffer.getReadableSpace, h.checkValid, Checked.ok_bind, q.unread_length]
  by_cases hwrap : b.readPos > b.writePos
  · rw [if_pos hwrap, assert_of (by omega), Checked.ok_bind, Checked.pure_eq_ok]
    congr 1
    omega
  · rw [if_neg hwrap, assert_of (by omega), Checked.ok_bind, Checked.pure_eq_ok]
    congr 1
    omega

theorem Represents.canReadBytes (h : Represents b q) (count : Nat) :
    b.canReadBytes count = .ok (decide (count ≤ q.unread.length)) := by
  rw [ByteBuffer.canReadBytes, h.checkValid, Checked.ok_bind, h.getReadableSpace]
  rfl

theorem Represents.canWriteBytes (h : Represents b q) (count : Nat) :
    b.canWriteBytes count = .ok (decide (count ≤ q.free)) := by
  rw [ByteBuffer.canWriteBytes, h.checkValid, Checked.ok_bind, h.getFreeSpace]
  rfl

end Observers

/-! ### The two array accesses -/

section Access

variable {n : Nat} {b : ByteBuffer} {q : CursorQueue UInt8 n}

/-- A block stored in one piece behind the contents is appended to the queue. -/
theorem Represents.copyIn (h : Represents b q) {bytes : List UInt8} (hfree : bytes.length ≤ q.free)
    (hfit : b.writePos + bytes.length ≤ n + 1) :
    b.copyIn b.writePos bytes = .ok { b with buffer := store b.buffer b.writePos bytes }
      ∧ Represents { b with buffer := store b.buffer b.writePos bytes
                            writePos := advance (n + 1) b.writePos bytes.length }
          (q.append bytes hfree) := by
  have hlength := q.length_le
  have hstart := h.dataStart_lt
  have hbuffer := h.buffer_length
  have hwritePos := h.writePos_eq
  have hfree' : bytes.length ≤ n - q.items.length := hfree
  have hitems : (q.append bytes hfree).items = q.items ++ bytes := rfl
  refine ⟨if_pos (by omega), h.bufferSize_eq, ?_, hstart, h.readPos_eq, ?_, ?_⟩
  · rw [← hbuffer]
    exact store_length (by omega)
  · rw [hitems, List.length_append, hwritePos]
    exact advance_advance hstart (by omega)
  · have hend : advance b.buffer.length b.dataStart q.items.length + bytes.length
        ≤ b.buffer.length := by
      rw [hbuffer, ← hwritePos]
      omega
    have hstore := window_store (by omega) (by omega) hend
    rw [hbuffer, ← hwritePos, h.window_eq] at hstore
    rw [hitems, List.length_append]
    exact hstore

/-- A block read in one piece is the next part of the queue. -/
theorem Represents.copyOut (h : Represents b q) {count : Nat} (hcount : count ≤ q.unread.length)
    (hfit : b.readPos + count ≤ n + 1) :
    b.copyOut b.readPos count = .ok (q.unread.take count)
      ∧ Represents { b with readPos := advance (n + 1) b.readPos count }
          (q.advance count hcount) := by
  have hlength := q.length_le
  have hcursor := q.cursor_le
  have hbuffer := h.buffer_length
  have hunread := q.unread_length
  constructor
  · rw [ByteBuffer.copyOut, if_pos (by omega), ← window_of_lt (by omega), ← h.window_unread,
      take_window hcount]
  · refine ⟨h.bufferSize_eq, hbuffer, h.dataStart_lt, ?_, h.writePos_eq, h.window_eq⟩
    change advance (n + 1) b.readPos count = advance (n + 1) b.dataStart (q.cursor + count)
    rw [h.readPos_eq]
    exact advance_advance h.dataStart_lt (by omega)

/-- What reaches the end of the array fills it up, and the rest fits before the data. -/
theorem Represents.writeTillEnd (h : Represents b q) {bytes : List UInt8}
    (hfree : bytes.length ≤ q.free) :
    ∃ first rest b', b.writeTillEnd bytes = .ok (b', rest, first.length) ∧ first ++ rest = bytes
      ∧ b'.writePos + rest.length < n + 1
      ∧ ∀ hfirst, Represents b' (q.append first hfirst) := by
  have hsize := h.bufferSize_eq
  have hwrite := h.writePos_lt
  have hroom : q.free ≤ n := Nat.sub_le _ _
  rw [ByteBuffer.writeTillEnd]
  by_cases hwrap : b.bufferSize - b.writePos ≤ bytes.length
  · have hlen : (bytes.take (b.bufferSize - b.writePos)).length = b.bufferSize - b.writePos :=
      List.length_take_of_le hwrap
    have hfirst : (bytes.take (b.bufferSize - b.writePos)).length ≤ q.free := by omega
    obtain ⟨hcopy, hrep⟩ := h.copyIn hfirst (by omega)
    have hzero : advance (n + 1) b.writePos (bytes.take (b.bufferSize - b.writePos)).length = 0 := by
      unfold advance
      split <;> omega
    rw [hzero] at hrep
    refine ⟨bytes.take (b.bufferSize - b.writePos), bytes.drop (b.bufferSize - b.writePos), _, ?_,
      List.take_append_drop _ _, ?_, fun _ => hrep⟩
    · simp only [if_pos hwrap, if_pos (show b.bufferSize - b.writePos > 0 by omega), hcopy,
        Checked.ok_bind, Checked.pure_eq_ok, hlen]
    · simp only [List.length_drop]
      omega
  · refine ⟨[], bytes, b, ?_, rfl, by omega, fun _ => ?_⟩
    · simp only [if_neg hwrap]
      rfl
    · rwa [CursorQueue.append_nil]

theorem Represents.writeRest (h : Represents b q) {bytes : List UInt8}
    (hfree : bytes.length ≤ q.free) (hinside : b.writePos + bytes.length < n + 1) :
    ∃ b', b.writeRest bytes = .ok (b', bytes.length) ∧ Represents b' (q.append bytes hfree) := by
  rw [ByteBuffer.writeRest]
  by_cases hrest : bytes.length > 0
  · obtain ⟨hcopy, hrep⟩ := h.copyIn hfree (by omega)
    rw [advance, if_pos hinside] at hrep
    exact ⟨_, by simp only [if_pos hrest, hcopy, Checked.ok_bind, Checked.pure_eq_ok], hrep⟩
  · obtain rfl : bytes = [] := List.length_eq_zero_iff.mp (by omega)
    exact ⟨b, rfl, by rwa [CursorQueue.append_nil]⟩

theorem Represents.readTillEnd (h : Represents b q) {count : Nat}
    (hcount : count ≤ q.unread.length) :
    ∃ first rest b', b.readTillEnd count = .ok (q.unread.take first, b', rest)
      ∧ first + rest = count ∧ b'.readPos + rest < n + 1
      ∧ ∀ hfirst, Represents b' (q.advance first hfirst) := by
  have hsize := h.bufferSize_eq
  have hread := h.readPos_lt
  have hroom := q.unread_length_le
  rw [ByteBuffer.readTillEnd]
  by_cases hwrap : b.bufferSize - b.readPos ≤ count
  · have hfirst : b.bufferSize - b.readPos ≤ q.unread.length := by omega
    obtain ⟨hcopy, hrep⟩ := h.copyOut hfirst (by omega)
    have hzero : advance (n + 1) b.readPos (b.bufferSize - b.readPos) = 0 := by
      unfold advance
      split <;> omega
    rw [hzero] at hrep
    refine ⟨b.bufferSize - b.readPos, count - (b.bufferSize - b.readPos), _, ?_, by omega, ?_,
      fun _ => hrep⟩
    · simp only [if_pos hwrap, if_pos (show b.bufferSize - b.readPos > 0 by omega), hcopy,
        Checked.ok_bind, assert_of hwrap, Checked.pure_eq_ok]
    · change 0 + _ < _
      omega
  · refine ⟨0, count, b, ?_, by omega, by omega, fun _ => ?_⟩
    · simp only [if_neg hwrap]
      rfl
    · rwa [CursorQueue.advance_zero]

theorem Represents.readRest (h : Represents b q) {count : Nat} (hcount : count ≤ q.unread.length)
    (hinside : b.readPos + count < n + 1) :
    ∃ b', b.readRest count = .ok (q.unread.take count, b')
      ∧ Represents b' (q.advance count hcount) := by
  rw [ByteBuffer.readRest]
  by_cases hrest : count > 0
  · obtain ⟨hcopy, hrep⟩ := h.copyOut hcount (by omega)
    rw [advance, if_pos hinside] at hrep
    exact ⟨_, by simp only [if_pos hrest, hcopy, Checked.ok_bind, Checked.pure_eq_ok], hrep⟩
  · obtain rfl : count = 0 := by omega
    exact ⟨b, by simp, h⟩

end Access

/-! ### The operations -/

section Operations

variable {n : Nat} {b : ByteBuffer} {q : CursorQueue UInt8 n}

/-- The two parts of a write together. -/
theorem Represents.writeTwice (h : Represents b q) {bytes : List UInt8}
    (hfree : bytes.length ≤ q.free) :
    ∃ b₁ rest first b₂, b.writeTillEnd bytes = .ok (b₁, rest, first)
      ∧ b₁.writeRest rest = .ok (b₂, rest.length) ∧ first + rest.length = bytes.length
      ∧ Represents b₂ (q.append bytes hfree) := by
  obtain ⟨first, rest, b₁, hfirst, rfl, hinside, hrep₁⟩ := h.writeTillEnd hfree
  rw [List.length_append] at hfree
  have hfirstFree : first.length ≤ q.free := by omega
  have hrestFree : rest.length ≤ (q.append first hfirstFree).free := by
    rw [q.free_append]
    omega
  obtain ⟨b₂, hrest, hrep₂⟩ := (hrep₁ hfirstFree).writeRest hrestFree hinside
  refine ⟨b₁, rest, first.length, b₂, hfirst, hrest, (List.length_append).symm, ?_⟩
  rwa [CursorQueue.append_append _ _ _ _ _ (by rw [List.length_append]; omega)] at hrep₂

/-- The two parts of a read together. -/
theorem Represents.readTwice (h : Represents b q) {count : Nat}
    (hcount : count ≤ q.unread.length) :
    ∃ head b₁ rest tail b₂, b.readTillEnd count = .ok (head, b₁, rest)
      ∧ b₁.readRest rest = .ok (tail, b₂) ∧ head ++ tail = q.unread.take count
      ∧ Represents b₂ (q.advance count hcount) := by
  obtain ⟨first, rest, b₁, hfirst, rfl, hinside, hrep₁⟩ := h.readTillEnd hcount
  have hfirstCount : first ≤ q.unread.length := by omega
  have hrestCount : rest ≤ (q.advance first hfirstCount).unread.length := by
    rw [q.unread_advance, List.length_drop]
    omega
  obtain ⟨b₂, hrest, hrep₂⟩ := (hrep₁ hfirstCount).readRest hrestCount hinside
  refine ⟨_, b₁, rest, _, b₂, hfirst, hrest, ?_, ?_⟩
  · rw [q.unread_advance, ← List.take_add]
  · rwa [CursorQueue.advance_advance _ _ _ _ _ hcount] at hrep₂

theorem Represents.write_of_full (h : Represents b q) {bytes : List UInt8}
    (hfull : ¬ bytes.length ≤ q.free) : b.write bytes = .ok (false, b) := by
  rw [ByteBuffer.write, h.checkValid, Checked.ok_bind, h.getFreeSpace, Checked.ok_bind,
    h.getReadableSpace, Checked.ok_bind, if_pos (by omega)]
  rfl

theorem Represents.write (h : Represents b q) {bytes : List UInt8}
    (hfree : bytes.length ≤ q.free) :
    ∃ b', b.write bytes = .ok (true, b') ∧ Represents b' (q.append bytes hfree) := by
  have hsize := h.bufferSize_eq
  have hwrite := h.writePos_lt
  obtain ⟨b₁, rest, first, b₂, hfirst, hrest, hcount, hrep⟩ := h.writeTwice hfree
  have hfreeAfter : (q.append bytes hfree).free = q.free - (first + rest.length) := by
    rw [q.free_append, hcount]
  have hreadableAfter : (q.append bytes hfree).unread.length
      = q.unread.length + (first + rest.length) := by
    rw [q.unread_append, List.length_append, hcount]
  refine ⟨b₂, ?_, hrep⟩
  rw [ByteBuffer.write, h.checkValid, Checked.ok_bind, h.getFreeSpace, Checked.ok_bind,
    h.getReadableSpace, Checked.ok_bind, if_neg (by omega), assert_of (by omega), Checked.ok_bind,
    hfirst, Checked.ok_bind]
  simp only [hrest, Checked.ok_bind, hrep.getFreeSpace, hrep.getReadableSpace,
    assert_of hfreeAfter, assert_of hreadableAfter, Checked.pure_eq_ok]

theorem Represents.writeBuf_of_full (h : Represents b q) {bytes : List UInt8}
    (hfull : ¬ bytes.length ≤ q.free) : b.writeBuf bytes = .ok (false, b) := by
  rw [ByteBuffer.writeBuf, h.checkValid, Checked.ok_bind, h.canWriteBytes, Checked.ok_bind,
    if_pos (by simpa using hfull)]
  rfl

theorem Represents.writeBuf (h : Represents b q) {bytes : List UInt8}
    (hfree : bytes.length ≤ q.free) :
    ∃ b', b.writeBuf bytes = .ok (true, b') ∧ Represents b' (q.append bytes hfree) := by
  have hsize := h.bufferSize_eq
  have hread := h.readPos_lt
  obtain ⟨b₁, rest, first, b₂, hfirst, hrest, -, hrep⟩ := h.writeTwice hfree
  refine ⟨b₂, ?_, hrep⟩
  rw [ByteBuffer.writeBuf, h.checkValid, Checked.ok_bind, h.canWriteBytes, Checked.ok_bind,
    if_neg (by simpa using hfree), assert_of (by omega), Checked.ok_bind, hfirst, Checked.ok_bind]
  simp only [hrest, Checked.ok_bind, Checked.pure_eq_ok]

theorem Represents.readBuf_of_short (h : Represents b q) {count : Nat}
    (hshort : ¬ count ≤ q.unread.length) : b.readBuf count = .ok (none, b) := by
  rw [ByteBuffer.readBuf, h.checkValid, Checked.ok_bind, h.canReadBytes, Checked.ok_bind,
    if_pos (by simpa using hshort)]
  rfl

theorem Represents.readBuf (h : Represents b q) {count : Nat} (hcount : count ≤ q.unread.length) :
    ∃ b', b.readBuf count = .ok (some (q.unread.take count), b')
      ∧ Represents b' (q.advance count hcount) := by
  have hsize := h.bufferSize_eq
  have hread := h.readPos_lt
  obtain ⟨head, b₁, rest, tail, b₂, hhead, htail, hbytes, hrep⟩ := h.readTwice hcount
  refine ⟨b₂, ?_, hrep⟩
  rw [ByteBuffer.readBuf, h.checkValid, Checked.ok_bind, h.canReadBytes, Checked.ok_bind,
    if_neg (by simpa using hcount), assert_of (by omega), Checked.ok_bind, hhead, Checked.ok_bind]
  simp only [htail, Checked.ok_bind, hbytes, Checked.pure_eq_ok]

theorem readString_eq_readBuf (b : ByteBuffer) (count : Nat) :
    b.readString count = b.readBuf count := rfl

theorem Represents.skipRead_of_short (h : Represents b q) {count : Nat}
    (hshort : ¬ count ≤ q.unread.length) : b.skipRead count = .ok (false, b) := by
  rw [ByteBuffer.skipRead, h.checkValid, Checked.ok_bind, h.canReadBytes, Checked.ok_bind,
    if_pos (by simpa using hshort)]
  rfl

theorem Represents.skipRead (h : Represents b q) {count : Nat} (hcount : count ≤ q.unread.length) :
    ∃ b', b.skipRead count = .ok (true, b') ∧ Represents b' (q.advance count hcount) := by
  have hlength := q.length_le
  have hcursor := q.cursor_le
  have hunread := q.unread_length
  have hsize := h.bufferSize_eq
  have hrep : Represents { b with readPos := advance (n + 1) b.readPos count }
      (q.advance count hcount) := by
    refine ⟨h.bufferSize_eq, h.buffer_length, h.dataStart_lt, ?_, h.writePos_eq, h.window_eq⟩
    change advance (n + 1) b.readPos count = advance (n + 1) b.dataStart (q.cursor + count)
    rw [h.readPos_eq]
    exact advance_advance h.dataStart_lt (by omega)
  refine ⟨_, ?_, hrep⟩
  rw [ByteBuffer.skipRead, h.checkValid, Checked.ok_bind, h.canReadBytes, Checked.ok_bind,
    if_neg (by simpa using hcount), advanceReadPos, h.checkValid, Checked.ok_bind, hsize]
  by_cases hwrap : b.readPos + count ≥ n + 1
  · rw [if_pos hwrap, advance, if_neg (by omega)]
    rfl
  · rw [if_neg hwrap, advance, if_pos (by omega)]
    rfl

theorem Represents.readAll (h : Represents b q) (data : List UInt8) :
    ∃ b', b.readAll data = .ok (q.unread, b')
      ∧ Represents b' (q.advance q.unread.length le_rfl) := by
  obtain ⟨b', hread, hrep⟩ := h.readBuf (le_refl q.unread.length)
  refine ⟨b', ?_, hrep⟩
  rw [ByteBuffer.readAll, h.checkValid, Checked.ok_bind, h.getReadableSpace, Checked.ok_bind,
    readString_eq_readBuf, hread, List.take_length]
  rfl

theorem Represents.commitRead (h : Represents b q) :
    ∃ b', b.commitRead = .ok b' ∧ Represents b' q.commit := by
  have hlength := q.length_le
  have hcursor := q.cursor_le
  have hunread := q.unread_length
  refine ⟨{ b with dataStart := b.readPos }, ?_, h.bufferSize_eq, h.buffer_length, h.readPos_lt,
    ?_, ?_, h.window_unread⟩
  · rw [ByteBuffer.commitRead, h.checkValid]
    rfl
  · exact (advance_zero h.readPos_lt).symm
  · change b.writePos = advance (n + 1) b.readPos q.unread.length
    rw [h.writePos_eq, h.readPos_eq, advance_advance h.dataStart_lt (by omega)]
    congr 1
    omega

theorem Represents.resetRead (h : Represents b q) :
    ∃ b', b.resetRead = .ok b' ∧ Represents b' q.reset := by
  refine ⟨{ b with readPos := b.dataStart }, ?_, h.bufferSize_eq, h.buffer_length,
    h.dataStart_lt, (advance_zero h.dataStart_lt).symm, h.writePos_eq, h.window_eq⟩
  rw [ByteBuffer.resetRead, h.checkValid]
  rfl

theorem Represents.clearAll (h : Represents b q) :
    Represents b.clearAll (CursorQueue.empty : CursorQueue UInt8 n) where
  bufferSize_eq := h.bufferSize_eq
  buffer_length := h.buffer_length
  dataStart_lt := Nat.succ_pos n
  readPos_eq := (advance_zero (Nat.succ_pos n)).symm
  writePos_eq := (advance_zero (Nat.succ_pos n)).symm
  window_eq := window_zero _ _

theorem Represents.readAgain (h : Represents b q) (out : List UInt8) :
    b.readAgain out = .ok (out ++ q.seen) := by
  have hlength := q.length_le
  have hcursor := q.cursor_le
  have hsize := h.bufferSize_eq
  have hbuffer := h.buffer_length
  have hstart := h.dataStart_lt
  have hreadPos := h.readPos_eq
  have hmid := advance_cases (n + 1) b.dataStart q.cursor
  have hseen : q.seen = window b.buffer b.dataStart q.cursor := by
    rw [CursorQueue.seen, ← take_window hcursor, h.window_eq]
  rw [ByteBuffer.readAgain, h.checkValid, Checked.ok_bind, hseen]
  by_cases hwrap : b.readPos < b.dataStart
  · rw [if_pos hwrap, assert_of (by omega), Checked.ok_bind, ByteBuffer.copyOut, if_pos (by omega)]
    simp only [Checked.ok_bind, Checked.pure_eq_ok]
    rw [assert_of (by omega), Checked.ok_bind, ByteBuffer.copyOut, if_pos (by omega), Checked.ok_bind,
      window_of_ge (by omega) (by omega) (by omega),
      List.take_of_length_le (by rw [List.length_drop]; omega)]
    congr 1
    simp only [List.append_assoc, List.drop_zero]
    congr 3
    omega
  · rw [if_neg hwrap, Checked.pure_eq_ok, Checked.ok_bind]
    simp only
    rw [assert_of (by omega), Checked.ok_bind, ByteBuffer.copyOut, if_pos (by omega), Checked.ok_bind,
      window_of_lt (by omega), Checked.pure_eq_ok]
    congr 4
    omega

/-- The copying loop moves the bytes it is asked for, whatever way they are cut into pieces. -/
theorem Represents.readToByteBufferLoop {m : Nat} :
    ∀ {fuel numBytes : Nat} {src dst : ByteBuffer} {q : CursorQueue UInt8 n}
      {d : CursorQueue UInt8 m} (_ : Represents src q) (_ : Represents dst d)
      (hread : numBytes ≤ q.unread.length) (hwrite : (q.unread.take numBytes).length ≤ d.free),
      numBytes ≤ fuel →
      ∃ src' dst', ByteBuffer.readToByteBufferLoop fuel src dst numBytes = .ok (src', dst')
        ∧ Represents src' (q.advance numBytes hread)
        ∧ Represents dst' (d.append (q.unread.take numBytes) hwrite) := by
  intro fuel
  induction fuel with
  | zero =>
      intro numBytes src dst q d hsrc hdst hread hwrite hfuel
      obtain rfl : numBytes = 0 := by omega
      exact ⟨src, dst, rfl, hsrc, by simpa using hdst⟩
  | succ fuel ih =>
      intro numBytes src dst q d hsrc hdst hread hwrite hfuel
      cases numBytes with
      | zero => exact ⟨src, dst, by rfl, hsrc, by simpa using hdst⟩
      | succ numBytes =>
          rw [List.length_take_of_le hread] at hwrite
          rw [ByteBuffer.readToByteBufferLoop]
          -- one piece, at least a byte long
          generalize hnum : (if numBytes + 1 > 1024 then 1024 else numBytes + 1) = num
          have hnumLe : num ≤ numBytes + 1 := by
            split at hnum <;> omega
          have hnumPos : 0 < num := by
            split at hnum <;> omega
          have hnumRead : num ≤ q.unread.length := by omega
          have hlen : (q.unread.take num).length = num := List.length_take_of_le hnumRead
          have hnumWrite : (q.unread.take num).length ≤ d.free := by omega
          obtain ⟨src₁, hreadBuf, hsrc₁⟩ := hsrc.readBuf hnumRead
          obtain ⟨dst₁, hwritten, hdst₁⟩ := hdst.write hnumWrite
          have hunread : (q.advance num hnumRead).unread = q.unread.drop num := q.unread_advance _ _
          have htake : q.unread.take num ++ (q.unread.drop num).take (numBytes + 1 - num)
              = q.unread.take (numBytes + 1) := by
            rw [← List.take_add]
            congr 1
            omega
          have hread₁ : numBytes + 1 - num ≤ (q.advance num hnumRead).unread.length := by
            rw [hunread, List.length_drop]
            omega
          obtain ⟨src₂, dst₂, hloop, hsrc₂, hdst₂⟩ := ih hsrc₁ hdst₁ hread₁ (by
            rw [d.free_append, hlen, List.length_take_of_le hread₁]
            omega) (by omega)
          refine ⟨src₂, dst₂, ?_, ?_, ?_⟩
          · simp only [hreadBuf, Checked.ok_bind, Option.isSome_some, verify_true,
              Option.getD_some, hwritten, assert_of hnumLe, hloop]
          · rw [CursorQueue.advance_advance _ _ _ _ _ (by omega)] at hsrc₂
            convert hsrc₂ using 2
            omega
          · simp only [hunread] at hdst₂
            rw [CursorQueue.append_append _ _ _ _ _
              (by rw [htake, List.length_take_of_le hread]; exact hwrite)] at hdst₂
            simpa only [htake] using hdst₂

theorem Represents.readToByteBuffer {m : Nat} (h : Represents b q) {dst : ByteBuffer}
    {d : CursorQueue UInt8 m} (hdst : Represents dst d) {numBytes : Nat}
    (hread : numBytes ≤ q.unread.length) (hwrite : (q.unread.take numBytes).length ≤ d.free) :
    ∃ b' dst', b.readToByteBuffer dst numBytes = .ok (true, b', dst')
      ∧ Represents b' (q.advance numBytes hread)
      ∧ Represents dst' (d.append (q.unread.take numBytes) hwrite) := by
  obtain ⟨b', dst', hloop, hsrc, hdst'⟩ := h.readToByteBufferLoop hdst hread hwrite le_rfl
  rw [List.length_take_of_le hread] at hwrite
  refine ⟨b', dst', ?_, hsrc, hdst'⟩
  rw [ByteBuffer.readToByteBuffer, hdst.canWriteBytes, Checked.ok_bind,
    if_neg (by simpa using hwrite), h.canReadBytes, Checked.ok_bind,
    if_neg (by simpa using hread), hloop]
  rfl

theorem Represents.readToByteBuffer_of_not {m : Nat} (h : Represents b q) {dst : ByteBuffer}
    {d : CursorQueue UInt8 m} (hdst : Represents dst d) {numBytes : Nat}
    (hnot : ¬ (numBytes ≤ q.unread.length ∧ numBytes ≤ d.free)) :
    b.readToByteBuffer dst numBytes = .ok (false, b, dst) := by
  rw [ByteBuffer.readToByteBuffer, hdst.canWriteBytes, Checked.ok_bind]
  by_cases hwrite : numBytes ≤ d.free
  · rw [if_neg (by simpa using hwrite), h.canReadBytes, Checked.ok_bind,
      if_pos (by simpa using fun hread => hnot ⟨hread, hwrite⟩)]
    rfl
  · rw [if_pos (by simpa using hwrite)]
    rfl

end Operations

end Licode.ByteBuffer
