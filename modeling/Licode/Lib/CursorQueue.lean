import Mathlib.Data.List.Basic

/-!
# A bounded queue with a read cursor

What a buffered byte stream is for, apart from how it is stored: items arrive at the back, a cursor
walks over them, and the items behind the cursor stay until they are committed, so that reading can
be taken back. The bounds are part of the type.
-/

@[ext]
structure CursorQueue (α : Type*) (capacity : Nat) where
  items : List α
  cursor : Nat
  cursor_le : cursor ≤ items.length
  length_le : items.length ≤ capacity

namespace CursorQueue

variable {α : Type*} {capacity : Nat}

def empty : CursorQueue α capacity where
  items := []
  cursor := 0
  cursor_le := Nat.le_refl _
  length_le := Nat.zero_le _

/-- The items the cursor has not reached. -/
def unread (q : CursorQueue α capacity) : List α := q.items.drop q.cursor

/-- The items read and not yet committed. -/
def seen (q : CursorQueue α capacity) : List α := q.items.take q.cursor

def free (q : CursorQueue α capacity) : Nat := capacity - q.items.length

def append (q : CursorQueue α capacity) (xs : List α) (hfit : xs.length ≤ q.free) :
    CursorQueue α capacity where
  items := q.items ++ xs
  cursor := q.cursor
  cursor_le := by
    have := q.cursor_le
    rw [List.length_append]
    omega
  length_le := by
    have := q.length_le
    rw [List.length_append]
    unfold free at hfit
    omega

def advance (q : CursorQueue α capacity) (count : Nat) (hcount : count ≤ q.unread.length) :
    CursorQueue α capacity where
  items := q.items
  cursor := q.cursor + count
  cursor_le := by
    have := q.cursor_le
    rw [unread, List.length_drop] at hcount
    omega
  length_le := q.length_le

/-- Drop what has been read. -/
def commit (q : CursorQueue α capacity) : CursorQueue α capacity where
  items := q.unread
  cursor := 0
  cursor_le := Nat.zero_le _
  length_le := by
    have := q.length_le
    rw [unread, List.length_drop]
    omega

/-- Take reading back. -/
def reset (q : CursorQueue α capacity) : CursorQueue α capacity where
  items := q.items
  cursor := 0
  cursor_le := Nat.zero_le _
  length_le := q.length_le

variable (q : CursorQueue α capacity)

theorem unread_length : q.unread.length = q.items.length - q.cursor := by
  simp [unread]

theorem unread_length_le : q.unread.length ≤ capacity := by
  have := q.length_le
  rw [unread_length]
  omega

@[simp]
theorem empty_unread : (empty : CursorQueue α capacity).unread = [] := rfl

@[simp]
theorem unread_append (xs : List α) (hfit : xs.length ≤ q.free) :
    (q.append xs hfit).unread = q.unread ++ xs := by
  rw [unread, append, List.drop_append_of_le_length q.cursor_le, unread]

@[simp]
theorem unread_advance (count : Nat) (hcount : count ≤ q.unread.length) :
    (q.advance count hcount).unread = q.unread.drop count := by
  rw [unread, advance, unread, List.drop_drop]

@[simp]
theorem unread_commit : q.commit.unread = q.unread := by
  rw [unread, commit, List.drop_zero]

@[simp]
theorem unread_reset : q.reset.unread = q.items := by
  rw [unread, reset, List.drop_zero]

theorem free_append (xs : List α) (hfit : xs.length ≤ q.free) :
    (q.append xs hfit).free = q.free - xs.length := by
  simp only [free, append, List.length_append]
  omega

theorem append_append (xs ys : List α) (hxs : xs.length ≤ q.free)
    (hys : ys.length ≤ (q.append xs hxs).free) (hfit : (xs ++ ys).length ≤ q.free) :
    (q.append xs hxs).append ys hys = q.append (xs ++ ys) hfit := by
  ext1
  · exact List.append_assoc q.items xs ys
  · rfl

theorem advance_advance (a b : Nat) (ha : a ≤ q.unread.length)
    (hb : b ≤ (q.advance a ha).unread.length) (hab : a + b ≤ q.unread.length) :
    (q.advance a ha).advance b hb = q.advance (a + b) hab := by
  ext1
  · rfl
  · exact Nat.add_assoc q.cursor a b

@[simp]
theorem append_nil (hfit : ([] : List α).length ≤ q.free) : q.append [] hfit = q := by
  ext1
  · exact List.append_nil q.items
  · rfl

@[simp]
theorem advance_zero (hcount : 0 ≤ q.unread.length) : q.advance 0 hcount = q := rfl

end CursorQueue
