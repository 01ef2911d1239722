import Licode.Media.RtpExtensions

/-!
# Which bytes of a header extension are overwritten

A block of header extensions has elements, each behind a byte with its id and length, and padding bytes in any place. The
loop of `processRtpExtensions` takes a padding byte for the header of an element with one byte, and the CSRCs of a packet
for its block. So it does what it is for just if it comes to the header of each element of abs-send-time nevertheless,
and to no other byte that looks like one.
-/

namespace Licode.Media

open Overlay Rtcp Sdp

/-! ### Runs of the loop -/

section Runs

variable (timed : Nat → Prop) [DecidablePred timed] (clock : Nat → UInt32) (last : Nat)

/-- The loop goes from the bytes at an offset to others. -/
inductive ExtensionRun : Nat → Nat → List UInt8 → List UInt8 → Prop
  | done {turn offset : Nat} {buf : List UInt8} (hend : ¬ offset < last) : ExtensionRun turn offset buf buf
  | turn {turn offset : Nat} {buf buf' : List UInt8} (hmore : offset < last) (hinside : ExtensionInside timed buf offset)
      (hrun : ExtensionRun (turn + 1) (behindExtension buf offset) (stamped timed (clock turn) buf offset) buf') :
      ExtensionRun turn offset buf buf'

variable {timed clock last}

/-- The loop leaves alone what is before it, and the byte that it has come to. -/
theorem ExtensionRun.unchanged {turn offset : Nat} {buf buf' : List UInt8}
    (h : ExtensionRun timed clock last turn offset buf buf') {i : Nat} (hi : i ≤ offset) : buf'[i]? = buf[i]? := by
  induction h with
  | done => rfl
  | turn _ _ _ ih =>
      rw [ih (by rw [behindExtension]; omega), stamped]
      split_ifs
      · exact (sameOutside_write _ _ _).2 i (.inl (by omega))
      · rfl

theorem ExtensionRun.take_eq {turn offset : Nat} {buf buf' : List UInt8}
    (h : ExtensionRun timed clock last turn offset buf buf') : buf'.take offset = buf.take offset := by
  apply List.ext_getElem?
  intro i
  rw [List.getElem?_take, List.getElem?_take]
  split_ifs with hi
  · exact h.unchanged hi.le
  · rfl

theorem ExtensionRun.of_end {turn offset : Nat} {buf buf' : List UInt8}
    (h : ExtensionRun timed clock last turn offset buf buf') (hend : ¬ offset < last) : buf' = buf := by
  cases h with
  | done => rfl
  | turn hmore => exact absurd hmore hend

theorem ExtensionRun.of_more {turn offset : Nat} {buf buf' : List UInt8}
    (h : ExtensionRun timed clock last turn offset buf buf') (hmore : offset < last) :
    ExtensionInside timed buf offset ∧ ExtensionRun timed clock last (turn + 1) (behindExtension buf offset)
      (stamped timed (clock turn) buf offset) buf' := by
  cases h with
  | done hend => exact absurd hmore hend
  | turn _ hinside hrun => exact ⟨hinside, hrun⟩

variable {extMap : ExtensionArray}

/-- The loop of the source runs as the relation says. -/
theorem processExtensions_eq_ok_iff (htimed : extMap.Says timed) {size fuel turn : Nat} {currentPlace : UInt16}
    {offset : Nat}
    {buf buf' : List UInt8} (hplace : LoopPlace fuel currentPlace offset buf) :
    processExtensions extMap clock size fuel turn currentPlace offset buf = .ok buf'
      ↔ ExtensionRun timed clock (15 + size) turn offset buf buf' := by
  induction fuel generalizing turn currentPlace offset buf with
  | zero => exact absurd hplace.turns (Nat.lt_irrefl 0)
  | succ fuel ih =>
      have hoffset := hplace.place
      by_cases hmore : currentPlace.toNat < size
      · have hbefore : offset < 15 + size := by omega
        by_cases hinside : ExtensionInside timed buf offset
        · rw [processExtensions_of_inside htimed hmore hinside, ih (hplace.next hinside.byte _)]
          exact ⟨fun h => .turn hbefore hinside h, fun h => (h.of_more hbefore).2⟩
        · rw [processExtensions_of_outside htimed hmore hinside]
          exact iff_of_false nofun fun h => hinside (h.of_more hbefore).1
      · have hend : ¬ offset < 15 + size := by omega
        rw [processExtensions, if_neg hmore]
        constructor
        · intro h
          cases h
          exact .done hend
        · intro h
          rw [h.of_end hend]
          rfl

end Runs

/-! ### Packets in pieces -/

/-- An element of a block with one-byte headers. -/
structure Element where
  id : Nat
  data : List UInt8
  id_pos : 1 ≤ id
  id_le : id ≤ 9
  data_pos : 1 ≤ data.length
  data_le : data.length ≤ 16

def Element.header (element : Element) : UInt8 := .ofNat (element.id * 16 + (element.data.length - 1))

theorem Element.toNat_header (element : Element) :
    element.header.toNat = element.id * 16 + (element.data.length - 1) := by
  have hid := element.id_le
  have hdata := element.data_le
  rw [header, UInt8.toNat_ofNat', Nat.mod_eq_of_lt (by omega)]

theorem Element.header_id (element : Element) : element.header.toNat / 16 = element.id := by
  have hdata := element.data_le
  rw [toNat_header]
  omega

theorem Element.header_length (element : Element) : element.header.toNat % 16 + 1 = element.data.length := by
  have hdata := element.data_pos
  have hdata' := element.data_le
  rw [toNat_header]
  omega

inductive Item where
  | padding
  | element (e : Element)

def Item.bytes : Item → List UInt8
  | .padding => [0]
  | .element e => e.header :: e.data

/-- A byte that is to be left alone, or an element of three bytes that is to be overwritten. -/
inductive Piece (timed : Nat → Prop) where
  | byte (b : UInt8)
  | extension (header x y z : UInt8) (htimed : timed (header.toNat / 16)) (hindex : header.toNat / 16 < 10)
      (hlength : header.toNat % 16 = 2)

section Pieces

variable {timed : Nat → Prop}

def Piece.bytes : Piece timed → List UInt8
  | .byte b => [b]
  | .extension header x y z _ _ _ => [header, x, y, z]

/-- The pieces with other times in the elements that are to be overwritten. -/
inductive Retimed (clock : Nat → UInt32) : List (Piece timed) → List UInt8 → Prop
  | nil : Retimed clock [] []
  | byte {b : UInt8} {pieces : List (Piece timed)} {out : List UInt8} (h : Retimed clock pieces out) :
      Retimed clock (.byte b :: pieces) (b :: out)
  | extension {header x y z : UInt8} {htimed : timed (header.toNat / 16)} {hindex : header.toNat / 16 < 10}
      {hlength : header.toNat % 16 = 2} {pieces : List (Piece timed)} {out : List UInt8} (turn : Nat)
      (h : Retimed clock pieces out) :
      Retimed clock (.extension header x y z htimed hindex hlength :: pieces)
        (header :: (image 3 (clock turn).toNat ++ out))

/-- There is nothing to be overwritten. -/
def Untimed : List (Piece timed) → Prop
  | [] => True
  | .byte _ :: pieces => Untimed pieces
  | .extension .. :: _ => False

/-- Going from header to header, with `skip` bytes to go to the next one, the loop comes to every element that is to be
overwritten, and to no other byte before the last place with an id of abs-send-time or one that is no index. -/
def Finds (last : Nat) : Nat → Nat → List (Piece timed) → Prop
  | offset, skip, [] => last ≤ offset + skip
  | offset, skip + 1, .byte _ :: pieces => Finds last (offset + 1) skip pieces
  | _, _ + 1, .extension .. :: _ => False
  | offset, 0, .byte b :: pieces =>
      if offset < last then
        b.toNat / 16 < 10 ∧ ¬ timed (b.toNat / 16) ∧ Finds last (offset + 1) (b.toNat % 16 + 1) pieces
      else Untimed pieces
  | offset, 0, .extension .. :: pieces => offset < last ∧ Finds last (offset + 4) 0 pieces

def bytesOf (pieces : List (Piece timed)) : List UInt8 := pieces.flatMap Piece.bytes

/-! ### The loop over the pieces -/

variable {clock : Nat → UInt32} {last : Nat}

theorem Untimed.retimed {pieces : List (Piece timed)} (h : Untimed pieces) : Retimed clock pieces (bytesOf pieces) := by
  induction pieces with
  | nil => exact .nil
  | cons piece pieces ih =>
      cases piece with
      | byte b => exact .byte (ih h)
      | extension => exact h.elim

/-- The byte that the loop has come to. -/
theorem numberAt_append (before : List UInt8) (b : UInt8) (rest : List UInt8) :
    numberAt (before ++ b :: rest) before.length = b.toNat := by
  have hread : read (before ++ ([b] ++ rest)) before.length 1 = [b] := read_field rfl rfl rest
  rw [List.singleton_append] at hread
  rw [numberAt, hread]
  rfl

theorem behindExtension_append (before : List UInt8) (b : UInt8) (rest : List UInt8) :
    behindExtension (before ++ b :: rest) before.length = before.length + b.toNat % 16 + 2 := by
  rw [behindExtension, numberAt_append]

variable [DecidablePred timed]

theorem stamped_of_not {before : List UInt8} {b : UInt8} (h : ¬ timed (b.toNat / 16)) (time : UInt32)
    (rest : List UInt8) :
    stamped timed time (before ++ b :: rest) before.length = before ++ b :: rest := by
  rw [stamped, numberAt_append, if_neg h]

theorem stamped_of_timed {before : List UInt8} {header : UInt8} (h : timed (header.toNat / 16)) (time : UInt32)
    (x y z : UInt8) (rest : List UInt8) :
    stamped timed time (before ++ header :: x :: y :: z :: rest) before.length
      = (before ++ header :: image 3 time.toNat) ++ rest := by
  have hsplit : before ++ header :: x :: y :: z :: rest = (before ++ [header]) ++ ([x, y, z] ++ rest) := by simp
  have hlength : (before ++ [header]).length = before.length + 1 := by simp
  have hwrite := write_field hlength (by rw [length_image]; rfl : [x, y, z].length = (image 3 time.toNat).length) rest
  rw [stamped, numberAt_append, if_pos h, hsplit, hwrite]
  simp

omit [DecidablePred timed] in
theorem extensionInside_append {before : List UInt8} {b : UInt8} {rest : List UInt8} :
    ExtensionInside timed (before ++ b :: rest) before.length
      ↔ b.toNat / 16 < 10 ∧ (timed (b.toNat / 16) → 3 ≤ rest.length) := by
  have hlength : (before ++ b :: rest).length = before.length + 1 + rest.length := by
    rw [List.length_append, List.length_cons]
    omega
  constructor
  · rintro ⟨-, hindex, htime⟩
    rw [numberAt_append] at hindex htime
    exact ⟨hindex, fun h => by have := htime h; omega⟩
  · rintro ⟨hindex, htime⟩
    refine ⟨by omega, ?_, ?_⟩ <;> rw [numberAt_append]
    · exact hindex
    · exact fun h => by have := htime h; omega

/-- A turn at a byte that is left alone. -/
theorem ExtensionRun.byte_iff {before rest buf' : List UInt8} {b : UInt8} {turn : Nat} (hmore : before.length < last)
    (hnot : ¬ timed (b.toNat / 16)) :
    ExtensionRun timed clock last turn before.length (before ++ b :: rest) buf' ↔ b.toNat / 16 < 10
      ∧ ExtensionRun timed clock last (turn + 1) ((before ++ [b]).length + (b.toNat % 16 + 1)) ((before ++ [b]) ++ rest)
        buf' := by
  have hoffset : before.length + b.toNat % 16 + 2 = (before ++ [b]).length + (b.toNat % 16 + 1) := by
    rw [List.length_append, List.length_singleton]
    omega
  have hbuf : before ++ b :: rest = (before ++ [b]) ++ rest := by simp
  constructor
  · intro h
    obtain ⟨hinside, hrun⟩ := h.of_more hmore
    rw [behindExtension_append, stamped_of_not hnot, hoffset, hbuf] at hrun
    exact ⟨(extensionInside_append.mp hinside).1, hrun⟩
  · rintro ⟨hindex, hrun⟩
    refine .turn hmore (extensionInside_append.mpr ⟨hindex, fun h => absurd h hnot⟩) ?_
    rw [behindExtension_append, stamped_of_not hnot, hoffset, hbuf]
    exact hrun

/-- A turn at an element that is overwritten. -/
theorem ExtensionRun.extension_iff {before rest buf' : List UInt8} {header x y z : UInt8} {turn : Nat}
    (hmore : before.length < last) (htimed : timed (header.toNat / 16)) (hindex : header.toNat / 16 < 10)
    (hlength : header.toNat % 16 = 2) :
    ExtensionRun timed clock last turn before.length (before ++ header :: x :: y :: z :: rest) buf'
      ↔ ExtensionRun timed clock last (turn + 1) (before ++ header :: image 3 (clock turn).toNat).length
        ((before ++ header :: image 3 (clock turn).toNat) ++ rest) buf' := by
  have hoffset : before.length + header.toNat % 16 + 2 = (before ++ header :: image 3 (clock turn).toNat).length := by
    rw [List.length_append, List.length_cons, length_image, hlength]
  constructor
  · intro h
    obtain ⟨-, hrun⟩ := h.of_more hmore
    rwa [behindExtension_append, stamped_of_timed htimed, hoffset] at hrun
  · intro h
    refine .turn hmore (extensionInside_append.mpr ⟨hindex, fun _ => ?_⟩) ?_
    · simp
    · rw [behindExtension_append, stamped_of_timed htimed, hoffset]
      exact h

theorem ExtensionRun.exists_of_finds {pieces : List (Piece timed)} {before : List UInt8} {skip turn : Nat}
    (h : Finds last before.length skip pieces) :
    ∃ out, Retimed clock pieces out
      ∧ ExtensionRun timed clock last turn (before.length + skip) (before ++ bytesOf pieces) (before ++ out) := by
  induction pieces generalizing before skip turn with
  | nil => exact ⟨[], .nil, .done (by rw [Finds] at h; omega)⟩
  | cons piece pieces ih =>
      cases piece with
      | byte b =>
          have hlength : (before ++ [b]).length = before.length + 1 := by simp
          have hbytes (rest : List UInt8) : (before ++ [b]) ++ rest = before ++ b :: rest := by simp
          cases skip with
          | zero =>
              rw [Finds] at h
              split_ifs at h with hmore
              · obtain ⟨hindex, hnot, hfinds⟩ := h
                rw [← hlength] at hfinds
                obtain ⟨out, hout, hrun⟩ := @ih _ _ (turn + 1) hfinds
                refine ⟨b :: out, .byte hout, (byte_iff hmore hnot).mpr ⟨hindex, ?_⟩⟩
                rw [← hbytes out]
                exact hrun
              · exact ⟨_, .byte h.retimed, .done hmore⟩
          | succ skip =>
              rw [Finds, ← hlength] at h
              obtain ⟨out, hout, hrun⟩ := @ih _ _ turn h
              refine ⟨b :: out, .byte hout, ?_⟩
              rw [hbytes, hbytes, hlength, Nat.add_right_comm] at hrun
              exact hrun
      | extension header x y z htimed hindex hlength =>
          cases skip with
          | zero =>
              obtain ⟨hmore, hfinds⟩ := h
              have hbefore : (before ++ header :: image 3 (clock turn).toNat).length = before.length + 4 := by simp
              rw [← hbefore] at hfinds
              obtain ⟨out, hout, hrun⟩ := @ih _ _ (turn + 1) hfinds
              refine ⟨_, .extension turn hout, (extension_iff hmore htimed hindex hlength).mpr ?_⟩
              rw [List.append_assoc _ _ out] at hrun
              exact hrun
          | succ skip => exact h.elim

/-! ### Back from the runs -/

/-- A clock whose times have nowhere the byte. -/
def otherTimes (b : UInt8) : Nat → UInt32 := fun _ => if b = 0 then 0x010101 else 0

theorem image_otherTimes (b : UInt8) (turn : Nat) : ∃ t x y, image 3 (otherTimes b turn).toNat = [t, x, y] ∧ t ≠ b := by
  by_cases hzero : b = 0
  · rw [otherTimes, if_pos hzero, hzero]
    exact ⟨1, 1, 1, rfl, by decide⟩
  · rw [otherTimes, if_neg hzero]
    exact ⟨0, 0, 0, rfl, Ne.symm hzero⟩

/-- What the loop makes of the pieces is what it is for, whatever the time is. -/
def Right (last turn : Nat) (before : (Nat → UInt32) → List UInt8) (skip : Nat) (pieces : List (Piece timed)) : Prop :=
  ∀ clock, ∃ out, Retimed clock pieces out
    ∧ ExtensionRun timed clock last turn ((before clock).length + skip) (before clock ++ bytesOf pieces) (before clock ++ out)

theorem getElem?_second {before : List UInt8} {offset : Nat} (hoffset : before.length = offset) (b c : UInt8)
    (rest : List UInt8) : (before ++ b :: c :: rest)[offset + 1]? = some c := by
  rw [← hoffset, List.getElem?_append_right (by omega), Nat.add_sub_cancel_left]
  rfl

omit [DecidablePred timed] in
theorem Retimed.head? {clock : Nat → UInt32} {pieces : List (Piece timed)} {out : List UInt8}
    (h : Retimed clock pieces out) :
    out.head? = (bytesOf pieces).head? := by
  cases h <;> rfl

omit [DecidablePred timed] in
/-- Where nothing ever changes there is nothing to be overwritten. -/
theorem untimed_of_retimed {pieces : List (Piece timed)} (h : ∀ clock, Retimed clock pieces (bytesOf pieces)) :
    Untimed pieces := by
  induction pieces with
  | nil => trivial
  | cons piece pieces ih =>
      cases piece with
      | byte b =>
          refine ih fun clock => ?_
          cases h clock with
          | byte h => exact h
      | extension header x y z =>
          obtain ⟨t, y', z', himage, hne⟩ := image_otherTimes x 0
          have hsame := h (otherTimes x)
          generalize hout : bytesOf _ = out at hsame
          cases hsame with
          | extension turn' _ =>
              have hturn : image 3 (otherTimes x turn').toNat = [t, y', z'] := himage
              rw [hturn] at hout
              exact absurd (List.cons.inj (List.cons.inj hout).2).1.symm hne

/-- An element that is to be overwritten has not been passed. -/
theorem Right.not_passed {before : (Nat → UInt32) → List UInt8} {offset skip turn : Nat} {header x y z : UInt8}
    {htimed : timed (header.toNat / 16)} {hindex : header.toNat / 16 < 10} {hlength : header.toNat % 16 = 2}
    {pieces : List (Piece timed)} (hoffset : ∀ clock, (before clock).length = offset)
    (h : Right last turn before skip (.extension header x y z htimed hindex hlength :: pieces)) :
    skip = 0 ∧ offset < last := by
  obtain ⟨t, y', z', himage, hne⟩ := image_otherTimes x 0
  obtain ⟨out, hout, hrun⟩ := h (otherTimes x)
  rw [hoffset] at hrun
  by_contra hpassed
  cases hout with
  | @extension _ _ _ _ _ _ _ _ out turn' hout =>
      have hturn : image 3 (otherTimes x turn').toNat = [t, y', z'] := himage
      rw [hturn] at hrun
      have hsame : (before (otherTimes x) ++ header :: t :: y' :: z' :: out)[offset + 1]?
          = (before (otherTimes x) ++ header :: x :: y :: z :: bytesOf pieces)[offset + 1]? := by
        by_cases hskip : skip = 0
        · have hend : ¬ offset + skip < last := fun hmore => hpassed ⟨hskip, by rwa [hskip] at hmore⟩
          exact congrArg (fun buf => buf[offset + 1]?) (hrun.of_end hend)
        · exact hrun.unchanged (by omega)
      rw [getElem?_second (hoffset _), getElem?_second (hoffset _)] at hsame
      exact hne (Option.some.inj hsame)

/-- A byte that is to be left alone has not been taken for the header of abs-send-time. -/
theorem Right.not_timed {before : (Nat → UInt32) → List UInt8} {offset turn : Nat} {b : UInt8} {pieces : List (Piece timed)}
    (hoffset : ∀ clock, (before clock).length = offset) (h : Right last turn before 0 (.byte b :: pieces))
    (hmore : offset < last) : ¬ timed (b.toNat / 16) := by
  intro htimed
  -- the bytes that would be overwritten are there
  have hthree : 3 ≤ (bytesOf pieces).length := by
    obtain ⟨out, -, hrun⟩ := h fun _ => 0
    rw [← hoffset fun _ => 0] at hmore
    exact (extensionInside_append.mp (hrun.of_more hmore).1).2 htimed
  obtain ⟨x, y, z, rest, hpieces⟩ : ∃ x y z rest, bytesOf pieces = x :: y :: z :: rest := by
    match hbytes : bytesOf pieces with
    | [] | [_] | [_, _] => simp [hbytes] at hthree
    | x :: y :: z :: rest => exact ⟨x, y, z, rest, rfl⟩
  obtain ⟨t, y', z', himage, hne⟩ := image_otherTimes x turn
  obtain ⟨out, hout, hrun⟩ := h (otherTimes x)
  have hlength := hoffset (otherTimes x)
  cases hout with
  | @byte _ _ out hout =>
      have hbuf : bytesOf (.byte b :: pieces) = b :: x :: y :: z :: rest := by
        rw [← hpieces]
        rfl
      have hhead := hout.head?
      rw [hpieces] at hhead
      obtain ⟨out', rfl⟩ : ∃ out', out = x :: out' := List.head?_eq_some_iff.mp hhead
      have hnext := (hrun.of_more (by omega)).2
      simp only [Nat.add_zero] at hnext
      rw [hbuf, behindExtension_append, stamped_of_timed htimed, himage] at hnext
      have hsame := hnext.unchanged (by omega : offset + 1 ≤ _)
      rw [List.append_assoc, List.cons_append, getElem?_second hlength, List.cons_append, getElem?_second hlength] at hsame
      exact hne (Option.some.inj hsame).symm

theorem Right.finds {pieces : List (Piece timed)} {before : (Nat → UInt32) → List UInt8} {offset skip turn : Nat}
    (hoffset : ∀ clock, (before clock).length = offset) (h : Right last turn before skip pieces) :
    Finds last offset skip pieces := by
  induction pieces generalizing before offset skip turn with
  | nil =>
      rw [Finds]
      by_contra hmore
      obtain ⟨out, -, hrun⟩ := h fun _ => 0
      rw [hoffset] at hrun
      have hinside := (hrun.of_more (by omega)).1.byte
      rw [List.length_append, hoffset] at hinside
      exact absurd hinside (by simp [bytesOf])
  | cons piece pieces ih =>
      cases piece with
      | byte b =>
          have hnext (clock : Nat → UInt32) : (before clock ++ [b]).length = offset + 1 := by
            rw [List.length_append, hoffset, List.length_singleton]
          have hbytes (clock : Nat → UInt32) (rest : List UInt8) :
              before clock ++ b :: rest = (before clock ++ [b]) ++ rest := by simp
          cases skip with
          | zero =>
              rw [Finds]
              split_ifs with hmore
              · have hnot := h.not_timed hoffset hmore
                have hstep (clock : Nat → UInt32) : b.toNat / 16 < 10 ∧ ∃ out, Retimed clock pieces out
                    ∧ ExtensionRun timed clock last (turn + 1) ((before clock ++ [b]).length + (b.toNat % 16 + 1))
                      ((before clock ++ [b]) ++ bytesOf pieces) ((before clock ++ [b]) ++ out) := by
                  obtain ⟨out, hout, hrun⟩ := h clock
                  cases hout with
                  | @byte _ _ out hout =>
                      rw [← hoffset clock] at hmore
                      obtain ⟨hindex, hrest⟩ := (ExtensionRun.byte_iff hmore hnot).mp hrun
                      rw [hbytes clock out] at hrest
                      exact ⟨hindex, _, hout, hrest⟩
                exact ⟨(hstep fun _ => 0).1, hnot, @ih _ _ _ (turn + 1) hnext fun clock => (hstep clock).2⟩
              · refine untimed_of_retimed fun clock => ?_
                obtain ⟨out, hout, hrun⟩ := h clock
                rw [hoffset] at hrun
                have hsame := List.append_cancel_left (hrun.of_end hmore)
                rw [hsame] at hout
                cases hout with
                | byte hout => exact hout
          | succ skip =>
              refine @ih _ _ _ turn hnext fun clock => ?_
              obtain ⟨out, hout, hrun⟩ := h clock
              cases hout with
              | byte hout =>
                  refine ⟨_, hout, ?_⟩
                  rw [← hbytes, ← hbytes, hnext, Nat.add_right_comm, ← hoffset clock]
                  exact hrun
      | extension header x y z htimed hindex hlength =>
          obtain ⟨rfl, hmore⟩ := h.not_passed hoffset
          have hnext (clock : Nat → UInt32) :
              (before clock ++ header :: image 3 (clock turn).toNat).length = offset + 4 := by
            rw [List.length_append, hoffset, List.length_cons, length_image]
          refine ⟨hmore, @ih _ _ _ (turn + 1) hnext fun clock => ?_⟩
          obtain ⟨out, hout, hrun⟩ := h clock
          cases hout with
          | @extension _ _ _ _ _ _ _ _ out turn' hout =>
              rw [← hoffset clock] at hmore
              have hrest := (ExtensionRun.extension_iff hmore htimed hindex hlength).mp hrun
              -- the time that is found is that of this turn
              have htime : image 3 (clock turn').toNat = image 3 (clock turn).toNat := by
                have htake := hrest.take_eq
                rw [List.take_left, ← List.cons_append, ← List.append_assoc, List.take_left' (by simp)] at htake
                exact (List.cons.inj (List.append_cancel_left htake)).2
              rw [htime] at hrest
              refine ⟨out, hout, ?_⟩
              rw [List.append_assoc _ _ out]
              exact hrest

end Pieces

/-! ### Packets -/

/-- An RTP packet whose extension is a block with one-byte headers. `upper` is its version and its padding bit, and
`fixed` the rest of the header that every packet has. -/
structure ExtendedPacket where
  upper : Fin 8
  fixed : List UInt8
  csrcs : List UInt32
  items : List Item
  payload : List UInt8
  fixed_length : fixed.length = 11
  csrcs_le : csrcs.length ≤ 15
  words : 4 ∣ (items.flatMap Item.bytes).length
  length_le : 16 + csrcs.length * 4 + (items.flatMap Item.bytes).length + payload.length ≤ dataPacketSize

namespace ExtendedPacket

/-- What is before the block. -/
def front (packet : ExtendedPacket) : List UInt8 :=
  .ofNat (packet.upper * 32 + 16 + packet.csrcs.length) :: packet.fixed
    ++ packet.csrcs.flatMap (fun csrc => image 4 csrc.toNat)
    ++ [0xBE, 0xDE] ++ image 2 ((packet.items.flatMap Item.bytes).length / 4)

def bytes (packet : ExtendedPacket) : List UInt8 :=
  packet.front ++ (packet.items.flatMap Item.bytes ++ packet.payload)

def dataPacket (packet : ExtendedPacket) (comp : Int32) (type : PacketType) : DataPacket := ⟨comp, packet.bytes, type⟩

theorem length_front (packet : ExtendedPacket) : packet.front.length = 16 + packet.csrcs.length * 4 := by
  have hcsrcs : (packet.csrcs.flatMap fun csrc => image 4 csrc.toNat).length = packet.csrcs.length * 4 := by
    rw [List.length_flatMap]
    simp
  rw [front, List.length_append, List.length_append, List.length_append, List.length_cons, hcsrcs, packet.fixed_length,
    length_image]
  simp only [List.length_cons, List.length_nil]
  omega

theorem length_bytes_le (packet : ExtendedPacket) : packet.bytes.length ≤ dataPacketSize := by
  rw [bytes, List.length_append, List.length_append, length_front, ← Nat.add_assoc]
  exact packet.length_le

theorem hasExtension (packet : ExtendedPacket) (comp : Int32) (type : PacketType) :
    Media.hasExtension (packet.dataPacket comp type) = true := by
  have hupper := packet.upper.isLt
  have hcsrcs := packet.csrcs_le
  have hread : read packet.bytes 0 1 = [UInt8.ofNat (packet.upper * 32 + 16 + packet.csrcs.length)] := by
    rw [bytes, front]
    rfl
  have hnumber : number [UInt8.ofNat (packet.upper * 32 + 16 + packet.csrcs.length)]
      = packet.upper * 32 + 16 + packet.csrcs.length := by
    change (UInt8.ofNat _).toNat = _
    rw [UInt8.toNat_ofNat', Nat.mod_eq_of_lt (by omega)]
  rw [Media.hasExtension, dataPacket, hread, hnumber]
  exact decide_eq_true (by omega)

end ExtendedPacket

/-- The elements of three bytes with an id of abs-send-time are to be overwritten. -/
def Item.pieces (timed : Nat → Prop) [DecidablePred timed] : Item → List (Piece timed)
  | .padding => [.byte 0]
  | .element e =>
      if h : timed e.id ∧ e.data.length = 3 then
        [.extension e.header e.data[0] e.data[1] e.data[2] (by rw [e.header_id]; exact h.1)
          (by rw [e.header_id]; exact Nat.lt_succ_of_le e.id_le)
          (Nat.succ_injective (e.header_length.trans h.2))]
      else (e.header :: e.data).map .byte

def ExtendedPacket.pieces (packet : ExtendedPacket) (timed : Nat → Prop) [DecidablePred timed] : List (Piece timed) :=
  (packet.front.drop 16).map .byte ++ (packet.items.flatMap (Item.pieces timed) ++ packet.payload.map .byte)

section Packet

variable {timed : Nat → Prop}

theorem bytesOf_map_byte (bytes : List UInt8) : bytesOf (bytes.map .byte : List (Piece timed)) = bytes := by
  induction bytes with
  | nil => rfl
  | cons b bytes ih =>
      rw [List.map_cons, bytesOf, List.flatMap_cons]
      exact congrArg (b :: ·) ih

theorem bytesOf_append (pieces pieces' : List (Piece timed)) :
    bytesOf (pieces ++ pieces') = bytesOf pieces ++ bytesOf pieces' :=
  List.flatMap_append

theorem Untimed.append {pieces pieces' : List (Piece timed)} (h : Untimed pieces) (h' : Untimed pieces') :
    Untimed (pieces ++ pieces') := by
  induction pieces with
  | nil => exact h'
  | cons piece pieces ih =>
      cases piece with
      | byte => exact ih h
      | extension => exact h.elim

theorem untimed_map_byte (bytes : List UInt8) : Untimed (bytes.map .byte : List (Piece timed)) := by
  induction bytes with
  | nil => trivial
  | cons _ _ ih => exact ih

variable [DecidablePred timed]

theorem bytesOf_pieces (item : Item) : bytesOf (item.pieces timed) = item.bytes := by
  cases item with
  | padding => rfl
  | element e =>
      rw [Item.pieces]
      split_ifs with h
      · obtain ⟨x, y, z, hdata⟩ := List.length_eq_three.mp h.2
        simp only [bytesOf, List.flatMap_cons, List.flatMap_nil, List.append_nil, Piece.bytes, Item.bytes, hdata]
        rfl
      · exact bytesOf_map_byte _

theorem bytesOf_flatMap_pieces (items : List Item) :
    bytesOf (items.flatMap (Item.pieces timed)) = items.flatMap Item.bytes := by
  induction items with
  | nil => rfl
  | cons item items ih => rw [List.flatMap_cons, List.flatMap_cons, bytesOf_append, ih, bytesOf_pieces]

/-- The pieces are what is behind the first 16 bytes. -/
theorem ExtendedPacket.take_append_bytesOf (packet : ExtendedPacket) :
    packet.front.take 16 ++ bytesOf (packet.pieces timed) = packet.bytes := by
  rw [pieces, bytesOf_append, bytesOf_append, bytesOf_map_byte, bytesOf_map_byte, bytesOf_flatMap_pieces,
    ← List.append_assoc, List.take_append_drop, bytes]

/-- Where no id is that of abs-send-time there is nothing to be overwritten. -/
theorem ExtendedPacket.untimed_pieces (packet : ExtendedPacket) (h : ∀ id, ¬ timed id) :
    Untimed (packet.pieces timed) := by
  refine (untimed_map_byte _).append (.append ?_ (untimed_map_byte _))
  induction packet.items with
  | nil => trivial
  | cons item items ih =>
      refine .append ?_ ih
      cases item with
      | padding => trivial
      | element e =>
          rw [Item.pieces, dif_neg fun hboth => h _ hboth.1]
          exact untimed_map_byte _

end Packet

namespace RtpExtensionProcessor

variable {processor : RtpExtensionProcessor}

theorem processRtpExtensions_of_other (clock : Nat → UInt32) {p : DataPacket} (hlength : 16 ≤ p.data.length)
    (hextension : hasExtension p = true) (htype : p.type = .other) :
    processor.processRtpExtensions clock p = .ok (0, p) := by
  have hbit : getExtension p.data = .ok true := by
    rw [getExtension, load, if_pos (by omega)]
    exact congrArg Except.ok hextension
  rw [processRtpExtensions, hbit, Checked.ok_bind, if_pos rfl, htype]
  rfl

theorem processRtpExtensions_of_extMap (clock : Nat → UInt32) {p : DataPacket} (hlength : 16 ≤ p.data.length)
    (hextension : hasExtension p = true) {extMap : ExtensionArray} (hmap : processor.extMap? p.type = some extMap) :
    processor.processRtpExtensions clock p = if number (read p.data 12 2) = 0xBEDE then do
      let data ← processExtensions extMap clock (number (read p.data 14 2) * 4) (p.data.length + 1) 0 1 16 p.data
      return (p.data.length, { p with data })
    else .ok (p.data.length, p) := by
  have hbit : getExtension p.data = .ok true := by
    rw [getExtension, load, if_pos (by omega)]
    exact congrArg Except.ok hextension
  have htotal : getExtLength p.data = .ok (number (read p.data 14 2)) := by
    rw [getExtLength, load, if_pos (by omega)]
    rfl
  have hid : getExtId p.data = .ok (number (read p.data 12 2)) := by
    rw [getExtId, load, if_pos (by omega)]
    rfl
  rw [processRtpExtensions, hbit, Checked.ok_bind, if_pos rfl, hmap]
  dsimp only
  rw [htotal, Checked.ok_bind, hid, Checked.ok_bind]
  rfl

/-- Just the elements of abs-send-time are overwritten, whatever the time is. -/
def Overwrites (processor : RtpExtensionProcessor) (exts : List ExtMap) (packet : ExtendedPacket) (comp : Int32)
    (type : PacketType) : Prop :=
  ∀ clock, ∃ len out, Retimed clock (packet.pieces (Timed exts type)) out
    ∧ processor.processRtpExtensions clock (packet.dataPacket comp type)
      = .ok (len, ⟨comp, packet.front.take 16 ++ out, type⟩)

/-- What the bytes 12 to 15 are taken for is the header of a block in which every element is found; or it is no such
header, and there is nothing to be overwritten. -/
def FindsBlock (exts : List ExtMap) (packet : ExtendedPacket) (type : PacketType) : Prop :=
  if number (read packet.bytes 12 2) = 0xBEDE then
    Finds (15 + number (read packet.bytes 14 2) * 4) 16 0 (packet.pieces (Timed exts type))
  else Untimed (packet.pieces (Timed exts type))

theorem overwrites_of_extMap {exts : List ExtMap} (hold : Holds exts processor) (packet : ExtendedPacket) (comp : Int32)
    {type : PacketType} {extMap : ExtensionArray} (hmap : processor.extMap? type = some extMap) :
    processor.Overwrites exts packet comp type ↔ FindsBlock exts packet type := by
  have hlength : 16 ≤ packet.bytes.length := by
    rw [ExtendedPacket.bytes, List.length_append, packet.length_front]
    omega
  have hfront : (packet.front.take 16).length = 16 := by
    rw [List.length_take, packet.length_front]
    omega
  have hprocess (clock : Nat → UInt32) : processor.processRtpExtensions clock (packet.dataPacket comp type)
      = if number (read packet.bytes 12 2) = 0xBEDE then do
          let data ← processExtensions extMap clock (number (read packet.bytes 14 2) * 4) (packet.bytes.length + 1) 0 1 16
            packet.bytes
          return (packet.bytes.length, ⟨comp, data, type⟩)
        else .ok (packet.bytes.length, packet.dataPacket comp type) :=
    processRtpExtensions_of_extMap clock hlength (packet.hasExtension comp type) hmap
  have hbytes := @ExtendedPacket.take_append_bytesOf (Timed exts type) _ packet
  rw [FindsBlock]
  split_ifs with hid
  · have hplace : LoopPlace (packet.bytes.length + 1) 1 16 packet.bytes :=
      @LoopPlace.start (packet.dataPacket comp type) packet.length_bytes_le
    have hrun (clock : Nat → UInt32) (buf' : List UInt8) := @processExtensions_eq_ok_iff _ _ clock extMap
      (hold.timedIds hmap) (number (read packet.bytes 14 2) * 4) _ 0 _ _ _ buf' hplace
    constructor
    · intro h
      refine @Right.finds _ _ _ _ (fun _ => packet.front.take 16) _ _ 0 (fun _ => hfront) fun clock => ?_
      obtain ⟨len, out, hout, hdone⟩ := h clock
      refine ⟨out, hout, ?_⟩
      rw [hprocess, if_pos hid] at hdone
      obtain ⟨data, hdata, hresult⟩ := exists_of_bind_ok hdone
      have hsame : data = packet.front.take 16 ++ out := congrArg (fun r => r.2.data) (Except.ok.inj hresult)
      rw [hfront, hbytes, ← hsame]
      exact (hrun clock data).mp hdata
    · intro h clock
      obtain ⟨out, hout, hdone⟩ := @ExtensionRun.exists_of_finds _ clock _ _ _ (packet.front.take 16) 0 0 (hfront ▸ h)
      rw [hfront, hbytes] at hdone
      refine ⟨packet.bytes.length, out, hout, ?_⟩
      rw [hprocess, if_pos hid, (hrun clock _).mpr hdone]
      rfl
  · constructor
    · intro h
      refine untimed_of_retimed fun clock => ?_
      obtain ⟨len, out, hout, hdone⟩ := h clock
      rw [hprocess, if_neg hid] at hdone
      have hsame : packet.bytes = packet.front.take 16 ++ out := congrArg (fun r => r.2.data) (Except.ok.inj hdone)
      rw [← hbytes] at hsame
      rw [List.append_cancel_left hsame]
      exact hout
    · intro h clock
      refine ⟨packet.bytes.length, _, h.retimed, ?_⟩
      rw [hprocess, if_neg hid, hbytes]
      rfl

/-- **Just the elements of abs-send-time are overwritten if and only if the loop finds them.** -/
theorem overwrites_iff {infos : List Sdp.SdpInfo} (hset : infos.foldlM setSdpInfo create = .ok processor)
    (packet : ExtendedPacket) (comp : Int32) (type : PacketType) :
    processor.Overwrites (infos.flatMap Sdp.SdpInfo.extMapVector) packet comp type
      ↔ type = .other ∨ FindsBlock (infos.flatMap Sdp.SdpInfo.extMapVector) packet type := by
  have hold := (needs_setSdpInfos infos).value hset
  cases type with
  | video => rw [overwrites_of_extMap hold packet comp rfl, or_iff_right (by decide)]
  | audio => rw [overwrites_of_extMap hold packet comp rfl, or_iff_right (by decide)]
  | other =>
      refine iff_of_true (fun clock => ?_) (.inl rfl)
      have huntimed := @ExtendedPacket.untimed_pieces (Timed (infos.flatMap Sdp.SdpInfo.extMapVector) .other) _ packet
        fun _ h => h.1 rfl
      refine ⟨0, _, huntimed.retimed, ?_⟩
      have hlength : 16 ≤ packet.bytes.length := by
        rw [ExtendedPacket.bytes, List.length_append, packet.length_front]
        omega
      rw [packet.take_append_bytesOf]
      exact processRtpExtensions_of_other clock hlength (packet.hasExtension comp .other) rfl

end RtpExtensionProcessor

/-! ### Blocks that are gone through right -/

section Plain

variable {timed : Nat → Prop} {last offset : Nat}

theorem finds_of_end (hend : last ≤ offset) {pieces : List (Piece timed)} (h : Untimed pieces) :
    Finds last offset 0 pieces := by
  cases pieces with
  | nil => exact hend
  | cons piece pieces =>
      cases piece with
      | byte b =>
          rw [Finds, if_neg (by omega)]
          exact h
      | extension => exact h.elim

/-- Bytes that are not looked at. -/
theorem finds_skipped {bytes : List UInt8} {pieces : List (Piece timed)}
    (h : Finds last (offset + bytes.length) 0 pieces) :
    Finds last offset bytes.length (bytes.map .byte ++ pieces) := by
  induction bytes generalizing offset with
  | nil => exact h
  | cons b bytes ih =>
      rw [List.map_cons, List.cons_append, List.length_cons, Finds]
      apply ih
      rw [List.length_cons] at h
      rwa [Nat.add_assoc, Nat.add_comm 1]

/-- Padding at the end of a block is looked at in pairs. -/
theorem finds_padding (hzero : ¬ timed 0) {pieces : List (Piece timed)} (h : Untimed pieces) :
    ∀ {count offset : Nat}, last + 1 = offset + count → Finds last offset 0 (List.replicate count (.byte 0) ++ pieces)
  | 0, offset, hcount => finds_of_end (by omega) h
  | 1, offset, hcount => finds_of_end (by omega) h
  | count + 2, offset, hcount => by
      change Finds last offset 0 (.byte 0 :: .byte 0 :: (List.replicate count (.byte 0) ++ pieces))
      rw [Finds, if_pos (by omega)]
      exact ⟨by decide, hzero, finds_padding hzero h (by omega)⟩

variable [DecidablePred timed]

theorem finds_elements (hzero : ¬ timed 0) {elements : List Element}
    (hthree : ∀ e ∈ elements, timed e.id → e.data.length = 3) {count : Nat} {pieces : List (Piece timed)}
    (h : Untimed pieces) (hlast : last + 1 = offset + ((elements.map Item.element).flatMap Item.bytes).length + count) :
    Finds last offset 0
      ((elements.map Item.element).flatMap (Item.pieces timed) ++ (List.replicate count (.byte 0) ++ pieces)) := by
  induction elements generalizing offset with
  | nil => exact finds_padding hzero h hlast
  | cons e elements ih =>
      have hdata := e.data_pos
      rw [List.map_cons, List.flatMap_cons, List.length_append] at hlast
      change last + 1 = offset + (e.data.length + 1 + _) + count at hlast
      have hrest := @ih (offset + 1 + e.data.length) (fun e' he' => hthree e' (List.mem_cons_of_mem _ he')) (by omega)
      rw [List.map_cons, List.flatMap_cons, List.append_assoc, Item.pieces]
      split_ifs with hpiece
      · refine ⟨by omega, ?_⟩
        rw [hpiece.2] at hrest
        exact hrest
      · have hnot : ¬ timed e.id := fun htimed => hpiece ⟨htimed, hthree e List.mem_cons_self htimed⟩
        rw [List.map_cons, List.cons_append, Finds, if_pos (by omega), e.header_id, e.header_length]
        exact ⟨Nat.lt_succ_of_le e.id_le, hnot, finds_skipped hrest⟩

end Plain

/-- A packet without CSRCs whose padding is behind all elements is gone through right, if every element that has an id of
abs-send-time has three bytes. -/
theorem ExtendedPacket.findsBlock {exts : List ExtMap} {packet : ExtendedPacket} {type : PacketType}
    (hcsrcs : packet.csrcs = []) {elements : List Element} {count : Nat}
    (hitems : packet.items = elements.map .element ++ List.replicate count .padding)
    (hthree : ∀ e ∈ elements, Timed exts type e.id → e.data.length = 3) :
    RtpExtensionProcessor.FindsBlock exts packet type := by
  have hfixed : (UInt8.ofNat (packet.upper * 32 + 16 + packet.csrcs.length) :: packet.fixed).length = 12 := by
    rw [List.length_cons, packet.fixed_length]
  have hbytes : packet.bytes = (UInt8.ofNat (packet.upper * 32 + 16 + packet.csrcs.length) :: packet.fixed)
      ++ ([0xBE, 0xDE] ++ (image 2 ((packet.items.flatMap Item.bytes).length / 4)
        ++ (packet.items.flatMap Item.bytes ++ packet.payload))) := by
    simp [bytes, front, hcsrcs]
  have hid : number (read packet.bytes 12 2) = 0xBEDE := by
    have hread : read packet.bytes 12 2 = [0xBE, 0xDE] := by
      rw [hbytes]
      exact read_field hfixed rfl _
    rw [hread]
    rfl
  have hwords : read packet.bytes 14 2 = image 2 ((packet.items.flatMap Item.bytes).length / 4) := by
    rw [hbytes, ← List.append_assoc]
    refine read_field ?_ (length_image _ _) _
    rw [List.length_append, hfixed]
    rfl
  have hlength := packet.length_le
  have hsize : dataPacketSize = 1500 := rfl
  have hnumber : number (read packet.bytes 14 2) * 4 = (packet.items.flatMap Item.bytes).length := by
    rw [hwords, number_image (by omega), Nat.div_mul_cancel packet.words]
  have hdrop : packet.front.drop 16 = [] := by
    rw [List.drop_eq_nil_iff, packet.length_front, hcsrcs]
    exact le_rfl
  have hpadding {β : Type} (f : Item → List β) (b : β) (hb : f .padding = [b]) :
      (List.replicate count Item.padding).flatMap f = List.replicate count b := by
    rw [List.flatMap_replicate, hb, List.flatten_replicate_singleton]
  rw [RtpExtensionProcessor.FindsBlock, if_pos hid, hnumber, pieces, hdrop, hitems, List.flatMap_append,
    List.flatMap_append, hpadding Item.bytes 0 rfl, hpadding (Item.pieces _) (.byte 0) rfl, List.append_assoc]
  refine finds_elements (fun h => h.2.1 rfl) hthree (untimed_map_byte _) ?_
  rw [List.length_append, List.length_replicate]
  omega

namespace RtpExtensionProcessor

def timedProcessor : RtpExtensionProcessor := ⟨#v[0, 0, 0, 1, 0, 0, 0, 0, 0, 0], .replicate 10 0⟩

def timedElement : Element := ⟨3, [7, 8, 9], by decide, by decide, by decide, by decide⟩

/-- Two elements of abs-send-time, one behind the other. -/
def pairedPacket : ExtendedPacket where
  upper := 4
  fixed := [100, 0, 1, 0, 0, 0, 1, 0, 0, 0, 1]
  csrcs := []
  items := [.element timedElement, .element timedElement]
  payload := [42]
  fixed_length := rfl
  csrcs_le := by decide
  words := by decide
  length_le := by decide

theorem overwrites_iff_pairedPacket : timedProcessor.Overwrites [timedExtension] pairedPacket 1 .video := by
  refine (@overwrites_iff timedProcessor [readTimed] rfl pairedPacket 1 .video).mpr (.inr ?_)
  refine @ExtendedPacket.findsBlock _ pairedPacket .video rfl [timedElement, timedElement] 0 rfl fun e he _ => ?_
  obtain rfl : e = timedElement := by simpa using he
  rfl

/-- A packet with a padding byte before an element of abs-send-time. -/
def paddedPacket : ExtendedPacket where
  upper := 4
  fixed := [100, 0, 1, 0, 0, 0, 1, 0, 0, 0, 1]
  csrcs := []
  items := [.padding, .element timedElement, .padding, .padding, .padding]
  payload := [42]
  fixed_length := rfl
  csrcs_le := by decide
  words := by decide
  length_le := by decide

/-- The element is not overwritten. -/
theorem padded_element_missed : Sdp.SdpInfo.create.processSdp timedText [] = .ok (false, readTimed)
    ∧ [readTimed].foldlM setSdpInfo create = .ok timedProcessor
    ∧ timedProcessor.processRtpExtensions (fun _ => 5) (paddedPacket.dataPacket 1 .video)
      = .ok (25, paddedPacket.dataPacket 1 .video)
    ∧ ¬ timedProcessor.Overwrites [timedExtension] paddedPacket 1 .video := by
  have hrun : timedProcessor.processRtpExtensions (fun _ => 5) (paddedPacket.dataPacket 1 .video)
      = .ok (25, paddedPacket.dataPacket 1 .video) := by rfl
  refine ⟨processSdp_timedText, rfl, hrun, fun h => ?_⟩
  obtain ⟨len, out, hout, hdone⟩ := h fun _ => 5
  rw [hrun] at hdone
  have hsame : paddedPacket.bytes = paddedPacket.front.take 16 ++ out :=
    congrArg (fun r => r.2.data) (Except.ok.inj hdone)
  have hbehind : paddedPacket.bytes.drop 16 = out := by
    rw [hsame]
    exact List.drop_left' rfl
  have hbytes : paddedPacket.bytes.drop 16 = [0, 0x32, 7, 8, 9, 0, 0, 0, 42] := by rfl
  rw [← hbehind, hbytes] at hout
  have hpieces : paddedPacket.pieces (Timed [timedExtension] .video)
      = [.byte 0, .extension 0x32 7 8 9 (by decide) (by decide) (by decide), .byte 0, .byte 0, .byte 0, .byte 42] := by rfl
  rw [hpieces] at hout
  generalize hlist : [0, 0x32, 7, 8, 9, 0, 0, 0, (42 : UInt8)] = list at hout
  cases hout with
  | byte hout =>
      cases hout with
      | extension turn hout =>
          have hdiffer : (image 3 (5 : UInt32).toNat) = [0, 0, 5] := by rfl
          rw [hdiffer] at hlist
          exact absurd (congrArg (fun l => l[2]?) hlist) (by simp)

end RtpExtensionProcessor

end Licode.Media
