import Licode.Media.SendQueue

/-!
# The payload descriptor of VP8

`RtpVP8Parser::parseVP8` fills a `RTPPayloadVP8` that has been allocated without values. It returns
early where the descriptor is corrupt or longer than the payload, and a member that has no value then
is `none` here.

The first byte of the descriptor is read from a payload that may be empty. What stands in the memory
behind a packet is given by `stale`.
-/

namespace Licode.Media

open Overlay

/-! ### More of `RtpHeader` -/

/-- A byte of the buffer that a packet is in. -/
def byteAt (data : List UInt8) (stale : Nat → UInt8) (i : Nat) : UInt8 := data.getD i (stale i)

def getTimestamp (data : List UInt8) : UInt32 := .ofNat (number (read data 4 4))

/-- The number of contributing sources and the length of the extension come from the packet. -/
def getHeaderLength (data : List UInt8) (stale : Nat → UInt8) : Nat :=
  let first := (byteAt data stale 0).toNat
  let extensionLength := number [byteAt data stale 14, byteAt data stale 15]
  12 + first % 16 * 4 + first / 16 % 2 * (4 + extensionLength * 4)

/-- What stands behind the header; the length that the callers compute is 0 or less where it is empty. -/
def payloadOf (data : List UInt8) (stale : Nat → UInt8) : List UInt8 :=
  data.drop (getHeaderLength data stale)

/-! ### The parser -/

inductive FrameType where
  | iFrame
  | pFrame
  deriving DecidableEq, Repr

/-- `data` is the place in the payload that the pointer is set to. -/
structure RTPPayloadVP8 where
  nonReferenceFrame : Bool
  beginningOfPartition : Bool
  partitionID : Nat
  hasPictureID : Option Bool
  hasTl0PicIdx : Option Bool
  hasTID : Option Bool
  hasKeyIdx : Option Bool
  pictureID : Option Nat
  tl0PicIdx : Option Nat
  tID : Option Nat
  layerSync : Option Bool
  keyIdx : Option Nat
  frameWidth : Option Nat
  frameHeight : Option Nat
  frameType : Option FrameType
  data : Option Nat
  dataLength : Option Nat
  deriving DecidableEq

namespace RtpVP8Parser

/-- Whether a bit is set. -/
def bit (byte : UInt8) (i : Nat) : Bool := byte.toNat.testBit i

/-- The members that the first byte gives. -/
def parseFirst (first : UInt8) : RTPPayloadVP8 where
  nonReferenceFrame := bit first 5
  beginningOfPartition := bit first 4
  partitionID := first.toNat % 16
  hasPictureID := none
  hasTl0PicIdx := none
  hasTID := none
  hasKeyIdx := none
  pictureID := none
  tl0PicIdx := none
  tID := none
  layerSync := none
  keyIdx := none
  frameWidth := none
  frameHeight := none
  frameType := none
  data := none
  dataLength := none

/-- The structure so far and the bytes that are left, or nothing where there are too few. -/
abbrev Parsed := RTPPayloadVP8 × Option (List UInt8)

def parsePictureID (vp8 : RTPPayloadVP8) : List UInt8 → Parsed
  | [] => (vp8, none)
  | byte :: rest =>
      let pictureID := byte.toNat % 128
      let vp8 := { vp8 with pictureID := some pictureID }
      if bit byte 7 then
        match rest with
        | [] => (vp8, none)
        | byte :: rest => ({ vp8 with pictureID := some (pictureID * 256 + byte.toNat) }, some rest)
      else (vp8, some rest)

def parseTl0PicIdx (vp8 : RTPPayloadVP8) : List UInt8 → Parsed
  | [] => (vp8, none)
  | byte :: rest => ({ vp8 with tl0PicIdx := some byte.toNat }, some rest)

def parseTIDAndKeyIdx (vp8 : RTPPayloadVP8) : List UInt8 → Parsed
  | [] => (vp8, none)
  | byte :: rest =>
      let vp8 := if vp8.hasTID = some true then
        { vp8 with tID := some (byte.toNat / 64 % 4), layerSync := some (bit byte 5) } else vp8
      let vp8 := if vp8.hasKeyIdx = some true then { vp8 with keyIdx := some (byte.toNat % 32) } else vp8
      (vp8, some rest)

/-- One of the optional fields. -/
def parseIf (condition : Bool) (parse : RTPPayloadVP8 → List UInt8 → Parsed) : Parsed → Parsed
  | (vp8, some rest) => if condition then parse vp8 rest else (vp8, some rest)
  | (vp8, none) => (vp8, none)

def parseExtension (vp8 : RTPPayloadVP8) : List UInt8 → Parsed
  | [] => (vp8, none)
  | flags :: rest =>
      let vp8 := { vp8 with
        hasPictureID := some (bit flags 7)
        hasTl0PicIdx := some (bit flags 6)
        hasTID := some (bit flags 5)
        hasKeyIdx := some (bit flags 4) }
      parseIf (bit flags 5 || bit flags 4) parseTIDAndKeyIdx
        (parseIf (bit flags 6) parseTl0PicIdx (parseIf (bit flags 7) parsePictureID (vp8, some rest)))

/-- The size is there for an I-frame that has its header. -/
def parseFrameSize (vp8 : RTPPayloadVP8) (data : List UInt8) : RTPPayloadVP8 :=
  if vp8.frameType = some .iFrame ∧ 10 ≤ data.length then
    { vp8 with
      frameWidth := some (((data.getD 7 0).toNat * 256 + (data.getD 6 0).toNat) % 2 ^ 14)
      frameHeight := some (((data.getD 9 0).toNat * 256 + (data.getD 8 0).toNat) % 2 ^ 14) }
  else vp8

/-- The P bit is read at the beginning of the first partition only. -/
def frameTypeOf (vp8 : RTPPayloadVP8) (first : UInt8) : FrameType :=
  if vp8.beginningOfPartition ∧ vp8.partitionID = 0 ∧ bit first 0 = false then .iFrame else .pFrame

/-- What follows the descriptor is the data. -/
def parseData (payload : List UInt8) : Parsed → RTPPayloadVP8
  | (vp8, none) => vp8
  | (vp8, some []) => vp8
  | (vp8, some (first :: rest)) =>
      let vp8 := parseFrameSize { vp8 with frameType := some (frameTypeOf vp8 first) } (first :: rest)
      { vp8 with
        data := some (payload.length - (first :: rest).length)
        dataLength := some (first :: rest).length }

/-- `parseVP8`; `stale` is what is read where there is no first byte. -/
def parseVP8 (payload : List UInt8) (stale : UInt8) : RTPPayloadVP8 :=
  let first := payload.headD stale
  let vp8 := parseFirst first
  if vp8.partitionID > 8 then vp8
  else parseData payload
    (if bit first 7 then parseExtension vp8 payload.tail else (vp8, some payload.tail))

/-! ### When the members have values -/

/-- The size of the descriptor that a payload begins with. -/
def descriptorSize (payload : List UInt8) : Nat :=
  if bit (payload.getD 0 0) 7 then
    let flags := payload.getD 1 0
    2 + (if bit flags 7 then if bit (payload.getD 2 0) 7 then 2 else 1 else 0)
      + (if bit flags 6 then 1 else 0) + (if bit flags 5 || bit flags 4 then 1 else 0)
  else 1

/-- A descriptor that is not corrupt, with data behind it. -/
structure Described (payload : List UInt8) : Prop where
  partition : (payload.getD 0 0).toNat % 16 ≤ 8
  size : descriptorSize payload < payload.length

instance (payload : List UInt8) : Decidable (Described payload) :=
  decidable_of_iff ((payload.getD 0 0).toNat % 16 ≤ 8 ∧ descriptorSize payload < payload.length)
    ⟨fun h => ⟨h.1, h.2⟩, fun h => ⟨h.partition, h.size⟩⟩

/-- What a part of the parser has to leave as it is. -/
@[mk_iff keeps_iff]
structure Keeps (vp8 vp8' : RTPPayloadVP8) : Prop where
  beginningOfPartition : vp8'.beginningOfPartition = vp8.beginningOfPartition
  frameType : vp8'.frameType = vp8.frameType
  data : vp8'.data = vp8.data
  dataLength : vp8'.dataLength = vp8.dataLength

theorem Keeps.refl (vp8 : RTPPayloadVP8) : Keeps vp8 vp8 := ⟨rfl, rfl, rfl, rfl⟩

theorem Keeps.trans {a b c : RTPPayloadVP8} (h : Keeps a b) (h' : Keeps b c) : Keeps a c where
  beginningOfPartition := h'.beginningOfPartition.trans h.beginningOfPartition
  frameType := h'.frameType.trans h.frameType
  data := h'.data.trans h.data
  dataLength := h'.dataLength.trans h.dataLength

/-- A part of the parser takes some bytes if they are there. -/
def Takes (size : Nat) (vp8 : RTPPayloadVP8) (rest : List UInt8) (parsed : Parsed) : Prop :=
  Keeps vp8 parsed.1 ∧ parsed.2 = if size ≤ rest.length then some (rest.drop size) else none

theorem takes_parsePictureID (vp8 : RTPPayloadVP8) (rest : List UInt8) :
    Takes (if bit (rest.getD 0 0) 7 then 2 else 1) vp8 rest (parsePictureID vp8 rest) := by
  cases rest with
  | nil => exact ⟨Keeps.refl vp8, rfl⟩
  | cons byte rest =>
      rw [List.getD_cons_zero]
      cases hlong : bit byte 7 with
      | false => simp [Takes, parsePictureID, hlong, keeps_iff]
      | true =>
          cases rest with
          | nil => simp [Takes, parsePictureID, hlong, keeps_iff]
          | cons next rest => simp [Takes, parsePictureID, hlong, keeps_iff]

theorem takes_parseTl0PicIdx (vp8 : RTPPayloadVP8) (rest : List UInt8) :
    Takes 1 vp8 rest (parseTl0PicIdx vp8 rest) := by
  cases rest with
  | nil => exact ⟨Keeps.refl vp8, rfl⟩
  | cons byte rest => exact ⟨⟨rfl, rfl, rfl, rfl⟩, by simp [parseTl0PicIdx]⟩

theorem takes_parseTIDAndKeyIdx (vp8 : RTPPayloadVP8) (rest : List UInt8) :
    Takes 1 vp8 rest (parseTIDAndKeyIdx vp8 rest) := by
  cases rest with
  | nil => exact ⟨Keeps.refl vp8, rfl⟩
  | cons byte rest =>
      refine ⟨?_, by simp [parseTIDAndKeyIdx]⟩
      rw [parseTIDAndKeyIdx]
      dsimp only
      split_ifs <;> exact ⟨rfl, rfl, rfl, rfl⟩

/-- An optional field behind what has been taken before. -/
theorem Takes.parseIf {size size' : Nat} {vp8 : RTPPayloadVP8} {rest : List UInt8} {parsed : Parsed}
    (h : Takes size vp8 rest parsed) (condition : Bool) {parse : RTPPayloadVP8 → List UInt8 → Parsed}
    (h' : ∀ vp8, Takes size' vp8 (rest.drop size) (parse vp8 (rest.drop size))) :
    Takes (size + if condition then size' else 0) vp8 rest (parseIf condition parse parsed) := by
  obtain ⟨vp8', left⟩ := parsed
  obtain ⟨hkeeps, hleft⟩ := h
  by_cases hsize : size ≤ rest.length
  · rw [if_pos hsize] at hleft
    subst hleft
    cases condition with
    | false => exact ⟨hkeeps, by simp [RtpVP8Parser.parseIf, hsize]⟩
    | true =>
        obtain ⟨hkeeps', hleft'⟩ := h' vp8'
        refine ⟨hkeeps.trans hkeeps', ?_⟩
        rw [RtpVP8Parser.parseIf, if_pos rfl, hleft', List.length_drop, List.drop_drop, if_pos rfl]
        have hiff : size' ≤ rest.length - size ↔ size + size' ≤ rest.length := by omega
        simp only [hiff]
  · rw [if_neg hsize] at hleft
    subst hleft
    refine ⟨hkeeps, ?_⟩
    rw [if_neg (by omega)]
    rfl

theorem takes_parseExtension (vp8 : RTPPayloadVP8) (first : UInt8) (hextension : bit first 7 = true)
    (rest : List UInt8) :
    Takes (descriptorSize (first :: rest) - 1) vp8 rest (parseExtension vp8 rest) := by
  cases rest with
  | nil =>
      refine ⟨Keeps.refl vp8, ?_⟩
      rw [descriptorSize, List.getD_cons_zero, if_pos hextension]
      simp only [List.length_nil]
      rw [if_neg (by omega)]
      rfl
  | cons flags rest =>
      set marked : RTPPayloadVP8 := { vp8 with
        hasPictureID := some (bit flags 7)
        hasTl0PicIdx := some (bit flags 6)
        hasTID := some (bit flags 5)
        hasKeyIdx := some (bit flags 4) } with hmarked
      have hstart : Takes 0 marked rest (marked, some rest) := ⟨Keeps.refl marked, by simp⟩
      have hpicture := hstart.parseIf (bit flags 7) fun vp8 => takes_parsePictureID vp8 rest
      have hlayers := hpicture.parseIf (bit flags 6) fun vp8 => takes_parseTl0PicIdx vp8 _
      obtain ⟨hkeeps, hleft⟩ := hlayers.parseIf (bit flags 5 || bit flags 4) fun vp8 => takes_parseTIDAndKeyIdx vp8 _
      have hmarks : Keeps vp8 marked := ⟨rfl, rfl, rfl, rfl⟩
      refine ⟨hmarks.trans hkeeps, hleft.trans ?_⟩
      have hsize : descriptorSize (first :: flags :: rest) - 1
          = 0 + (if bit flags 7 then if bit (rest.getD 0 0) 7 then 2 else 1 else 0)
            + (if bit flags 6 then 1 else 0) + (if bit flags 5 || bit flags 4 then 1 else 0) + 1 := by
        rw [descriptorSize, List.getD_cons_zero, if_pos hextension, List.getD_cons_succ, List.getD_cons_zero,
          List.getD_cons_succ, List.getD_cons_succ]
        dsimp only
        omega
      rw [hsize, List.length_cons, List.drop_succ_cons]
      simp only [Nat.add_le_add_iff_right]

/-- The descriptor takes its size from the payload. -/
theorem takes_descriptor (first : UInt8) (rest : List UInt8) :
    Takes (descriptorSize (first :: rest) - 1) (parseFirst first) rest
      (if bit first 7 then parseExtension (parseFirst first) rest else (parseFirst first, some rest)) := by
  cases hextension : bit first 7 with
  | true => exact takes_parseExtension (parseFirst first) first hextension rest
  | false =>
      refine ⟨Keeps.refl _, ?_⟩
      have hsize : descriptorSize (first :: rest) - 1 = 0 := by
        rw [descriptorSize, List.getD_cons_zero, hextension]
        rfl
      rw [hsize, if_pos (Nat.zero_le _)]
      rfl

theorem descriptorSize_pos (payload : List UInt8) : 0 < descriptorSize payload := by
  unfold descriptorSize
  split
  · exact Nat.add_pos_left (Nat.add_pos_left (Nat.add_pos_left Nat.two_pos _) _) _
  · exact Nat.one_pos

theorem parseData_some (payload : List UInt8) (vp8 : RTPPayloadVP8) {data : List UInt8} (hne : data ≠ []) :
    (parseData payload (vp8, some data)).frameType.isSome
      ∧ (parseData payload (vp8, some data)).data = some (payload.length - data.length)
      ∧ (parseData payload (vp8, some data)).dataLength = some data.length := by
  obtain ⟨first, rest, rfl⟩ := List.exists_cons_of_ne_nil hne
  refine ⟨?_, rfl, rfl⟩
  rw [parseData, parseFrameSize]
  split_ifs <;> rfl

theorem beginningOfPartition_parseData (payload : List UInt8) (parsed : Parsed) :
    (parseData payload parsed).beginningOfPartition = parsed.1.beginningOfPartition := by
  obtain ⟨vp8, _ | _ | ⟨first, rest⟩⟩ := parsed
  · rfl
  · rfl
  · rw [parseData, parseFrameSize]
    split_ifs <;> rfl

theorem parseVP8_of_described {payload : List UInt8} (h : Described payload) (stale : UInt8) :
    (parseVP8 payload stale).frameType.isSome
      ∧ (parseVP8 payload stale).data = some (descriptorSize payload)
      ∧ (parseVP8 payload stale).dataLength = some (payload.length - descriptorSize payload) := by
  obtain ⟨hpartition, hsize⟩ := h
  cases payload with
  | nil => exact absurd hsize (Nat.not_lt_zero _)
  | cons first rest =>
      have hpos := descriptorSize_pos (first :: rest)
      have hpartition' : ¬ (parseFirst first).partitionID > 8 := Nat.not_lt.mpr hpartition
      obtain ⟨-, hleft⟩ := takes_descriptor first rest
      rw [List.length_cons] at hsize
      have hfits : descriptorSize (first :: rest) - 1 ≤ rest.length := by omega
      rw [if_pos hfits] at hleft
      rw [parseVP8, List.headD_cons, List.tail_cons, if_neg hpartition']
      set parsed := if bit first 7 then parseExtension (parseFirst first) rest else (parseFirst first, some rest)
      have hdata : rest.drop (descriptorSize (first :: rest) - 1) ≠ [] := by
        intro hnil
        have hlength := congrArg List.length hnil
        rw [List.length_drop, List.length_nil] at hlength
        omega
      have hparsed : parsed = (parsed.1, some (rest.drop (descriptorSize (first :: rest) - 1))) :=
        Prod.ext rfl hleft
      obtain ⟨htype, hplace, hlength⟩ := parseData_some (first :: rest) parsed.1 hdata
      rw [← hparsed] at htype hplace hlength
      rw [List.length_drop] at hplace hlength
      rw [hplace, hlength, List.length_cons]
      refine ⟨htype, congrArg some ?_, congrArg some ?_⟩ <;> omega

theorem parseVP8_of_not_described {payload : List UInt8} (h : ¬ Described payload) (stale : UInt8) :
    (parseVP8 payload stale).frameType = none ∧ (parseVP8 payload stale).data = none
      ∧ (parseVP8 payload stale).dataLength = none := by
  have hunset (vp8 : RTPPayloadVP8) (hkeeps : Keeps (parseFirst (payload.headD stale)) vp8) :
      vp8.frameType = none ∧ vp8.data = none ∧ vp8.dataLength = none :=
    ⟨hkeeps.frameType, hkeeps.data, hkeeps.dataLength⟩
  rw [parseVP8]
  by_cases hpartition : (parseFirst (payload.headD stale)).partitionID > 8
  · rw [if_pos hpartition]
    exact hunset _ (Keeps.refl _)
  rw [if_neg hpartition]
  cases payload with
  | nil =>
      have hstop : parseData [] (if bit stale 7 then parseExtension (parseFirst stale) []
          else (parseFirst stale, some [])) = parseFirst stale := by
        split_ifs <;> rfl
      rw [List.headD_nil, List.tail_nil, hstop]
      exact hunset _ (Keeps.refl _)
  | cons first rest =>
      obtain ⟨hkeeps, hleft⟩ := takes_descriptor first rest
      have hpos := descriptorSize_pos (first :: rest)
      have hlong : rest.length ≤ descriptorSize (first :: rest) - 1 := by
        by_contra hshort
        refine h ⟨Nat.not_lt.mp hpartition, ?_⟩
        rw [List.length_cons]
        omega
      rw [List.headD_cons, List.tail_cons]
      rw [List.headD_cons] at hunset
      set parsed := if bit first 7 then parseExtension (parseFirst first) rest else (parseFirst first, some rest)
      have hstop : parseData (first :: rest) parsed = parsed.1 := by
        have hparsed : parsed = (parsed.1, parsed.2) := rfl
        rw [hparsed, hleft, List.drop_of_length_le hlong]
        split_ifs <;> rfl
      rw [hstop]
      exact hunset _ hkeeps

/-- The S bit is read from whatever stands there. -/
theorem beginningOfPartition_parseVP8 (payload : List UInt8) (stale : UInt8) :
    (parseVP8 payload stale).beginningOfPartition = bit (payload.headD stale) 4 := by
  rw [parseVP8]
  split_ifs with hpartition hextension
  · rfl
  · rw [beginningOfPartition_parseData]
    cases payload with
    | nil => rfl
    | cons first rest =>
        exact (takes_parseExtension _ first hextension rest).1.beginningOfPartition
  · rw [beginningOfPartition_parseData]
    rfl

/-! ### What stands behind the packet -/

theorem byteAt_stale {buf : List UInt8} {i : Nat} (h : i < buf.length) (stale stale' : Nat → UInt8) :
    byteAt buf stale' i = byteAt buf stale i := by
  rw [byteAt, byteAt, List.getD_eq_getElem _ _ h, List.getD_eq_getElem _ _ h]

/-- A header that ends within the packet is read from the packet alone. -/
theorem getHeaderLength_stale {buf : List UInt8} {stale : Nat → UInt8} (h : getHeaderLength buf stale < buf.length)
    (stale' : Nat → UInt8) : getHeaderLength buf stale' = getHeaderLength buf stale := by
  have hfirst := byteAt_stale (show 0 < buf.length by omega) stale stale'
  rw [getHeaderLength] at h ⊢
  rw [getHeaderLength, hfirst]
  rcases Nat.mod_two_eq_zero_or_one ((byteAt buf stale 0).toNat / 16) with hplain | hextended
  · rw [hplain, Nat.zero_mul, Nat.zero_mul]
  · -- the length of the extension is then within the header
    rw [hextended] at h
    rw [byteAt_stale (show 14 < buf.length by omega) stale stale',
      byteAt_stale (show 15 < buf.length by omega) stale stale']

theorem payloadOf_stale {buf : List UInt8} {stale : Nat → UInt8} (h : payloadOf buf stale ≠ []) (stale' : Nat → UInt8) :
    payloadOf buf stale' = payloadOf buf stale := by
  have hlen : getHeaderLength buf stale < buf.length := by
    by_contra hge
    exact h (List.drop_eq_nil_of_le (not_lt.mp hge))
  rw [payloadOf, payloadOf, getHeaderLength_stale hlen stale']

theorem Described.ne_nil {payload : List UInt8} (h : Described payload) : payload ≠ [] := by
  rintro rfl
  exact absurd h.size (Nat.not_lt_zero _)

theorem Described.stale {buf : List UInt8} {stale : Nat → UInt8} (h : Described (payloadOf buf stale))
    (stale' : Nat → UInt8) : payloadOf buf stale' = payloadOf buf stale :=
  payloadOf_stale h.ne_nil stale'

theorem parseVP8_stale {payload : List UInt8} (h : payload ≠ []) (stale stale' : UInt8) :
    parseVP8 payload stale = parseVP8 payload stale' := by
  obtain ⟨first, rest, rfl⟩ := List.exists_cons_of_ne_nil h
  rfl

end RtpVP8Parser

end Licode.Media
