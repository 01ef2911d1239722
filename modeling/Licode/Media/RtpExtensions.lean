import Licode.Media.PacketCopies
import Licode.Media.RtcpBounds
import Licode.Media.SdpParser

/-!
# Header extensions

Before a packet is sent `RtpExtensionProcessor` goes through its header extensions and writes the time into those that
the description maps to abs-send-time. The ids that the description gives are indices of two arrays, and the bytes of
the packet say where the next extension begins: neither is compared with a bound.

The clock is a parameter: what the time would be in each turn of the loop.
-/

namespace Licode.Media

open Overlay Rtcp Sdp

/-! ### The maps -/

inductive RtpExtension where
  | ssrcAudioLevel
  | absSendTime
  | toffset
  | videoOrientation
  | playbackTime
  deriving DecidableEq, Repr

/-- The value of the enumeration. The first one is also that of an id without an extension. -/
def RtpExtension.value : RtpExtension → Nat
  | .ssrcAudioLevel => 0
  | .absSendTime => 1
  | .toffset => 2
  | .videoOrientation => 3
  | .playbackTime => 4

def translationMap : List (AString × RtpExtension) :=
  [(ascii "urn:ietf:params:rtp-hdrext:ssrc-audio-level", .ssrcAudioLevel),
    (ascii "http://www.webrtc.org/experiments/rtp-hdrext/abs-send-time", .absSendTime),
    (ascii "urn:ietf:params:rtp-hdrext:toffset", .toffset),
    (ascii "urn:3gpp:video-orientation", .videoOrientation),
    (ascii "http://www.webrtc.org/experiments/rtp-hdrext/playout-delay", .playbackTime)]

/-- `int[10]`. -/
abbrev ExtensionArray := Vector Nat 10

def ExtensionArray.load (extMap : ExtensionArray) (index : Nat) : Checked Nat :=
  if h : index < 10 then .ok extMap[index] else .error .outOfBounds

def ExtensionArray.store (extMap : ExtensionArray) (index value : Nat) : Checked ExtensionArray :=
  if h : index < 10 then .ok (extMap.set index value) else .error .outOfBounds

theorem ExtensionArray.load_of_lt {extMap : ExtensionArray} {index : Nat} (h : index < 10) :
    extMap.load index = .ok extMap[index] :=
  dif_pos h

theorem ExtensionArray.store_of_lt {extMap : ExtensionArray} {index : Nat} (h : index < 10) (value : Nat) :
    extMap.store index value = .ok (extMap.set index value) :=
  dif_pos h

theorem ExtensionArray.store_of_not_lt {extMap : ExtensionArray} {index : Nat} (h : ¬ index < 10) (value : Nat) :
    extMap.store index value = .error .outOfBounds :=
  dif_neg h

structure RtpExtensionProcessor where
  extMapVideo : ExtensionArray
  extMapAudio : ExtensionArray
  deriving DecidableEq

namespace RtpExtensionProcessor

def create : RtpExtensionProcessor := ⟨.replicate 10 0, .replicate 10 0⟩

/-- A turn of the loop of `setSdpInfo`. -/
def addExtMap (processor : RtpExtensionProcessor) (theMap : ExtMap) : Checked RtpExtensionProcessor :=
  match theMap.mediaType, translationMap.lookup theMap.uri with
  | .video, some extension => do
      let extMapVideo ← processor.extMapVideo.store theMap.value.toNat extension.value
      return { processor with extMapVideo }
  | .audio, some extension => do
      let extMapAudio ← processor.extMapAudio.store theMap.value.toNat extension.value
      return { processor with extMapAudio }
  | _, _ => .ok processor

def setSdpInfo (processor : RtpExtensionProcessor) (theInfo : Sdp.SdpInfo) : Checked RtpExtensionProcessor :=
  theInfo.extMapVector.foldlM addExtMap processor

/-- The map for a type of packets. -/
def extMap? (processor : RtpExtensionProcessor) : PacketType → Option ExtensionArray
  | .video => some processor.extMapVideo
  | .audio => some processor.extMapAudio
  | .other => none

end RtpExtensionProcessor

/-! ### The loop -/

/-- `setAbsSendTime`: the three lower bytes of the time behind the first byte of the extension. -/
def processAbsSendTime (buf : List UInt8) (offset : Nat) (time : UInt32) : Checked (List UInt8) :=
  store buf (offset + 1) (image 3 time.toNat)

/-- What is done with the extension at a place. -/
def processExtension (extMap : ExtensionArray) (time : UInt32) (extId : Nat) (buf : List UInt8) (offset : Nat) :
    Checked (List UInt8) :=
  if extId ≠ 0 then do
    let extension ← extMap.load extId
    if extension ≠ 0 ∧ extension = RtpExtension.absSendTime.value then processAbsSendTime buf offset time
    else return buf
  else return buf

/-- `while (currentPlace < size)`. A place of 16 bits is counted beside the offset. -/
def processExtensions (extMap : ExtensionArray) (clock : Nat → UInt32) (size : Nat) :
    Nat → Nat → UInt16 → Nat → List UInt8 → Checked (List UInt8)
  | 0, _, _, _, _ => .error .diverged
  | fuel + 1, turn, currentPlace, offset, buf =>
      if currentPlace.toNat < size then do
        let extByte ← load buf offset 1
        let extId := number extByte / 16
        let extLength := number extByte % 16
        let buf ← processExtension extMap (clock turn) extId buf offset
        processExtensions extMap clock size fuel (turn + 1) (currentPlace + .ofNat extLength + 2)
          (offset + extLength + 2) buf
      else return buf

/-- `RtpHeader::hasextension`. -/
def getExtension (buf : List UInt8) : Checked Bool := do
  let byte ← load buf 0 1
  return number byte / 16 % 2 = 1

def getExtId (buf : List UInt8) : Checked Nat := do
  let id ← load buf 12 2
  return number id

def getExtLength (buf : List UInt8) : Checked Nat := do
  let length ← load buf 14 2
  return number length

def RtpExtensionProcessor.processRtpExtensions (processor : RtpExtensionProcessor) (clock : Nat → UInt32)
    (p : DataPacket) : Checked (Nat × DataPacket) := do
  let len := p.data.length
  let extension ← getExtension p.data
  if extension then
    match processor.extMap? p.type with
    | none => return (0, p)
    | some extMap =>
        let totalExtLength ← getExtLength p.data
        let id ← getExtId p.data
        if id = 0xBEDE then
          let data ← processExtensions extMap clock (totalExtLength * 4) (len + 1) 0 1 16 p.data
          return (len, { p with data })
        else return (len, p)
  else return (len, p)

/-! ### What the maps hold -/

/-- The kind of packets that a description of a media is about. -/
def PacketType.mediaType : PacketType → MediaType
  | .video => .video
  | .audio => .audio
  | .other => .other

/-- The last known extension that is described under an id for a media. -/
def meaning (exts : List ExtMap) (mediaType : MediaType) (id : Nat) : Option RtpExtension :=
  exts.reverse.findSome? fun ext =>
    if ext.mediaType = mediaType ∧ ext.value.toNat = id then translationMap.lookup ext.uri else none

/-- The ids of known extensions are indices of the arrays. -/
def IdsFit (exts : List ExtMap) : Prop :=
  ∀ ext ∈ exts, ext.mediaType ≠ .other → (translationMap.lookup ext.uri).isSome → ext.value.toNat < 10

namespace RtpExtensionProcessor

def Holds (exts : List ExtMap) (processor : RtpExtensionProcessor) : Prop :=
  ∀ type extMap, processor.extMap? type = some extMap → ∀ (id : Nat) (h : id < 10),
    extMap[id] = ((meaning exts type.mediaType id).map RtpExtension.value).getD 0

theorem holds_create : Holds [] create := by
  rintro type extMap htype id h
  cases type <;> cases htype <;> exact Vector.getElem_replicate h

theorem meaning_append (exts : List ExtMap) (ext : ExtMap) (mediaType : MediaType) (id : Nat) :
    meaning (exts ++ [ext]) mediaType id
      = (if ext.mediaType = mediaType ∧ ext.value.toNat = id then translationMap.lookup ext.uri else none).or
        (meaning exts mediaType id) := by
  rw [meaning, List.reverse_append, List.reverse_singleton, List.singleton_append, List.findSome?_cons]
  split
  · rename_i hsome
    rw [hsome]
    rfl
  · rename_i hnone
    rw [hnone]
    rfl

/-- What is new in one of the arrays. -/
theorem getElem_store {exts : List ExtMap} {ext : ExtMap} {extension : RtpExtension} {mediaType : MediaType}
    {extMap : ExtensionArray} (hmedia : ext.mediaType = mediaType)
    (hlookup : translationMap.lookup ext.uri = some extension)
    (hold : ∀ (id : Nat) (h : id < 10), extMap[id] = ((meaning exts mediaType id).map RtpExtension.value).getD 0)
    (hin : ext.value.toNat < 10) (id : Nat) (h : id < 10) :
    (extMap.set ext.value.toNat extension.value)[id]
      = ((meaning (exts ++ [ext]) mediaType id).map RtpExtension.value).getD 0 := by
  rw [meaning_append, Vector.getElem_set, hmedia, hlookup, hold id h]
  by_cases hid : ext.value.toNat = id
  · rw [if_pos hid, if_pos ⟨rfl, hid⟩]
    rfl
  · rw [if_neg hid, if_neg fun hboth => hid hboth.2]
    rfl

/-- An entry says nothing of the other media. -/
theorem meaning_append_of_ne {exts : List ExtMap} {ext : ExtMap} {mediaType : MediaType}
    (hnone : ext.mediaType ≠ mediaType ∨ translationMap.lookup ext.uri = none) (id : Nat) :
    meaning (exts ++ [ext]) mediaType id = meaning exts mediaType id := by
  rw [meaning_append]
  obtain hne | hnone := hnone
  · rw [if_neg fun hboth => hne hboth.1, Option.none_or]
  · rw [hnone, ite_self, Option.none_or]

/-- An entry says nothing of the other arrays. -/
theorem Holds.of_ne {exts : List ExtMap} {processor : RtpExtensionProcessor} (hold : Holds exts processor)
    {ext : ExtMap} {type : PacketType} {extMap : ExtensionArray}
    (hnone : ext.mediaType ≠ type.mediaType ∨ translationMap.lookup ext.uri = none)
    (htype : processor.extMap? type = some extMap) (id : Nat) (h : id < 10) :
    extMap[id] = ((meaning (exts ++ [ext]) type.mediaType id).map RtpExtension.value).getD 0 := by
  rw [meaning_append_of_ne hnone, hold type extMap htype id h]

/-- The array of the entry's media gets it, if the id is an index. -/
theorem needs_store {exts : List ExtMap} {processor : RtpExtensionProcessor} (hold : Holds exts processor)
    {ext : ExtMap} {extension : RtpExtension} (hlookup : translationMap.lookup ext.uri = some extension)
    {type : PacketType} (hmedia : ext.mediaType = type.mediaType) (hother : type.mediaType ≠ .other)
    {extMap : ExtensionArray} (hmap : processor.extMap? type = some extMap)
    {put : ExtensionArray → RtpExtensionProcessor} (hself : ∀ stored, (put stored).extMap? type = some stored)
    (hothers : ∀ stored type', type' ≠ type → (put stored).extMap? type' = processor.extMap? type') :
    Needs .outOfBounds (IdsFit [ext]) (Holds (exts ++ [ext]))
      (extMap.store ext.value.toNat extension.value >>= fun stored => .ok (put stored)) := by
  have hfits : IdsFit [ext] ↔ ext.value.toNat < 10 := by
    rw [IdsFit, List.forall_mem_singleton, hmedia, hlookup]
    exact ⟨fun h => h hother rfl, fun h _ _ => h⟩
  by_cases hin : ext.value.toNat < 10
  · rw [ExtensionArray.store_of_lt hin]
    refine Needs.ok (hfits.mpr hin) ?_
    intro type' extMap' htype
    by_cases hsame : type' = type
    · rw [hsame, hself] at htype
      cases htype
      rw [hsame]
      exact getElem_store hmedia hlookup (hold type extMap hmap) hin
    · rw [hothers _ _ hsame] at htype
      refine hold.of_ne (.inl ?_) htype
      rw [hmedia]
      cases type' <;> cases type <;> first | exact absurd rfl hsame | exact MediaType.noConfusion
  · rw [ExtensionArray.store_of_not_lt hin]
    exact Needs.error fun h => hin (hfits.mp h)

theorem needs_addExtMap {exts : List ExtMap} {processor : RtpExtensionProcessor} (hold : Holds exts processor)
    (ext : ExtMap) : Needs .outOfBounds (IdsFit [ext]) (Holds (exts ++ [ext])) (processor.addExtMap ext) := by
  rw [addExtMap]
  cases hlookup : translationMap.lookup ext.uri with
  | none =>
      have hunchanged : Needs Fault.outOfBounds (IdsFit [ext]) (Holds (exts ++ [ext])) (Except.ok processor) := by
        refine Needs.ok ?_ fun type extMap htype => hold.of_ne (.inr hlookup) htype
        rw [IdsFit, List.forall_mem_singleton, hlookup]
        exact fun _ hsome => absurd hsome Bool.false_ne_true
      cases ext.mediaType <;> exact hunchanged
  | some extension =>
      cases hmedia : ext.mediaType with
      | video =>
          have htype : ext.mediaType = PacketType.mediaType .video := hmedia
          apply needs_store hold hlookup htype MediaType.noConfusion rfl (fun _ => rfl)
          intro stored type' hne
          cases type' <;> first | exact absurd rfl hne | rfl
      | audio =>
          have htype : ext.mediaType = PacketType.mediaType .audio := hmedia
          apply needs_store hold hlookup htype MediaType.noConfusion rfl (fun _ => rfl)
          intro stored type' hne
          cases type' <;> first | exact absurd rfl hne | rfl
      | other =>
          have hfits : IdsFit [ext] := by
            rw [IdsFit, List.forall_mem_singleton]
            exact fun h => absurd hmedia h
          refine Needs.ok hfits fun type extMap htype => hold.of_ne (.inl ?_) htype
          rw [hmedia]
          cases type with
          | video => exact MediaType.noConfusion
          | audio => exact MediaType.noConfusion
          | other => cases htype

theorem idsFit_append {exts exts' : List ExtMap} : IdsFit (exts ++ exts') ↔ IdsFit exts ∧ IdsFit exts' :=
  List.forall_mem_append

/-- The arrays hold what has been described, if all ids are indices. -/
theorem needs_addExtMaps (exts : List ExtMap) :
    Needs .outOfBounds (IdsFit exts) (Holds exts) (exts.foldlM addExtMap create) := by
  induction exts using List.reverseRecOn with
  | nil => exact Needs.ok nofun holds_create
  | append_singleton exts ext ih =>
      rw [List.foldlM_append]
      refine ih.bind (fun h => (idsFit_append.mp h).1) fun hfits processor hold => ?_
      rw [List.foldlM_cons]
      have hlast : (processor.addExtMap ext >>= fun processor => [].foldlM addExtMap processor)
          = processor.addExtMap ext := bind_pure _
      rw [hlast]
      refine (needs_addExtMap hold ext).congr ?_
      rw [idsFit_append, and_iff_right hfits]

theorem needs_setSdpInfos (infos : List Sdp.SdpInfo) :
    Needs .outOfBounds (IdsFit (infos.flatMap Sdp.SdpInfo.extMapVector))
      (Holds (infos.flatMap Sdp.SdpInfo.extMapVector))
      (infos.foldlM setSdpInfo create) := by
  have hall : ∀ processor, infos.foldlM setSdpInfo processor
      = (infos.flatMap Sdp.SdpInfo.extMapVector).foldlM addExtMap processor := by
    induction infos with
    | nil => exact fun _ => rfl
    | cons info infos ih =>
        intro processor
        rw [List.foldlM_cons, List.flatMap_cons, List.foldlM_append, setSdpInfo]
        exact bind_congr ih
  rw [hall]
  exact needs_addExtMaps _

end RtpExtensionProcessor

/-! ### The places of the loop -/

/-- An id that is described as that of abs-send-time for packets of a type. -/
def Timed (exts : List ExtMap) (type : PacketType) (id : Nat) : Prop :=
  type ≠ .other ∧ id ≠ 0 ∧ meaning exts type.mediaType id = some .absSendTime

instance (exts : List ExtMap) (type : PacketType) : DecidablePred (Timed exts type) := fun _ =>
  inferInstanceAs (Decidable (_ ∧ _))

def numberAt (buf : List UInt8) (offset : Nat) : Nat := number (read buf offset 1)

/-- Where the next extension would begin. -/
def behindExtension (buf : List UInt8) (offset : Nat) : Nat := offset + numberAt buf offset % 16 + 2

section Walk

variable (timed : Nat → Prop) [DecidablePred timed] (clock : Nat → UInt32)

/-- The bytes after a turn of the loop. -/
def stamped (time : UInt32) (buf : List UInt8) (offset : Nat) : List UInt8 :=
  if timed (numberAt buf offset / 16) then write buf (offset + 1) (image 3 time.toNat) else buf

/-- The places that the loop comes to before the last byte of the block, each with the bytes as they are by then. -/
inductive ExtensionReached (last : Nat) : Nat → Nat → List UInt8 → Nat → List UInt8 → Prop
  | here {turn offset : Nat} {buf : List UInt8} (hmore : offset < last) :
      ExtensionReached last turn offset buf offset buf
  | behind {turn offset : Nat} {buf : List UInt8} {offset' : Nat} {buf' : List UInt8} (hmore : offset < last)
      (hreached : ExtensionReached last (turn + 1) (behindExtension buf offset) (stamped timed (clock turn) buf offset)
        offset' buf') :
      ExtensionReached last turn offset buf offset' buf'

/-- What is accessed at a place is there: the byte, the element of the array, and the time. -/
structure ExtensionInside (buf : List UInt8) (offset : Nat) : Prop where
  byte : offset < buf.length
  index : numberAt buf offset / 16 < 10
  time : timed (numberAt buf offset / 16) → offset + 4 ≤ buf.length

def ExtensionsInside (last turn offset : Nat) (buf : List UInt8) : Prop :=
  ∀ offset' buf', ExtensionReached timed clock last turn offset buf offset' buf' → ExtensionInside timed buf' offset'

variable {timed clock}

theorem extensionsInside_iff {last turn offset : Nat} {buf : List UInt8} (hmore : offset < last) :
    ExtensionsInside timed clock last turn offset buf ↔ ExtensionInside timed buf offset
      ∧ ExtensionsInside timed clock last (turn + 1) (behindExtension buf offset)
        (stamped timed (clock turn) buf offset) := by
  constructor
  · intro h
    exact ⟨h _ _ (.here hmore), fun offset' buf' hreached => h _ _ (.behind hmore hreached)⟩
  · rintro ⟨hhere, hbehind⟩ offset' buf' hreached
    cases hreached with
    | here => exact hhere
    | behind _ hreached => exact hbehind _ _ hreached

theorem extensionsInside_of_end {last turn offset : Nat} {buf : List UInt8} (hend : ¬ offset < last) :
    ExtensionsInside timed clock last turn offset buf := by
  intro offset' buf' hreached
  cases hreached with
  | here hmore => exact absurd hmore hend
  | behind hmore => exact absurd hmore hend

theorem length_stamped (time : UInt32) (buf : List UInt8) (offset : Nat) :
    (stamped timed time buf offset).length = buf.length := by
  rw [stamped]
  split_ifs
  · exact length_write _ _ _
  · rfl

/-- The array says of every id whether it is that of abs-send-time. -/
def ExtensionArray.Says (extMap : ExtensionArray) (timed : Nat → Prop) : Prop :=
  ∀ (id : Nat) (h : id < 10), id ≠ 0 ∧ extMap[id] = RtpExtension.absSendTime.value ↔ timed id

variable {extMap : ExtensionArray}

theorem needs_processExtension (htimed : extMap.Says timed) (time : UInt32) {buf : List UInt8} {offset : Nat}
    (hbyte : offset < buf.length) :
    Needs .outOfBounds (ExtensionInside timed buf offset) (· = stamped timed time buf offset)
      (processExtension extMap time (numberAt buf offset / 16) buf offset) := by
  rw [processExtension, stamped]
  by_cases hzero : numberAt buf offset / 16 = 0
  · -- an id of zero is not looked for
    have hnot : ¬ timed (numberAt buf offset / 16) := by
      rw [hzero, ← htimed 0 (by decide)]
      exact fun h => h.1 rfl
    rw [if_neg (not_not_intro hzero), if_neg hnot]
    refine Needs.ok ⟨hbyte, ?_, fun h => absurd h hnot⟩ rfl
    rw [hzero]
    decide
  · rw [if_pos hzero]
    by_cases hindex : numberAt buf offset / 16 < 10
    · have hiff := htimed _ hindex
      rw [and_iff_right hzero] at hiff
      rw [ExtensionArray.load_of_lt hindex, Checked.ok_bind]
      by_cases hid : timed (numberAt buf offset / 16)
      · have hvalue := hiff.mpr hid
        rw [if_pos hid, if_pos ⟨by rw [hvalue]; decide, hvalue⟩]
        refine (needs_store buf (offset + 1) _).congr ?_
        rw [length_image]
        exact ⟨fun h => ⟨hbyte, hindex, fun _ => h⟩, fun h => h.time hid⟩
      · rw [if_neg hid, if_neg fun h => hid (hiff.mp h.2)]
        exact Needs.ok ⟨hbyte, hindex, fun h => absurd h hid⟩ rfl
    · have hload : extMap.load (numberAt buf offset / 16) = .error .outOfBounds := dif_neg hindex
      rw [hload]
      exact Needs.error fun h => hindex h.index

/-- Where the loop is in a packet. There are enough turns, and the place of 16 bits has not wrapped around. -/
structure LoopPlace (fuel : Nat) (currentPlace : UInt16) (offset : Nat) (buf : List UInt8) : Prop where
  length : buf.length ≤ dataPacketSize
  place : offset = 15 + currentPlace.toNat
  near : offset < buf.length + 17
  turns : 0 < fuel
  enough : buf.length < fuel + offset

theorem LoopPlace.start {p : DataPacket} (hlength : p.data.length ≤ dataPacketSize) :
    LoopPlace (p.data.length + 1) 1 16 p.data :=
  ⟨hlength, rfl, by omega, by omega, by omega⟩

theorem LoopPlace.next {fuel : Nat} {currentPlace : UInt16} {offset : Nat} {buf : List UInt8}
    (h : LoopPlace (fuel + 1) currentPlace offset buf) (hin : offset < buf.length) (time : UInt32) :
    LoopPlace fuel (currentPlace + .ofNat (numberAt buf offset % 16) + 2) (behindExtension buf offset)
      (stamped timed time buf offset) := by
  obtain ⟨hlength, hplace, hoffset, hpos, hfuel⟩ := h
  have hlen := @length_stamped timed _ time buf offset
  have hsize : dataPacketSize = 1500 := rfl
  have hmod : numberAt buf offset % 16 < 16 := Nat.mod_lt _ (by decide)
  have htwo : (2 : UInt16).toNat = 2 := rfl
  have hnext : (currentPlace + .ofNat (numberAt buf offset % 16) + 2).toNat
      = currentPlace.toNat + numberAt buf offset % 16 + 2 := by
    rw [UInt16.toNat_add, UInt16.toNat_add, UInt16.toNat_ofNat', htwo]
    omega
  refine ⟨hlen.trans_le hlength, ?_, ?_, by omega, ?_⟩
  · rw [behindExtension, hnext, hplace]
    omega
  · rw [behindExtension, hlen]
    omega
  · rw [behindExtension, hlen]
    omega

section Turn

variable {size fuel turn : Nat} {currentPlace : UInt16} {offset : Nat} {buf : List UInt8}

theorem processExtensions_of_inside (htimed : extMap.Says timed) (hmore : currentPlace.toNat < size)
    (hinside : ExtensionInside timed buf offset) :
    processExtensions extMap clock size (fuel + 1) turn currentPlace offset buf
      = processExtensions extMap clock size fuel (turn + 1) (currentPlace + .ofNat (numberAt buf offset % 16) + 2)
        (behindExtension buf offset) (stamped timed (clock turn) buf offset) := by
  obtain ⟨buf', hprocess, rfl⟩ := (needs_processExtension htimed (clock turn) hinside.byte).1 hinside
  rw [numberAt] at hprocess
  have hbyte : offset + 1 ≤ buf.length := hinside.byte
  rw [processExtensions, if_pos hmore, load, if_pos hbyte, Checked.ok_bind]
  dsimp only
  rw [hprocess]
  rfl

theorem processExtensions_of_outside (htimed : extMap.Says timed) (hmore : currentPlace.toNat < size)
    (houtside : ¬ ExtensionInside timed buf offset) :
    processExtensions extMap clock size (fuel + 1) turn currentPlace offset buf = .error .outOfBounds := by
  rw [processExtensions, if_pos hmore, load]
  split_ifs with hbyte
  · have hprocess := (needs_processExtension htimed (clock turn) hbyte).2 houtside
    rw [numberAt] at hprocess
    rw [Checked.ok_bind]
    dsimp only
    rw [hprocess]
    rfl
  · rfl

end Turn

/-- **The loop comes to its end inside of the packet and of the array just if all of its places are inside.** -/
theorem needs_processExtensions (htimed : extMap.Says timed) {size fuel turn : Nat} {currentPlace : UInt16}
    {offset : Nat}
    {buf : List UInt8} (hplace : LoopPlace fuel currentPlace offset buf) :
    Needs .outOfBounds (ExtensionsInside timed clock (15 + size) turn offset buf) (fun _ => True)
      (processExtensions extMap clock size fuel turn currentPlace offset buf) := by
  induction fuel generalizing turn currentPlace offset buf with
  | zero => exact absurd hplace.turns (Nat.lt_irrefl 0)
  | succ fuel ih =>
      have hoffset := hplace.place
      by_cases hmore : currentPlace.toNat < size
      · have hbefore : offset < 15 + size := by omega
        by_cases hhere : ExtensionInside timed buf offset
        · rw [processExtensions_of_inside htimed hmore hhere]
          refine (ih (hplace.next hhere.byte _)).congr ?_
          rw [extensionsInside_iff hbefore, and_iff_right hhere]
        · rw [processExtensions_of_outside htimed hmore hhere]
          exact Needs.error fun h => hhere ((extensionsInside_iff hbefore).mp h).1
      · rw [processExtensions, if_neg hmore]
        exact Needs.ok (extensionsInside_of_end (by omega)) trivial

end Walk

/-! ### The packet -/

def hasExtension (p : DataPacket) : Bool := number (read p.data 0 1) / 16 % 2 = 1

/-- The end of the block that the loop goes through, less one byte. -/
def lastPlace (p : DataPacket) : Nat := 15 + number (read p.data 14 2) * 4

/-- What is accessed of a packet is there. The first 16 bytes are taken for the header, whatever it says of CSRCs. -/
def ExtensionHeaderInside (exts : List ExtMap) (clock : Nat → UInt32) (p : DataPacket) : Prop :=
  1 ≤ p.data.length ∧ (hasExtension p = true → p.type ≠ .other → 16 ≤ p.data.length ∧
    (number (read p.data 12 2) = 0xBEDE →
      ExtensionsInside (Timed exts p.type) clock (lastPlace p) 0 16 p.data))

namespace RtpExtensionProcessor

theorem Holds.timedIds {exts : List ExtMap} {processor : RtpExtensionProcessor} (hold : Holds exts processor)
    {type : PacketType} {extMap : ExtensionArray} (hmap : processor.extMap? type = some extMap) :
    extMap.Says (Timed exts type) := by
  intro id h
  have htype : type ≠ .other := by
    rintro rfl
    cases hmap
  rw [Timed, hold type extMap hmap id h, and_iff_right htype]
  refine and_congr_right fun _ => ?_
  cases meaning exts type.mediaType id with
  | none => exact iff_of_false nofun nofun
  | some extension => cases extension <;> decide

theorem needs_processRtpExtensions {exts : List ExtMap} {processor : RtpExtensionProcessor} (hold : Holds exts processor)
    (clock : Nat → UInt32) {p : DataPacket} (hlength : p.data.length ≤ dataPacketSize) :
    Needs .outOfBounds (ExtensionHeaderInside exts clock p) (fun _ => True) (processor.processRtpExtensions clock p) := by
  rw [processRtpExtensions]
  refine needs_get_bind rfl (fun h => h.1) fun hfirst => ?_
  cases hextension : hasExtension p with
  | false =>
      rw [hasExtension] at hextension
      rw [hextension]
      refine Needs.ok ⟨hfirst, fun h => ?_⟩ trivial
      rw [hasExtension, hextension] at h
      cases h
  | true =>
      have hbit := hextension
      rw [hasExtension] at hbit
      rw [hbit, if_pos rfl]
      cases hmap : processor.extMap? p.type with
      | none =>
          have htype : p.type = .other := by
            cases htype : p.type with
            | other => rfl
            | video | audio =>
                rw [htype] at hmap
                cases hmap
          exact Needs.ok ⟨hfirst, fun _ h => absurd htype h⟩ trivial
      | some extMap =>
          have htype : p.type ≠ .other := by
            intro htype
            rw [htype] at hmap
            cases hmap
          have hpart (h : ExtensionHeaderInside exts clock p) := h.2 hextension htype
          refine needs_get_bind rfl (fun h => (hpart h).1) fun hheader => ?_
          refine needs_get_bind rfl (fun h => by have := (hpart h).1; omega) fun _ => ?_
          split_ifs with hid
          · refine ((needs_processExtensions (hold.timedIds hmap) (.start hlength)).congr ?_).bind id
              fun hinside _ _ => Needs.ok hinside trivial
            exact ⟨fun h => ⟨hfirst, fun _ _ => ⟨hheader, fun _ => h⟩⟩, fun h => (hpart h).2 hid⟩
          · exact Needs.ok ⟨hfirst, fun _ _ => ⟨hheader, fun h => absurd h hid⟩⟩ trivial

/-- **A packet is gone through inside of it and of the arrays just if all ids that were described are indices and all that
is accessed of the packet is there.** -/
theorem processRtpExtensions_inside_iff (infos : List Sdp.SdpInfo) (clock : Nat → UInt32) {p : DataPacket}
    (hlength : p.data.length ≤ dataPacketSize) :
    (∃ processor result, infos.foldlM setSdpInfo create = .ok processor
      ∧ processor.processRtpExtensions clock p = .ok result)
      ↔ IdsFit (infos.flatMap Sdp.SdpInfo.extMapVector)
        ∧ ExtensionHeaderInside (infos.flatMap Sdp.SdpInfo.extMapVector) clock p := by
  constructor
  · rintro ⟨processor, result, hset, hprocess⟩
    have hold := (needs_setSdpInfos infos).value hset
    exact ⟨(needs_setSdpInfos infos).ne_error_iff.mp (by rw [hset]; exact nofun),
      (needs_processRtpExtensions hold clock hlength).returns_iff.mp ⟨result, hprocess⟩⟩
  · rintro ⟨hfit, hinside⟩
    obtain ⟨processor, hset, hold⟩ := (needs_setSdpInfos infos).1 hfit
    obtain ⟨result, hprocess, -⟩ := (needs_processRtpExtensions hold clock hlength).1 hinside
    exact ⟨processor, result, hset, hprocess⟩

/-- A description of abs-send-time. -/
def timedText : AString :=
  ascii "m=video\na=extmap:3 http://www.webrtc.org/experiments/rtp-hdrext/abs-send-time\r\n"

def timedExtension : ExtMap :=
  ⟨3, ascii "http://www.webrtc.org/experiments/rtp-hdrext/abs-send-time", .video⟩

def readTimed : Sdp.SdpInfo :=
  { Sdp.SdpInfo.create with hasVideo := true, videoSdpMLine := 0, extMapVector := [timedExtension] }

set_option maxRecDepth 2000 in
theorem processSdp_timedText : Sdp.SdpInfo.create.processSdp timedText [] = .ok (false, readTimed) := by rfl

/-- A packet with one extension of three bytes. -/
def timedPacket : DataPacket :=
  ⟨1, [0x90, 100, 0, 1, 0, 0, 0, 1, 0, 0, 0, 1, 0xBE, 0xDE, 0, 1, 0x32, 7, 8, 9, 42], .video⟩

theorem processRtpExtensions_inside_iff_timedPacket : ∃ processor result,
    [readTimed].foldlM setSdpInfo create = .ok processor
      ∧ processor.processRtpExtensions (fun _ => 5) timedPacket = .ok result := by
  refine (processRtpExtensions_inside_iff [readTimed] (fun _ => 5) (by decide)).mpr ⟨?_, by decide, fun _ _ =>
    ⟨by decide, fun _ => ?_⟩⟩
  · intro ext hext _ _
    rw [List.mem_singleton.mp hext]
    decide
  · exact (extensionsInside_iff (by decide)).mpr ⟨⟨by decide, by decide, by decide⟩, extensionsInside_of_end (by decide)⟩

/-- A description whose id is the number of elements. -/
def tenthId : AString := ascii "m=video\na=extmap:10 urn:3gpp:video-orientation\r\n"

/-- The array is written behind its end. -/
theorem id_behind_array : ∃ answer info, Sdp.SdpInfo.create.processSdp tenthId [] = .ok (answer, info)
    ∧ create.setSdpInfo info = .error .outOfBounds :=
  ⟨_, _, rfl, rfl⟩

end RtpExtensionProcessor

end Licode.Media
