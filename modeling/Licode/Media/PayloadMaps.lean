import Mathlib.Data.List.Induction
import Licode.Media.SdpCodecs

/-!
# Payload types inside and outside

Inside, a codec has the payload type of `internalPayloadVector_`; outside, it has the one that the description gives
it. Both media share the maps from one to the other, and a type that is not in them stays as it is. The questions
whether a type is supported look the outside types up in the map of the inside types, and put in what they miss.
-/

namespace Licode.Media.Sdp

/-! ### Assignments to a map -/

/-- The item is the last one with its key. -/
def LastWith {α κ : Type} (key : α → κ) (items : List α) (a : α) : Prop :=
  ∃ before after, items = before ++ a :: after ∧ ∀ b ∈ after, key b ≠ key a

theorem LastWith.mem {α κ : Type} {key : α → κ} {items : List α} {a : α} (h : LastWith key items a) : a ∈ items := by
  obtain ⟨before, after, rfl, -⟩ := h
  exact List.mem_append_right _ List.mem_cons_self

/-- One item is both the last with its key and the last with another, if a last one has the same two keys. -/
theorem LastWith.of_same {α κ κ' : Type} {key : α → κ} {key' : α → κ'} {items : List α} {a b : α}
    (ha : LastWith key items a) (hb : LastWith key' items b) (hkey : key b = key a) (hkey' : key' a = key' b) :
    a = b := by
  obtain ⟨before, after, hsplit, hafter⟩ := ha
  obtain ⟨before', after', hsplit', hafter'⟩ := hb
  rw [hsplit] at hsplit'
  obtain ⟨between, -, hrest⟩ | ⟨between, -, hrest⟩ := List.append_eq_append_iff.mp hsplit'
  · cases between with
    | nil => exact (List.cons.inj hrest).1
    | cons c between =>
        have hmem : b ∈ after := by
          rw [(List.cons.inj hrest).2]
          exact List.mem_append_right _ List.mem_cons_self
        exact absurd hkey (hafter b hmem)
  · cases between with
    | nil => exact (List.cons.inj hrest).1.symm
    | cons c between =>
        have hmem : a ∈ after' := by
          rw [(List.cons.inj hrest).2]
          exact List.mem_append_right _ List.mem_cons_self
        exact absurd hkey' (hafter' a hmem)

theorem exists_lastWith {α κ : Type} [DecidableEq κ] {key : α → κ} {items : List α} {a : α} (ha : a ∈ items) :
    ∃ last, LastWith key items last ∧ key last = key a := by
  induction items using List.reverseRecOn with
  | nil => cases ha
  | append_singleton items b ih =>
      by_cases hb : key b = key a
      · exact ⟨b, ⟨items, [], rfl, nofun⟩, hb⟩
      · have hmem : a ∈ items := by
          obtain hmem | hmem := List.mem_append.mp ha
          · exact hmem
          · rw [List.mem_singleton.mp hmem] at hb
            exact absurd rfl hb
        obtain ⟨last, ⟨before, after, rfl, hafter⟩, hkey⟩ := ih hmem
        refine ⟨last, ⟨before, after ++ [b], by simp, fun c hc => ?_⟩, hkey⟩
        obtain hc | hc := List.mem_append.mp hc
        · exact hafter c hc
        · rw [List.mem_singleton.mp hc, hkey]
          exact hb

section Assignments

variable {κ ν : Type} [DecidableEq κ] [LT κ] [DecidableLT κ]

theorem lookup_mapSet (key : κ) (value : ν) (m : List (κ × ν)) (k : κ) :
    (mapSet key value m).lookup k = if k = key then some value else m.lookup k := by
  induction m with
  | nil =>
      rw [mapSet, List.lookup_cons]
      by_cases hk : k = key
      · rw [if_pos hk, beq_iff_eq.mpr hk]
      · rw [if_neg hk, beq_eq_false_iff_ne.mpr hk]
  | cons entry m ih =>
      obtain ⟨k', v⟩ := entry
      rw [mapSet]
      by_cases hk : k = key
      · subst hk
        rw [if_pos rfl]
        split_ifs with hsame
        · exact List.lookup_cons_self
        · exact List.lookup_cons_self
        · rw [List.lookup_cons, beq_eq_false_iff_ne.mpr (Ne.symm hsame), ih, if_pos rfl]
      · rw [if_neg hk] at ih ⊢
        split_ifs with hsame
        · subst hsame
          rw [List.lookup_cons, List.lookup_cons, beq_eq_false_iff_ne.mpr hk]
        · rw [List.lookup_cons, beq_eq_false_iff_ne.mpr hk]
        · rw [List.lookup_cons, List.lookup_cons, ih]

variable {α : Type} {key : α → κ} {value : α → ν} {items : List α}

theorem lookup_foldl_mapSet (k : κ) :
    (items.foldl (fun m a => mapSet (key a) (value a) m) []).lookup k
      = (items.reverse.find? fun a => key a = k).map value := by
  induction items using List.reverseRecOn with
  | nil => rfl
  | append_singleton items a ih =>
      rw [List.foldl_append, List.foldl_cons, List.foldl_nil, lookup_mapSet, ih, List.reverse_append]
      by_cases hk : k = key a
      · rw [if_pos hk, List.reverse_singleton, List.singleton_append, List.find?_cons_of_pos (by simpa using hk.symm)]
        rfl
      · rw [if_neg hk, List.reverse_singleton, List.singleton_append,
          List.find?_cons_of_neg (by simpa using Ne.symm hk)]

theorem lookup_eq_some_iff (k : κ) (v : ν) :
    (items.foldl (fun m a => mapSet (key a) (value a) m) []).lookup k = some v
      ↔ ∃ a, LastWith key items a ∧ key a = k ∧ value a = v := by
  rw [lookup_foldl_mapSet, Option.map_eq_some_iff]
  apply exists_congr
  intro a
  rw [← and_assoc]
  refine and_congr_left fun _ => ?_
  rw [List.find?_eq_some_iff_append]
  constructor
  · rintro ⟨hkey, before, after, hsplit, hnone⟩
    have hk : key a = k := of_decide_eq_true hkey
    refine ⟨⟨after.reverse, before.reverse, ?_, fun b hb hsame => ?_⟩, hk⟩
    · rw [← items.reverse_reverse, hsplit]
      simp
    · have hother := hnone b (List.mem_reverse.mp hb)
      rw [hsame, hk] at hother
      simp at hother
  · rintro ⟨⟨before, after, rfl, hnone⟩, rfl⟩
    refine ⟨by simp, after.reverse, before.reverse, by simp, fun b hb => ?_⟩
    simpa using hnone b (List.mem_reverse.mp hb)

theorem lookup_eq_none_iff (k : κ) :
    (items.foldl (fun m a => mapSet (key a) (value a) m) []).lookup k = none ↔ ∀ a ∈ items, key a ≠ k := by
  rw [lookup_foldl_mapSet, Option.map_eq_none_iff, List.find?_eq_none]
  simp

end Assignments

namespace Negotiated

/-- The payload type inside. -/
def internal (n : Negotiated) : Int32 := n.codec.payloadType.toInt32

/-- The payload type outside. -/
def external (n : Negotiated) : Int32 := n.payloadType.toInt32

end Negotiated

open Negotiated

theorem addAll_eq (c : Codecs) (found : List Negotiated) :
    (c.addAll found).payloads = c.payloads ++ found.map payload
      ∧ (c.addAll found).inOutPTMap = found.foldl (fun m n => mapSet n.internal n.external m) c.inOutPTMap
      ∧ (c.addAll found).outInPTMap = found.foldl (fun m n => mapSet n.external n.internal m) c.outInPTMap := by
  induction found generalizing c with
  | nil => exact ⟨(List.append_nil _).symm, rfl, rfl⟩
  | cons n found ih =>
      obtain ⟨hpayloads, hinOut, houtIn⟩ := ih (c.add n)
      refine ⟨?_, hinOut, houtIn⟩
      rw [List.map_cons, List.append_cons]
      exact hpayloads

namespace SdpInfo

def getAudioInternalPT (info : SdpInfo) (externalPT : Int32) : Int32 :=
  match info.outInPTMap.lookup externalPT with
  | some found => found
  | none => externalPT

def getVideoInternalPT (info : SdpInfo) (externalPT : Int32) : Int32 := info.getAudioInternalPT externalPT

def getAudioExternalPT (info : SdpInfo) (internalPT : Int32) : Int32 :=
  match info.inOutPTMap.lookup internalPT with
  | some found => found
  | none => internalPT

def getVideoExternalPT (info : SdpInfo) (internalPT : Int32) : Int32 := info.getAudioExternalPT internalPT

end SdpInfo

/-- What a text negotiates when it is read by a new description. -/
def negotiatedIn (sdp media : AString) : List Negotiated :=
  negotiated (Parser.start .create media).mtype (getlines sdp)

namespace SdpInfo

section Read

variable {sdp media : AString} {answer : Bool} {info : SdpInfo}

theorem codecs_of_create (hread : create.processSdp sdp media = .ok (answer, info)) :
    info.payloadVector.map skeleton = (negotiatedIn sdp media).map payload
      ∧ info.inOutPTMap = (negotiatedIn sdp media).foldl (fun m n => mapSet n.internal n.external m) []
      ∧ info.outInPTMap = (negotiatedIn sdp media).foldl (fun m n => mapSet n.external n.internal m) [] := by
  have hcodecs := codecs_processSdp hread
  obtain ⟨hpayloads, hinOut, houtIn⟩ := addAll_eq create.codecs (negotiatedIn sdp media)
  refine ⟨?_, ?_, ?_⟩
  · exact (congrArg Codecs.payloads hcodecs).trans hpayloads
  · exact (congrArg Codecs.inOutPTMap hcodecs).trans hinOut
  · exact (congrArg Codecs.outInPTMap hcodecs).trans houtIn

theorem getAudioInternalPT_of_last (hread : create.processSdp sdp media = .ok (answer, info)) {n : Negotiated}
    (hlast : LastWith external (negotiatedIn sdp media) n) : info.getAudioInternalPT n.external = n.internal := by
  have hlookup : info.outInPTMap.lookup n.external = some n.internal := by
    rw [(codecs_of_create hread).2.2, lookup_eq_some_iff]
    exact ⟨n, hlast, rfl, rfl⟩
  rw [getAudioInternalPT, hlookup]

theorem getAudioInternalPT_of_none (hread : create.processSdp sdp media = .ok (answer, info)) {externalPT : Int32}
    (hnone : ∀ n ∈ negotiatedIn sdp media, n.external ≠ externalPT) :
    info.getAudioInternalPT externalPT = externalPT := by
  have hlookup : info.outInPTMap.lookup externalPT = none := by
    rw [(codecs_of_create hread).2.2, lookup_eq_none_iff]
    exact hnone
  rw [getAudioInternalPT, hlookup]

theorem getAudioExternalPT_of_last (hread : create.processSdp sdp media = .ok (answer, info)) {n : Negotiated}
    (hlast : LastWith internal (negotiatedIn sdp media) n) : info.getAudioExternalPT n.internal = n.external := by
  have hlookup : info.inOutPTMap.lookup n.internal = some n.external := by
    rw [(codecs_of_create hread).2.1, lookup_eq_some_iff]
    exact ⟨n, hlast, rfl, rfl⟩
  rw [getAudioExternalPT, hlookup]

end Read

/-- What the functions of one media do. -/
def internalPT (info : SdpInfo) : MediaType → Int32 → Int32
  | .video => info.getVideoInternalPT
  | _ => info.getAudioInternalPT

def externalPT (info : SdpInfo) : MediaType → Int32 → Int32
  | .video => info.getVideoExternalPT
  | _ => info.getAudioExternalPT

/-- The types of a media are mapped to and fro, and no other type comes to one of its codecs. -/
structure Consistent (info : SdpInfo) (found : List Negotiated) (mediaType : MediaType) : Prop where
  back : ∀ n ∈ found, n.mediaType = mediaType →
    info.internalPT mediaType (info.externalPT mediaType n.internal) = n.internal
  others : ∀ type : Int32, (∀ n ∈ found, n.mediaType = mediaType → n.external ≠ type) →
    ∀ n ∈ found, n.mediaType = mediaType → info.internalPT mediaType type ≠ n.internal

end SdpInfo

/-- The numbers of the codecs of a media do not collide. The last line of a codec is the last line of its number as well;
the inside type of a codec is a number that some line gives; and a number that is not given to this media is not given
last to one of its codecs. -/
structure Apart (found : List Negotiated) (mediaType : MediaType) : Prop where
  kept : ∀ n ∈ found, n.mediaType = mediaType → ∀ last, LastWith internal found last → last.internal = n.internal →
    LastWith external found last
  taken : ∀ n ∈ found, n.mediaType = mediaType → ∃ other ∈ found, other.external = n.internal
  foreign : ∀ other, LastWith external found other →
    (∀ n ∈ found, n.mediaType = mediaType → n.external ≠ other.external) →
    ∀ n ∈ found, n.mediaType = mediaType → other.internal ≠ n.internal

/-- Where every number is that of inside there are no collisions. -/
theorem apart_of_same {found : List Negotiated} (h : ∀ n ∈ found, n.external = n.internal) (mediaType : MediaType) :
    Apart found mediaType where
  kept := by
    rintro n hn hmedia last ⟨before, after, rfl, hafter⟩ hsame
    have hlast := h last (List.mem_append_right _ List.mem_cons_self)
    refine ⟨before, after, rfl, fun b hb => ?_⟩
    rw [h b (List.mem_append_right _ (List.mem_cons_of_mem _ hb)), hlast]
    exact hafter b hb
  taken n hn _ := ⟨n, hn, h n hn⟩
  foreign other hother hnone n hn hmedia hsame := by
    apply hnone n hn hmedia
    rw [h n hn, h other hother.mem, hsame]

namespace SdpInfo

section Consistent

variable {sdp media : AString} {answer : Bool} {info : SdpInfo} {mediaType : MediaType}

theorem internalPT_eq (info : SdpInfo) (mediaType : MediaType) :
    info.internalPT mediaType = info.getAudioInternalPT := by
  cases mediaType <;> rfl

theorem externalPT_eq (info : SdpInfo) (mediaType : MediaType) :
    info.externalPT mediaType = info.getAudioExternalPT := by
  cases mediaType <;> rfl

theorem Consistent.apart (hread : create.processSdp sdp media = .ok (answer, info))
    (h : info.Consistent (negotiatedIn sdp media) mediaType) : Apart (negotiatedIn sdp media) mediaType := by
  obtain ⟨hback, hothers⟩ := h
  simp only [internalPT_eq, externalPT_eq] at hback hothers
  refine ⟨fun n hn hmedia last hlast hsame => ?_, fun n hn hmedia => ?_, fun other hother hnone n hn hmedia => ?_⟩
  · have hgoes := hback n hn hmedia
    rw [← hsame, getAudioExternalPT_of_last hread hlast] at hgoes
    obtain ⟨other, hother, hexternal⟩ := @exists_lastWith _ _ _ external _ _ hlast.mem
    rw [← hexternal, getAudioInternalPT_of_last hread hother] at hgoes
    rw [LastWith.of_same hlast hother hgoes hexternal.symm]
    exact hother
  · by_contra hnone
    push Not at hnone
    have hsame := getAudioInternalPT_of_none hread hnone
    exact hothers n.internal (fun other hmem _ => hnone other hmem) n hn hmedia hsame
  · have hgoes := hothers other.external hnone n hn hmedia
    rwa [getAudioInternalPT_of_last hread hother] at hgoes

theorem Consistent.of_apart (hread : create.processSdp sdp media = .ok (answer, info))
    (h : Apart (negotiatedIn sdp media) mediaType) : info.Consistent (negotiatedIn sdp media) mediaType := by
  constructor
  · intro n hn hmedia
    obtain ⟨last, hlast, hsame⟩ := @exists_lastWith _ _ _ internal _ _ hn
    rw [internalPT_eq, externalPT_eq, ← hsame, getAudioExternalPT_of_last hread hlast]
    exact getAudioInternalPT_of_last hread (h.kept n hn hmedia last hlast hsame)
  · intro type hnone n hn hmedia
    rw [internalPT_eq]
    by_cases hgiven : ∃ other ∈ negotiatedIn sdp media, other.external = type
    · obtain ⟨other, hmem, rfl⟩ := hgiven
      obtain ⟨last, hlast, hsame⟩ := @exists_lastWith _ _ _ external _ _ hmem
      rw [← hsame, getAudioInternalPT_of_last hread hlast]
      rw [← hsame] at hnone
      exact h.foreign last hlast hnone n hn hmedia
    · push Not at hgiven
      rw [getAudioInternalPT_of_none hread hgiven]
      rintro rfl
      obtain ⟨other, hmem, hother⟩ := h.taken n hn hmedia
      exact hgiven other hmem hother

/-- **The payload types of both media are mapped consistently just if their numbers do not collide.** -/
theorem consistent_iff (hread : create.processSdp sdp media = .ok (answer, info)) :
    (∀ mediaType, mediaType = .video ∨ mediaType = .audio → info.Consistent (negotiatedIn sdp media) mediaType)
      ↔ ∀ mediaType, mediaType = .video ∨ mediaType = .audio → Apart (negotiatedIn sdp media) mediaType :=
  ⟨fun h mediaType hmedia => (h mediaType hmedia).apart hread,
    fun h mediaType hmedia => .of_apart hread (h mediaType hmedia)⟩

end Consistent

/-- A text with one codec of each media under the number that it has inside. -/
def sameNumbers : AString := ascii "m=audio\na=rtpmap:0 PCMU/8000\nm=video\na=rtpmap:100 VP8/90000\n"

def readSame : SdpInfo :=
  { create with
    hasAudio := true
    hasVideo := true
    videoCodecs := 1
    audioCodecs := 1
    videoSdpMLine := 1
    audioSdpMLine := 0
    inOutPTMap := [(0, 0), (100, 100)]
    outInPTMap := [(0, 0), (100, 100)]
    payloadVector := [codec 0 "PCMU" 8000 .audio, codec 100 "VP8" 90000 .video] }

theorem processSdp_sameNumbers : create.processSdp sameNumbers [] = .ok (false, readSame) := by rfl

theorem negotiatedIn_sameNumbers : negotiatedIn sameNumbers []
    = [⟨0, codec 0 "PCMU" 8000 .audio, .audio⟩, ⟨100, codec 100 "VP8" 90000 .video, .video⟩] := by rfl

theorem consistent_iff_sameNumbers : readSame.Consistent (negotiatedIn sameNumbers []) .video :=
  (consistent_iff processSdp_sameNumbers).mpr
    (fun mediaType _ => apart_of_same (by rw [negotiatedIn_sameNumbers]; decide) mediaType) .video (.inl rfl)

/-- A text that gives one number in both of its sections. -/
def sharedNumber : AString := ascii "m=audio\na=rtpmap:100 PCMU/8000\nm=video\na=rtpmap:100 VP8/90000\n"

def readShared : SdpInfo :=
  { create with
    hasAudio := true
    hasVideo := true
    videoCodecs := 1
    audioCodecs := 1
    videoSdpMLine := 1
    audioSdpMLine := 0
    inOutPTMap := [(0, 100), (100, 100)]
    outInPTMap := [(100, 100)]
    payloadVector := [codec 100 "PCMU" 8000 .audio, codec 100 "VP8" 90000 .video] }

theorem processSdp_sharedNumber : create.processSdp sharedNumber [] = .ok (false, readShared) := by rfl

theorem negotiatedIn_sharedNumber : negotiatedIn sharedNumber []
    = [⟨100, codec 0 "PCMU" 8000 .audio, .audio⟩, ⟨100, codec 100 "VP8" 90000 .video, .video⟩] := by rfl

/-- The audio of the remote side is taken for video. -/
theorem audio_taken_for_video : create.processSdp sharedNumber [] = .ok (false, readShared)
    ∧ readShared.getAudioInternalPT (readShared.getAudioExternalPT 0) = 100
    ∧ ¬ readShared.Consistent (negotiatedIn sharedNumber []) .audio := by
  refine ⟨processSdp_sharedNumber, rfl, fun h => ?_⟩
  have hback := h.back
  rw [negotiatedIn_sharedNumber] at hback
  exact absurd (hback _ List.mem_cons_self rfl) (by decide)

end SdpInfo

end Licode.Media.Sdp
