import Licode.Media.PayloadMaps

/-!
# Questions about payload types

`supportPayloadType` looks for the inside type under the outside types of the payloads, with an operator that puts in
what it does not find. The answer is right, and the map is left as it is, just if the numbers that are looked up are
inside types as well.
-/

namespace Licode.Media.Sdp

open Negotiated

/-- `m[key]`, which puts in a value where there is none. -/
def subscript (m : List (Int32 × Int32)) (key : Int32) : Int32 × List (Int32 × Int32) :=
  match m.lookup key with
  | some value => (value, m)
  | none => (0, mapSet key 0 m)

/-- The loop of `supportPayloadType`. -/
def searchPayloads (payloadType : Int32) : List RtpMap → List (Int32 × Int32) → Bool × List (Int32 × Int32)
  | [], m => (false, m)
  | rtp :: payloads, m =>
      let (value, m) := subscript m rtp.payloadType.toInt32
      if value = payloadType then (true, m) else searchPayloads payloadType payloads m

namespace SdpInfo

def supportPayloadType (info : SdpInfo) (payloadType : Int32) : Bool × SdpInfo :=
  if (info.inOutPTMap.lookup payloadType).isSome then
    let (found, m) := searchPayloads payloadType info.payloadVector info.inOutPTMap
    (found, { info with inOutPTMap := m })
  else (false, info)

def supportCodecByName (info : SdpInfo) (codecName : AString) (clockRate : UInt32) : Bool × SdpInfo :=
  match getCodecByName codecName clockRate with
  | some rtp => info.supportPayloadType rtp.payloadType.toInt32
  | none => (false, info)

end SdpInfo

/-! ### The loop -/

theorem length_mapSet_of_none {key value : Int32} {m : List (Int32 × Int32)} (h : m.lookup key = none) :
    (mapSet key value m).length = m.length + 1 := by
  induction m with
  | nil => rfl
  | cons entry m ih =>
      obtain ⟨k, v⟩ := entry
      rw [List.lookup_cons] at h
      have hne : k ≠ key := by
        rintro rfl
        rw [BEq.rfl] at h
        cases h
      rw [beq_eq_false_iff_ne.mpr (Ne.symm hne)] at h
      rw [mapSet, if_neg hne]
      split_ifs
      · rfl
      · rw [List.length_cons, ih h, List.length_cons]

/-- A map is left as it is, or it has grown. -/
def Grows (m m' : List (Int32 × Int32)) : Prop := m' = m ∨ m.length < m'.length

theorem Grows.trans {m m' m'' : List (Int32 × Int32)} (h : Grows m m') (h' : Grows m' m'') : Grows m m'' := by
  obtain rfl | hlt := h
  · exact h'
  · obtain rfl | hlt' := h'
    · exact .inr hlt
    · exact .inr (hlt.trans hlt')

/-- What has grown does not shrink again. -/
theorem Grows.eq_of_back {m m' : List (Int32 × Int32)} (h : Grows m m') (h' : Grows m' m) : m' = m := by
  obtain hsame | hlt := h
  · exact hsame
  · obtain hsame | hlt' := h'
    · exact hsame.symm
    · omega

theorem grows_subscript (m : List (Int32 × Int32)) (key : Int32) : Grows m (subscript m key).2 := by
  rw [subscript]
  split
  · exact .inl rfl
  · rename_i hnone
    refine .inr ?_
    rw [length_mapSet_of_none hnone]
    exact Nat.lt_succ_self _

theorem grows_searchPayloads (payloadType : Int32) (payloads : List RtpMap) (m : List (Int32 × Int32)) :
    Grows m (searchPayloads payloadType payloads m).2 := by
  induction payloads generalizing m with
  | nil => exact .inl rfl
  | cons rtp payloads ih =>
      rw [searchPayloads]
      dsimp only
      split_ifs
      · exact grows_subscript m _
      · exact (grows_subscript m _).trans (ih _)

/-- The numbers of the payloads are in the map up to one that has the type there. -/
def Reaches (payloadType : Int32) (payloads : List RtpMap) (m : List (Int32 × Int32)) : Prop :=
  ∃ before rtp after, payloads = before ++ rtp :: after
    ∧ (∀ r ∈ before, (m.lookup r.payloadType.toInt32).isSome) ∧ m.lookup rtp.payloadType.toInt32 = some payloadType

theorem searchPayloads_eq_iff (payloadType : Int32) (payloads : List RtpMap) (m : List (Int32 × Int32)) :
    searchPayloads payloadType payloads m = (true, m) ↔ Reaches payloadType payloads m := by
  induction payloads with
  | nil =>
      refine iff_of_false (fun h => ?_) ?_
      · exact absurd (congrArg Prod.fst h) Bool.false_ne_true
      · rintro ⟨before, rtp, after, hsplit, -⟩
        exact absurd hsplit.symm (List.append_ne_nil_of_right_ne_nil _ (List.cons_ne_nil _ _))
  | cons first payloads ih =>
      rw [searchPayloads]
      cases hlookup : m.lookup first.payloadType.toInt32 with
      | none =>
          -- the number is put in, and the map does not come back
          refine iff_of_false (fun h => ?_) ?_
          · have hmap : Grows (mapSet first.payloadType.toInt32 0 m) m := by
              have hgrows := grows_searchPayloads payloadType payloads (mapSet first.payloadType.toInt32 0 m)
              rw [subscript, hlookup] at h
              dsimp only at h
              split_ifs at h
              · exact .inl (Prod.mk.inj h).2.symm
              · rwa [h] at hgrows
            have hlength := @length_mapSet_of_none _ 0 _ hlookup
            obtain hsame | hlt := hmap
            · rw [← hsame] at hlength
              omega
            · omega
          · rintro ⟨before, rtp, after, hsplit, hbefore, hrtp⟩
            cases before with
            | nil =>
                rw [(List.cons.inj hsplit).1, hrtp] at hlookup
                cases hlookup
            | cons r before =>
                have hsome := hbefore r List.mem_cons_self
                rw [← (List.cons.inj hsplit).1, hlookup] at hsome
                cases hsome
      | some value =>
          rw [subscript, hlookup]
          dsimp only
          split_ifs with hvalue
          · refine iff_of_true rfl ⟨[], first, payloads, rfl, nofun, ?_⟩
            rw [hlookup, hvalue]
          · rw [ih]
            constructor
            · rintro ⟨before, rtp, after, rfl, hbefore, hrtp⟩
              refine ⟨first :: before, rtp, after, rfl, List.forall_mem_cons.mpr ⟨?_, hbefore⟩, hrtp⟩
              rw [hlookup]
              rfl
            · rintro ⟨before, rtp, after, hsplit, hbefore, hrtp⟩
              cases before with
              | nil =>
                  rw [← (List.cons.inj hsplit).1, hlookup] at hrtp
                  exact absurd (Option.some.inj hrtp) hvalue
              | cons r before =>
                  exact ⟨before, rtp, after, (List.cons.inj hsplit).2, fun b hb =>
                    hbefore b (List.mem_cons_of_mem _ hb), hrtp⟩

/-! ### What has been negotiated -/

/-- A codec with the type has been negotiated. -/
def Supported (found : List Negotiated) (payloadType : Int32) : Prop := ∃ n ∈ found, n.internal = payloadType

instance (found : List Negotiated) (payloadType : Int32) : Decidable (Supported found payloadType) :=
  inferInstanceAs (Decidable (∃ n ∈ found, n.internal = payloadType))

/-- The numbers that the first lines give are inside types of negotiated codecs as well, up to one whose codec has the
type for its own number. -/
def FoundFirst (found : List Negotiated) (payloadType : Int32) : Prop :=
  ∃ before n after, found = before ++ n :: after ∧ (∀ b ∈ before, Supported found b.external)
    ∧ ∃ last, LastWith internal found last ∧ last.internal = n.external ∧ last.external = payloadType

/-- Where every number is that of inside all types are found. -/
theorem foundFirst_of_same {found : List Negotiated} (h : ∀ n ∈ found, n.external = n.internal) {payloadType : Int32}
    (hsupported : Supported found payloadType) : FoundFirst found payloadType := by
  obtain ⟨n, hn, rfl⟩ := hsupported
  obtain ⟨last, hlast, hsame⟩ := @exists_lastWith _ _ _ internal _ _ hn
  have hnumber := h last hlast.mem
  obtain ⟨before, after, hsplit, -⟩ := id hlast
  refine ⟨before, last, after, hsplit, fun b hb => ?_, last, hlast, hnumber.symm, hnumber.trans hsame⟩
  have hmem : b ∈ found := by
    rw [hsplit]
    exact List.mem_append_left _ hb
  exact ⟨b, hmem, (h b hmem).symm⟩

namespace SdpInfo

section Read

variable {sdp media : AString} {answer : Bool} {info : SdpInfo}

theorem isSome_lookup_iff (hread : create.processSdp sdp media = .ok (answer, info)) (payloadType : Int32) :
    (info.inOutPTMap.lookup payloadType).isSome = true ↔ Supported (negotiatedIn sdp media) payloadType := by
  rw [(codecs_of_create hread).2.1, ← Option.ne_none_iff_isSome, ne_eq, lookup_eq_none_iff, Supported]
  push Not
  rfl

theorem reaches_iff (hread : create.processSdp sdp media = .ok (answer, info)) (payloadType : Int32) :
    Reaches payloadType info.payloadVector info.inOutPTMap ↔ FoundFirst (negotiatedIn sdp media) payloadType := by
  have hpayloads := (codecs_of_create hread).1
  have hlookup (key : Int32) : info.inOutPTMap.lookup key = some payloadType
      ↔ ∃ last, LastWith internal (negotiatedIn sdp media) last ∧ last.internal = key ∧ last.external = payloadType := by
    rw [(codecs_of_create hread).2.1, lookup_eq_some_iff]
  have hnumber {rtp : RtpMap} {n : Negotiated} (h : skeleton rtp = n.payload) : rtp.payloadType.toInt32 = n.external := by
    have htype : rtp.payloadType = n.payloadType := congrArg RtpMap.payloadType h
    rw [htype]
    rfl
  have hnumbers {before : List RtpMap} {first : List Negotiated} (h : before.map skeleton = first.map payload) :
      (∀ r ∈ before, (info.inOutPTMap.lookup r.payloadType.toInt32).isSome)
        ↔ ∀ b ∈ first, Supported (negotiatedIn sdp media) b.external := by
    have hsame : before.map (fun r => r.payloadType.toInt32) = first.map external := by
      calc before.map (fun r => r.payloadType.toInt32)
          = (before.map skeleton).map (fun r => r.payloadType.toInt32) := by
            rw [List.map_map]
            rfl
        _ = first.map external := by
            rw [h, List.map_map]
            rfl
    have hkeys := @List.forall_mem_map _ _ (fun r : RtpMap => r.payloadType.toInt32) before
      (Supported (negotiatedIn sdp media))
    simp only [isSome_lookup_iff hread]
    rw [← hkeys, hsame]
    exact List.forall_mem_map
  constructor
  · rintro ⟨before, rtp, after, hsplit, hbefore, hrtp⟩
    rw [hsplit, List.map_append, List.map_cons] at hpayloads
    obtain ⟨first, rest, hfound, hfirst, hrest⟩ := List.map_eq_append_iff.mp hpayloads.symm
    obtain ⟨n, last, rfl, hn, -⟩ := List.map_eq_cons_iff.mp hrest
    refine ⟨first, n, last, hfound, (hnumbers hfirst.symm).mp hbefore, ?_⟩
    rw [← hnumber hn.symm]
    exact (hlookup _).mp hrtp
  · rintro ⟨first, n, last, hfound, hfirst, hn⟩
    rw [hfound, List.map_append, List.map_cons] at hpayloads
    obtain ⟨before, rest, hsplit, hbefore, hrest⟩ := List.map_eq_append_iff.mp hpayloads
    obtain ⟨rtp, after, rfl, hrtp, -⟩ := List.map_eq_cons_iff.mp hrest
    refine ⟨before, rtp, after, hsplit, (hnumbers hbefore).mpr hfirst, ?_⟩
    rw [hnumber hrtp]
    exact (hlookup _).mpr hn

/-- The answer is right, and the map is as it was. -/
theorem supportPayloadType_eq_iff (hread : create.processSdp sdp media = .ok (answer, info)) (payloadType : Int32) :
    info.supportPayloadType payloadType = (decide (Supported (negotiatedIn sdp media) payloadType), info)
      ↔ (Supported (negotiatedIn sdp media) payloadType → FoundFirst (negotiatedIn sdp media) payloadType) := by
  rw [supportPayloadType]
  by_cases hsupported : Supported (negotiatedIn sdp media) payloadType
  · rw [if_pos ((isSome_lookup_iff hread payloadType).mpr hsupported), decide_eq_true hsupported,
      forall_prop_of_true hsupported, ← reaches_iff hread, ← searchPayloads_eq_iff]
    dsimp only
    constructor
    · intro h
      obtain ⟨hfound, hinfo⟩ := Prod.mk.inj h
      exact Prod.ext hfound (congrArg SdpInfo.inOutPTMap hinfo)
    · intro h
      rw [h]
  · rw [if_neg fun h => hsupported ((isSome_lookup_iff hread payloadType).mp h), decide_eq_false hsupported]
    exact iff_of_true rfl fun h => absurd h hsupported

end Read

/-! ### Many questions -/

/-- A question for a payload type, or for a codec by its name. -/
inductive Query where
  | byType (payloadType : Int32)
  | byName (codecName : AString) (clockRate : UInt32)

/-- The payload type that a question is about. A name may be that of no codec. -/
def Query.type? : Query → Option Int32
  | .byType payloadType => some payloadType
  | .byName codecName clockRate => (getCodecByName codecName clockRate).map fun rtp => rtp.payloadType.toInt32

def ask (info : SdpInfo) : Query → Bool × SdpInfo
  | .byType payloadType => info.supportPayloadType payloadType
  | .byName codecName clockRate => info.supportCodecByName codecName clockRate

/-- One question after the other. -/
def askAll (info : SdpInfo) : List Query → List Bool × SdpInfo
  | [] => ([], info)
  | query :: queries =>
      let (answer, info) := info.ask query
      let (answers, info) := info.askAll queries
      (answer :: answers, info)

/-- Whether a codec with the type has been negotiated. -/
def expected (found : List Negotiated) (query : Query) : Bool :=
  match query.type? with
  | some payloadType => decide (Supported found payloadType)
  | none => false

theorem ask_eq (info : SdpInfo) (query : Query) :
    info.ask query = match query.type? with
      | some payloadType => info.supportPayloadType payloadType
      | none => (false, info) := by
  cases query with
  | byType payloadType => rfl
  | byName codecName clockRate =>
      rw [ask, supportCodecByName, Query.type?]
      cases getCodecByName codecName clockRate <;> rfl

theorem grows_ask (info : SdpInfo) (query : Query) :
    Grows info.inOutPTMap (info.ask query).2.inOutPTMap
      ∧ (info.ask query).2 = { info with inOutPTMap := (info.ask query).2.inOutPTMap } := by
  rw [ask_eq]
  split
  · rw [supportPayloadType]
    split_ifs
    · exact ⟨grows_searchPayloads _ _ _, rfl⟩
    · exact ⟨.inl rfl, rfl⟩
  · exact ⟨.inl rfl, rfl⟩

theorem grows_askAll (info : SdpInfo) (queries : List Query) :
    Grows info.inOutPTMap (info.askAll queries).2.inOutPTMap := by
  induction queries generalizing info with
  | nil => exact .inl rfl
  | cons query queries ih => exact (info.grows_ask query).1.trans (ih _)

/-- **All answers are right and the map is as it was just if every type that is asked for and has been negotiated is found
before a number that is no inside type.** -/
theorem askAll_eq_iff {sdp media : AString} {answer : Bool} {info : SdpInfo}
    (hread : create.processSdp sdp media = .ok (answer, info)) (queries : List Query) :
    info.askAll queries = (queries.map (expected (negotiatedIn sdp media)), info)
      ↔ ∀ query ∈ queries, ∀ payloadType ∈ query.type?, Supported (negotiatedIn sdp media) payloadType →
        FoundFirst (negotiatedIn sdp media) payloadType := by
  have hone (query : Query) : info.ask query = (expected (negotiatedIn sdp media) query, info)
      ↔ ∀ payloadType ∈ query.type?, Supported (negotiatedIn sdp media) payloadType →
        FoundFirst (negotiatedIn sdp media) payloadType := by
    rw [ask_eq, expected]
    cases query.type? with
    | none => exact iff_of_true rfl nofun
    | some payloadType =>
        simp only [Option.mem_some_iff, forall_eq']
        exact supportPayloadType_eq_iff hread payloadType
  induction queries with
  | nil => exact iff_of_true rfl nofun
  | cons query queries ih =>
      rw [List.forall_mem_cons, ← hone]
      refine Iff.trans ?_ (and_congr Iff.rfl ih)
      rw [askAll, List.map_cons]
      dsimp only
      constructor
      · intro h
        obtain ⟨hanswers, hinfo⟩ := Prod.mk.inj h
        obtain ⟨hanswer, hrest⟩ := List.cons.inj hanswers
        -- the first question has left the map alone, since nothing takes away from it
        have hsame : (info.ask query).2.inOutPTMap = info.inOutPTMap := by
          apply (info.grows_ask query).1.eq_of_back
          have hmore := grows_askAll (info.ask query).2 queries
          rwa [hinfo] at hmore
        have hstate : (info.ask query).2 = info := by
          rw [(info.grows_ask query).2, hsame]
        rw [hstate] at hinfo hrest
        exact ⟨Prod.ext hanswer hstate, Prod.ext hrest hinfo⟩
      · rintro ⟨hquery, hqueries⟩
        rw [hquery]
        dsimp only
        rw [hqueries]

theorem askAll_eq_iff_sameNumbers : readSame.askAll [.byType 100, .byName (ascii "PCMU") 8000]
    = ([Query.byType 100, .byName (ascii "PCMU") 8000].map (expected (negotiatedIn sameNumbers [])), readSame) :=
  (askAll_eq_iff processSdp_sameNumbers _).mpr fun _ _ _ _ hsupported =>
    foundFirst_of_same (by rw [negotiatedIn_sameNumbers]; decide) hsupported

/-- A text with another number for a codec. -/
def otherNumber : AString := ascii "m=video\na=rtpmap:96 VP8/90000\n"

def readOther : SdpInfo :=
  { create with
    hasVideo := true
    videoCodecs := 1
    videoSdpMLine := 0
    inOutPTMap := [(100, 96)]
    outInPTMap := [(96, 100)]
    payloadVector := [codec 96 "VP8" 90000 .video] }

/-- The codec is not found, and its number is put into the map. -/
theorem codec_not_found : create.processSdp otherNumber [] = .ok (false, readOther)
    ∧ Supported (negotiatedIn otherNumber []) 100
    ∧ readOther.askAll [.byType 100] = ([false], { readOther with inOutPTMap := [(96, 0), (100, 96)] }) := by
  refine ⟨rfl, ?_, rfl⟩
  have hfound : negotiatedIn otherNumber [] = [⟨96, codec 100 "VP8" 90000 .video, .video⟩] := rfl
  rw [hfound]
  decide

end SdpInfo

end Licode.Media.Sdp
