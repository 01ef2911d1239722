import Licode.Media.SdpEcho

/-!
# The codecs of a description

What `processSdp` keeps of codecs comes from the lines that give a number to a codec which is known, and from the
sections in which they stand. No other line has a part in it.
-/

namespace Licode.Media.Sdp

/-- A codec that a description gives a number to, in a section for some media. -/
structure Negotiated where
  payloadType : UInt32
  codec : RtpMap
  mediaType : MediaType
  deriving DecidableEq

def getCodecByName (codecName : AString) (clockRate : UInt32) : Option RtpMap :=
  internalPayloads.find? fun rtp => rtp.encodingName = codecName ∧ rtp.clockRate = clockRate

/-- The codec of a line and its number. -/
def codecLine (line : AString) : Option (UInt32 × RtpMap) :=
  if has "a=rtpmap:" line then
    match splitOneOf line (ascii " :/\n") 4 with
    | _ :: payloadType :: codecname :: clock :: _ =>
        (getCodecByName codecname (strtoul clock)).map (strtoul payloadType, ·)
    | _ => none
  else none

/-- The media of the section that a line stands in. -/
def readMedia (mtype : MediaType) (line : AString) : MediaType :=
  if has "m=audio" line then .audio else if has "m=video" line then .video else mtype

/-- What a line in a section negotiates. -/
def negotiatedBy (mtype : MediaType) (line : AString) : List Negotiated :=
  ((codecLine line).map fun (payloadType, codec) => ⟨payloadType, codec, mtype⟩).toList

def negotiated : MediaType → List AString → List Negotiated
  | _, [] => []
  | mtype, line :: lines => negotiatedBy (readMedia mtype line) line ++ negotiated (readMedia mtype line) lines

/-- A payload without what lines add to it afterwards. -/
def skeleton (rtp : RtpMap) : RtpMap :=
  { rtp with feedbackTypes := [], formatParameters := ⟨[], FormatParameters.ordered_nil⟩ }

def Negotiated.payload (n : Negotiated) : RtpMap :=
  { n.codec with payloadType := n.payloadType, mediaType := n.mediaType }

/-- What is kept of codecs. -/
structure Codecs where
  payloads : List RtpMap
  videoCodecs : Int32
  audioCodecs : Int32
  inOutPTMap : List (Int32 × Int32)
  outInPTMap : List (Int32 × Int32)

def SdpInfo.codecs (info : SdpInfo) : Codecs where
  payloads := info.payloadVector.map skeleton
  videoCodecs := info.videoCodecs
  audioCodecs := info.audioCodecs
  inOutPTMap := info.inOutPTMap
  outInPTMap := info.outInPTMap

/-- Whatever is not video is counted as audio. -/
def Codecs.add (c : Codecs) (n : Negotiated) : Codecs where
  payloads := c.payloads ++ [n.payload]
  videoCodecs := if n.mediaType = .video then c.videoCodecs + 1 else c.videoCodecs
  audioCodecs := if n.mediaType = .video then c.audioCodecs else c.audioCodecs + 1
  inOutPTMap := mapSet n.codec.payloadType.toInt32 n.payloadType.toInt32 c.inOutPTMap
  outInPTMap := mapSet n.payloadType.toInt32 n.codec.payloadType.toInt32 c.outInPTMap

def Codecs.addAll (c : Codecs) (found : List Negotiated) : Codecs := found.foldl Codecs.add c

/-! ### The known codecs -/

/-- Of codecs with different keys at most one is found. -/
theorem filter_eq_toList_find? {α κ : Type} [DecidableEq κ] {key : α → κ} {items : List α}
    (h : items.Pairwise fun a b => key a ≠ key b) (k : κ) :
    items.filter (fun a => key a = k) = (items.find? fun a => key a = k).toList := by
  induction items with
  | nil => rfl
  | cons a items ih =>
      obtain ⟨hfirst, hrest⟩ := List.pairwise_cons.mp h
      by_cases hkey : key a = k
      · have hnone : items.filter (fun b => key b = k) = [] := by
          rw [List.filter_eq_nil_iff]
          intro b hb hsame
          exact hfirst b hb (hkey.trans (of_decide_eq_true hsame).symm)
        rw [List.filter_cons_of_pos (by simpa using hkey), List.find?_cons_of_pos (by simpa using hkey), hnone]
        rfl
      · rw [List.filter_cons_of_neg (by simpa using hkey), List.find?_cons_of_neg (by simpa using hkey), ih hrest]

theorem filter_known (codecname : AString) (clock : UInt32) :
    internalPayloads.filter (fun rtp => rtp.encodingName = codecname ∧ rtp.clockRate = clock)
      = (getCodecByName codecname clock).toList := by
  have hkeys : internalPayloads.Pairwise fun a b =>
      ((a.encodingName, a.clockRate) : AString × UInt32) ≠ (b.encodingName, b.clockRate) := by decide
  have hfound := filter_eq_toList_find? hkeys (codecname, clock)
  simp only [Prod.mk.injEq] at hfound
  exact hfound

theorem getCodecByName_mem {codecname : AString} {clock : UInt32} {codec : RtpMap}
    (h : getCodecByName codecname clock = some codec) :
    codec ∈ internalPayloads ∧ codec.encodingName = codecname ∧ codec.clockRate = clock := by
  have hsame := List.find?_some h
  exact ⟨List.mem_of_find?_eq_some h, of_decide_eq_true hsame⟩

namespace Parser

theorem addRtpMap_unknown {codecname : AString} {clock : UInt32} (h : getCodecByName codecname clock = none) (p : Parser)
    (payloadType : UInt32) : p.addRtpMap payloadType codecname clock = p := by
  rw [addRtpMap]
  dsimp only
  rw [filter_known, h]
  rfl

theorem addRtpMap_known {codecname : AString} {clock : UInt32} {codec : RtpMap}
    (h : getCodecByName codecname clock = some codec) (p : Parser) (payloadType : UInt32) :
    (p.addRtpMap payloadType codecname clock).mtype = p.mtype
      ∧ (p.addRtpMap payloadType codecname clock).info.codecs
        = p.info.codecs.add ⟨payloadType, codec, p.mtype⟩ := by
  obtain ⟨hmem, rfl, rfl⟩ := getCodecByName_mem h
  have hplain : ∀ codec ∈ internalPayloads, codec.feedbackTypes = [] ∧ codec.formatParameters = ⟨[], .nil⟩ := by decide
  obtain ⟨hfeedback, hparameters⟩ := hplain codec hmem
  rw [addRtpMap]
  dsimp only
  rw [filter_known, h]
  refine ⟨rfl, ?_⟩
  simp only [Option.toList_some, List.getLast?_singleton, SdpInfo.codecs, Codecs.add, List.map_append, List.map_cons,
    List.map_nil, List.foldl_cons, List.foldl_nil, Codecs.mk.injEq, Negotiated.payload]
  refine ⟨?_, trivial, trivial, trivial, trivial⟩
  rw [skeleton, hfeedback, hparameters]

/-! ### The parts of the loop body -/

/-- What the parts that are not about codecs leave as it is. -/
def codecState (p : Parser) :
    MediaType × List RtpMap × Int32 × Int32 × List (Int32 × Int32) × List (Int32 × Int32) :=
  (p.mtype, p.info.payloadVector, p.info.videoCodecs, p.info.audioCodecs, p.info.inOutPTMap, p.info.outInPTMap)

/-- A computation that keeps it, or fails. -/
def Keeps (p : Parser) (x : Checked Parser) : Prop := Ends (fun _ => True) (fun q => q.codecState = p.codecState) x

variable {p : Parser}

theorem keeps_bind {α : Type} {x : Checked α} {f : α → Checked Parser} (h : ∀ a, Keeps p (f a)) :
    Keeps p (x >>= f) := by
  cases x with
  | error e => trivial
  | ok a => exact h a

theorem keeps_ok {q : Parser} (h : q.codecState = p.codecState) : Keeps p (.ok q) := Ends.ok h

theorem keeps_if {condition : Prop} [Decidable condition] {x : Checked Parser} (h : Keeps p x) :
    Keeps p (if condition then x else .ok p) := by
  split_ifs
  · exact h
  · exact keeps_ok rfl

/-- The parts about sections, codecs and their parameters. -/
def codecKeywords : List (List String) := [["m=video"], ["m=audio"], ["a=rtpmap:"], ["a=fmtp:"]]

theorem keeps_branch {branch : List String × (Parser → AString → Checked Parser)} (hbranch : branch ∈ branches)
    (hother : branch.1 ∉ codecKeywords) (p : Parser) (line : AString) : Keeps p (branch.2 p line) := by
  simp only [branches, List.mem_cons, List.not_mem_nil, or_false] at hbranch
  rcases hbranch with rfl | rfl | rfl | rfl | rfl | rfl | rfl | rfl | rfl | rfl | rfl | rfl | rfl | rfl
    | rfl | rfl | rfl | rfl | rfl
  · refine keeps_ok ?_
    rw [processRtcpMux]
    split_ifs <;> rfl
  · have hset (direction : StreamDirection) : (p.setDirection direction).codecState = p.codecState := by
      rw [setDirection]
      split_ifs <;> rfl
    refine keeps_ok ?_
    rw [processDirection]
    split_ifs
    · exact hset _
    · exact hset _
    · exact hset _
    · rfl
  · refine keeps_ok ?_
    rw [processProfile]
    split_ifs <;> rfl
  · dsimp only
    rw [processFingerprint]
    exact keeps_if (keeps_bind fun _ => keeps_bind fun _ => keeps_ok rfl)
  · dsimp only
    rw [processGroup]
    exact keeps_if (keeps_bind fun _ => keeps_ok rfl)
  · exact absurd hother (by decide)
  · exact absurd hother (by decide)
  · dsimp only
    rw [processCand]
    exact keeps_if (keeps_bind fun _ => keeps_ok rfl)
  · dsimp only
    rw [processCrypto]
    exact keeps_if (keeps_bind fun _ => keeps_bind fun _ => keeps_ok rfl)
  · dsimp only
    rw [processUser]
    refine keeps_if (keeps_bind fun _ => ?_)
    split_ifs
    · exact keeps_ok rfl
    · exact keeps_ok rfl
  · dsimp only
    rw [processPass]
    refine keeps_if (keeps_bind fun _ => ?_)
    split_ifs
    · exact keeps_ok rfl
    · exact keeps_ok rfl
  · dsimp only
    rw [processMid]
    refine keeps_if ?_
    split
    · exact keeps_if (keeps_bind fun _ => keeps_ok rfl)
    · exact keeps_ok rfl
  · dsimp only
    rw [processSsrc]
    refine keeps_if ?_
    dsimp only
    split_ifs
    · exact keeps_bind fun _ => keeps_ok rfl
    · exact keeps_bind fun _ => keeps_ok rfl
    · exact keeps_ok rfl
  · refine keeps_ok ?_
    rw [processSsrcGroup]
    split_ifs
    · split <;> rfl
    · rfl
  · exact absurd hother (by decide)
  · dsimp only
    rw [processExtmap]
    refine keeps_if ?_
    exact keeps_if (keeps_bind fun _ => keeps_bind fun _ => keeps_bind fun _ => keeps_ok rfl)
  · refine keeps_ok ?_
    rw [processFeedback]
    split_ifs <;> rfl
  · exact absurd hother (by decide)
  · refine keeps_ok ?_
    rw [processBandwidth]
    split_ifs
    · split <;> rfl
    · rfl

/-- The parts after which the section and the codecs are the same. -/
theorem codecs_branch {branch : List String × (Parser → AString → Checked Parser)} (hbranch : branch ∈ branches)
    (hother : branch.1 ∉ [["m=video"], ["m=audio"], ["a=rtpmap:"]]) (p : Parser) (line : AString) :
    Ends (fun _ => True) (fun q => q.mtype = p.mtype ∧ q.info.codecs = p.info.codecs) (branch.2 p line) := by
  by_cases hfmtp : branch.1 = ["a=fmtp:"]
  · have hset (payloadType : UInt32) (option value : AString) :
        (p.setFormatParameter payloadType option value).info.codecs = p.info.codecs := by
      rw [setFormatParameter, SdpInfo.codecs, SdpInfo.codecs, Codecs.mk.injEq, List.map_map]
      refine ⟨List.map_congr_left fun rtp _ => ?_, rfl, rfl, rfl, rfl⟩
      rw [Function.comp_apply]
      split_ifs <;> rfl
    have hpart : branch = (["a=fmtp:"], fun p line => .ok (p.processFmtp line)) := by
      simp only [branches, List.mem_cons, List.not_mem_nil, or_false] at hbranch
      rcases hbranch with rfl | rfl | rfl | rfl | rfl | rfl | rfl | rfl | rfl | rfl | rfl | rfl | rfl | rfl
        | rfl | rfl | rfl | rfl | rfl
      all_goals first | rfl | exact absurd hfmtp (by decide)
    rw [hpart]
    apply Ends.ok
    rw [processFmtp]
    split_ifs
    · split
      · exact ⟨rfl, hset _ _ _⟩
      · exact ⟨rfl, hset _ _ _⟩
      · exact ⟨rfl, rfl⟩
    · exact ⟨rfl, rfl⟩
  · have hnone : branch.1 ∉ codecKeywords := by
      simp only [codecKeywords, List.mem_cons, List.not_mem_nil, or_false, not_or] at hother ⊢
      exact ⟨hother.1, hother.2.1, hother.2.2, hfmtp⟩
    refine (keeps_branch hbranch hnone p line).mono fun q hq => ?_
    simp only [codecState, Prod.mk.injEq] at hq
    obtain ⟨hmtype, hpayloads, hvideo, haudio, hinOut, houtIn⟩ := hq
    refine ⟨hmtype, ?_⟩
    rw [SdpInfo.codecs, SdpInfo.codecs, hpayloads, hvideo, haudio, hinOut, houtIn]

theorem codecs_branches {parts : List (List String × (Parser → AString → Checked Parser))}
    (hparts : ∀ branch ∈ parts, branch ∈ branches) (hother : ∀ branch ∈ parts,
      branch.1 ∉ [["m=video"], ["m=audio"], ["a=rtpmap:"]]) (p : Parser) (line : AString) :
    Ends (fun _ => True) (fun q => q.mtype = p.mtype ∧ q.info.codecs = p.info.codecs)
      (parts.foldlM (fun p branch => branch.2 p line) p) := by
  refine Ends.foldlM ⟨rfl, rfl⟩ fun q branch hbranch hq => ?_
  refine (codecs_branch (hparts branch hbranch) (hother branch hbranch) q line).mono fun r hr => ?_
  exact ⟨hr.1.trans hq.1, hr.2.trans hq.2⟩

theorem codecs_section (p : Parser) (line : AString) :
    ((p.processVideo line).processAudio line).mtype = readMedia p.mtype line
      ∧ ((p.processVideo line).processAudio line).info.codecs = p.info.codecs := by
  rw [processAudio, processVideo, readMedia]
  split_ifs <;> exact ⟨rfl, rfl⟩

theorem codecs_processRtpmap (p : Parser) (line : AString) :
    Ends (fun _ => True) (fun q => q.mtype = p.mtype ∧ q.info.codecs = p.info.codecs.addAll (negotiatedBy p.mtype line))
      (p.processRtpmap line) := by
  rw [processRtpmap, negotiatedBy, codecLine]
  split_ifs
  · rcases splitOneOf line (ascii " :/\n") 4 with
      _ | ⟨_, _ | ⟨payloadType, _ | ⟨codecname, _ | ⟨clock, _⟩⟩⟩⟩
    iterate 4 trivial
    apply Ends.ok
    cases hknown : getCodecByName codecname (strtoul clock) with
    | none =>
        rw [addRtpMap_unknown hknown]
        exact ⟨rfl, by simp [hknown, Codecs.addAll]⟩
    | some codec =>
        obtain ⟨hmtype, hcodecs⟩ := addRtpMap_known hknown p (strtoul payloadType)
        exact ⟨hmtype, by simp [hknown, hcodecs, Codecs.addAll]⟩
  · exact Ends.ok ⟨rfl, rfl⟩

theorem codecs_processLine (p : Parser) (line : AString) :
    Ends (fun _ => True) (fun q => q.mtype = readMedia p.mtype line
      ∧ q.info.codecs = p.info.codecs.addAll (negotiatedBy (readMedia p.mtype line) line)) (p.processLine line) := by
  have hparts : branches = branches.take 5 ++ ((branches.drop 5).take 2 ++ ((branches.drop 7).take 7
      ++ ((["a=rtpmap:"], processRtpmap) :: branches.drop 15))) := rfl
  have hsection (q : Parser) : ((branches.drop 5).take 2).foldlM (fun p branch => branch.2 p line) q
      = .ok ((q.processVideo line).processAudio line) := rfl
  rw [processLine_eq_branches, hparts]
  simp only [List.foldlM_append, List.foldlM_cons]
  refine (codecs_branches (fun _ => List.mem_of_mem_take) (by decide) p line).bind fun q hq => ?_
  rw [hsection, Checked.ok_bind]
  obtain ⟨hmtype, hcodecs⟩ := codecs_section q line
  rw [hq.1] at hmtype
  rw [hq.2] at hcodecs
  refine (codecs_branches (fun b hb => List.mem_of_mem_drop (List.mem_of_mem_take hb)) (by decide) _ line).bind
    fun r hr => ?_
  rw [hmtype, hcodecs] at hr
  refine (codecs_processRtpmap r line).bind fun t ht => ?_
  rw [hr.1, hr.2] at ht
  refine (codecs_branches (fun _ => List.mem_of_mem_drop) (by decide) t line).mono fun u hu => ?_
  exact ⟨hu.1.trans ht.1, hu.2.trans ht.2⟩

theorem codecs_lines (lines : List AString) (p : Parser) :
    Ends (fun _ => True) (fun q => q.info.codecs = p.info.codecs.addAll (negotiated p.mtype lines))
      (lines.foldlM processLine p) := by
  induction lines generalizing p with
  | nil => exact Ends.ok rfl
  | cons line lines ih =>
      rw [List.foldlM_cons]
      refine (codecs_processLine p line).bind fun q hq => (ih q).mono fun r hr => ?_
      rw [hr, hq.1, hq.2, negotiated, Codecs.addAll, Codecs.addAll, Codecs.addAll, List.foldl_append]

/-- Feedback and credentials are not about codecs. -/
theorem codecs_finish (p : Parser) :
    Ends (fun _ => True) (fun result => result.2.codecs = p.info.codecs) p.finish := by
  have hfeedback (payloads : List RtpMap) (lines : List AString) :
      Ends (fun _ => True) (fun payloads' : List RtpMap => payloads'.map skeleton = payloads.map skeleton)
        (lines.foldlM addFeedback payloads) := by
    refine Ends.foldlM rfl fun payloads' line _ hpayloads => ?_
    rw [addFeedback]
    refine Ends.of_forall (fun _ _ => trivial) fun payloads'' hok => ?_
    obtain ⟨payloadType, -, hok⟩ := exists_of_bind_ok hok
    obtain ⟨feedback, -, hok⟩ := exists_of_bind_ok hok
    cases hok
    rw [← hpayloads, List.map_map]
    apply List.map_congr_left
    intro rtp _
    rw [Function.comp_apply]
    split_ifs <;> rfl
  have hshared : (addCredentials (shareCredentials p.info)).codecs = p.info.codecs := by
    rw [addCredentials, shareCredentials]
    split_ifs <;> rfl
  rw [finish]
  split_ifs
  · exact Ends.ok rfl
  · refine (hfeedback _ _).bind fun payloads hpayloads => Ends.ok ?_
    rw [← hshared, SdpInfo.codecs, SdpInfo.codecs, hpayloads]

end Parser

/-- **The codecs of a description are those that its lines negotiate,** behind those from before. -/
theorem codecs_processSdp {info info' : SdpInfo} {sdp media : AString} {answer : Bool}
    (h : info.processSdp sdp media = .ok (answer, info')) :
    info'.codecs = info.codecs.addAll (negotiated (Parser.start info media).mtype (getlines sdp)) := by
  obtain ⟨p, hlines, hfinish⟩ := exists_of_bind_ok h
  have hread := (Parser.codecs_lines (getlines sdp) (Parser.start info media)).value hlines
  exact ((Parser.codecs_finish p).value hfinish).trans hread

end Licode.Media.Sdp
