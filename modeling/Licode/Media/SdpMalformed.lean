import Licode.Media.SdpFaults

/-!
# Lines that are not what they should be

A line is malformed for an attribute if a field that is read of it is not there, or is kept as a number or as
the type of a candidate and is none. Such a line should be ignored, if the text is read at all. The branches of
`processSdp` look for some of the fields only, and `strtoul` takes any word for a number.
-/

namespace Licode.Media.Sdp

/-! ### The form of a line -/

/-- The text of a field; the last of a line may be followed by the carriage return. -/
def fieldText (field : AString) : AString := field.takeWhile (· ≠ 13)

def isNumber (text : AString) : Bool := text ≠ [] && text.all isDigit

/-- There is a field, and it is a number. -/
def hasNumber (parts : List AString) (i : Nat) : Bool := parts[i]?.any fun field => isNumber (fieldText field)

structure CandidateFormed (pieces : List AString) : Prop where
  componentId : hasNumber pieces 2 = true
  priority : hasNumber pieces 4 = true
  hostPort : hasNumber pieces 6 = true
  typ : pieces[7]? = some (ascii "typ")
  hostType : ∃ word, pieces[8]? = some word
    ∧ fieldText word ∈ [ascii "host", ascii "srflx", ascii "prflx", ascii "relay"]
  rPort : ∀ word, pieces[8]? = some word → fieldText word ∈ [ascii "srflx", ascii "relay"] →
    hasNumber pieces 12 = true

/-- What `processSdp` looks for in a line, in its order. -/
inductive Attribute where
  | rtcpMux
  | direction
  | profile
  | fingerprint
  | group
  | video
  | audio
  | candidate
  | crypto
  | username
  | password
  | mid
  | ssrc
  | ssrcGroup
  | rtpmap
  | extmap
  | feedback
  | fmtp
  | bandwidth

namespace Attribute

def all : List Attribute :=
  [rtcpMux, direction, profile, fingerprint, group, video, audio, candidate, crypto, username, password, mid, ssrc,
    ssrcGroup, rtpmap, extmap, feedback, fmtp, bandwidth]

/-- The branch of the loop body for an attribute. -/
def process (p : Parser) (line : AString) : Attribute → Checked Parser
  | rtcpMux => .ok (p.processRtcpMux line)
  | direction => .ok (p.processDirection line)
  | profile => .ok (p.processProfile line)
  | fingerprint => p.processFingerprint line
  | group => p.processGroup line
  | video => .ok (p.processVideo line)
  | audio => .ok (p.processAudio line)
  | candidate => p.processCand line
  | crypto => p.processCrypto line
  | username => p.processUser line
  | password => p.processPass line
  | mid => p.processMid line
  | ssrc => p.processSsrc line
  | ssrcGroup => .ok (p.processSsrcGroup line)
  | rtpmap => p.processRtpmap line
  | extmap => p.processExtmap line
  | feedback => .ok (p.processFeedback line)
  | fmtp => .ok (p.processFmtp line)
  | bandwidth => .ok (p.processBandwidth line)

/-- A line that has an attribute has its fields. The fields of feedback are looked at when all lines have been
read. -/
def Formed (line : AString) : Attribute → Prop
  | fingerprint => has "a=fingerprint" line → ∃ value, (splitOneOf line (ascii ":") 1)[1]? = some value
      ∧ 2 ≤ (splitOneOf value (ascii " ") 0).length
  | group => has "a=group:" line → 2 ≤ (splitOneOf line (ascii ":  \r\n") 10).length
  | candidate => has "a=candidate:" line → CandidateFormed (splitOneOf line (ascii " :") 0)
  | crypto => has "a=crypto:" line → 5 ≤ (splitOneOf line (ascii " :") 0).length
  | username => has "a=ice-ufrag" line → 2 ≤ (splitOneOf line (ascii ":") 1).length
  | password => has "a=ice-pwd" line → 2 ≤ (splitOneOf line (ascii ":") 1).length
  | mid => has "a=mid" line → 2 ≤ (splitOneOf line (ascii ": \r\n") 4).length
  | ssrc => has "a=ssrc" line → hasNumber (splitOneOf line (ascii " :") 2) 1 = true
  | ssrcGroup => has "a=ssrc-group" line → hasNumber (splitOneOf line (ascii " :") 10) 3 = true
  | rtpmap => has "a=rtpmap:" line → hasNumber (splitOneOf line (ascii " :/\n") 4) 1 = true
      ∧ hasNumber (splitOneOf line (ascii " :/\n") 4) 3 = true
  | extmap => has "a=extmap:" line → 4 ≤ (splitOneOf line (ascii " :=") 3).length
      -- the number may be followed by a direction
      ∧ ((splitOneOf line (ascii " :=") 3)[2]?.any fun id => isNumber (id.takeWhile (· ≠ 47))) = true
  | fmtp => has "a=fmtp:" line → 4 ≤ (splitOneOf line (ascii " :=") 4).length
      ∧ hasNumber (splitOneOf line (ascii " :=") 4) 2 = true
  | bandwidth => has "b=AS:" line → hasNumber (splitOneOf line (ascii ":") 2) 1 = true
  | rtcpMux | direction | profile | video | audio | feedback => True

end Attribute

/-- The loop body is its branches, one after the other. -/
theorem Parser.processLine_eq_foldlM (p : Parser) (line : AString) :
    p.processLine line = Attribute.all.foldlM (fun p a => a.process p line) p := by
  simp only [processLine, Attribute.all, List.foldlM_cons, List.foldlM_nil, Attribute.process, Checked.ok_bind]

/-! ### Lines that change nothing -/

/-- The type, the option and the value that a line with a format parameter gives. -/
def formatParameter (line : AString) : Option (UInt32 × AString × AString) :=
  match splitOneOf line (ascii " :=") 4 with
  | [_, _, payloadType, value] => some (strtoul payloadType, ascii "none", cString value)
  | _ :: _ :: payloadType :: option :: value :: _ => some (strtoul payloadType, cString option, cString value)
  | _ => none

/-- One of the codecs that are known. -/
def Known (codecname : AString) (clock : UInt32) : Prop :=
  ∃ rtp ∈ internalPayloads, rtp.encodingName = codecname ∧ rtp.clockRate = clock

/-- A malformed line is not kept: a candidate that is not for UDP or without its word, a line of the tags without
one, a source that is known or comes to 0, a codec that is not known, an extension without an identifier, and what
leaves a number or a format parameter as it was. -/
def Attribute.Disregards (p : Parser) (line : AString) : Attribute → Prop
  | candidate => CandidateSupplied (splitOneOf line (ascii " :") 0) ∧ ¬ CandidateKept (splitOneOf line (ascii " :") 0)
  | mid => True
  | ssrc => p.mtype = .video ∧ p.info.videoSsrc = 0 ∨ p.mtype = .audio ∧ p.info.audioSsrc = 0 →
      ∃ text, (splitOneOf line (ascii " :") 2)[1]? = some text ∧ strtoul text = 0
  | ssrcGroup => p.mtype = .video → ∀ text, (splitOneOf line (ascii " :") 10)[3]? = some text →
      strtoul text = p.info.videoRtxSsrc
  | rtpmap => ∃ codecname clock, (splitOneOf line (ascii " :/\n") 4)[2]? = some codecname
      ∧ (splitOneOf line (ascii " :/\n") 4)[3]? = some clock ∧ ¬ Known codecname (strtoul clock)
  | extmap => (splitOneOf line (ascii " :=") 3).length < 3
  | fmtp => ∀ payloadType option value, formatParameter line = some (payloadType, option, value) →
      ∀ rtp ∈ p.info.payloadVector, rtp.payloadType = payloadType →
        rtp.formatParameters.set option value = rtp.formatParameters
  | bandwidth => p.mtype = .video → ∀ text, (splitOneOf line (ascii ":") 2)[1]? = some text →
      strtoul text = p.info.videoBandwidth
  | _ => False

namespace Parser

variable {p : Parser} {line : AString}

/-- What follows a piece that is taken is done with it. -/
theorem piece_bind_eq_ok_iff {α : Type} {parts : List AString} {i : Nat} {f : AString → Checked α} {a : α} :
    (piece parts i >>= f) = .ok a ↔ ∃ part, parts[i]? = some part ∧ f part = .ok a := by
  rw [piece]
  cases parts[i]? with
  | none =>
      refine iff_of_false (fun h => ?_) (fun h => ?_)
      · cases h
      · obtain ⟨_, hpart, -⟩ := h
        cases hpart
  | some part =>
      rw [Checked.ok_bind]
      refine ⟨fun h => ⟨part, rfl, h⟩, fun h => ?_⟩
      obtain ⟨_, hpart, h⟩ := h
      cases hpart
      exact h

/-- What a branch cannot do without is a fault. -/
theorem not_ok_of_needs {needs : Prop} {post : Parser → Prop} {x : Checked Parser}
    (hx : Needs .outOfBounds needs post x) (hnot : ¬ needs) : ¬ x = .ok p := by
  rw [hx.2 hnot]
  exact nofun

theorem processCand_ignores_iff (hhas : has "a=candidate:" line = true) :
    p.processCand line = .ok p ↔ CandidateSupplied (splitOneOf line (ascii " :") 0)
      ∧ ¬ CandidateKept (splitOneOf line (ascii " :") 0) := by
  have hneeds := processCandidate_needs (splitOneOf line (ascii " :") 0) p.mtype
  rw [processCand, if_pos hhas]
  by_cases hsupplied : CandidateSupplied (splitOneOf line (ascii " :") 0)
  · obtain ⟨candidate, hcandidate, hkept⟩ := hneeds.1 hsupplied
    rw [hcandidate, Checked.ok_bind, ← hkept, and_iff_right hsupplied]
    cases candidate with
    | none => simp [pure, Except.pure]
    | some candidate =>
        refine iff_of_false (fun h => ?_) (by simp)
        have hlist := congrArg (fun q : Parser => q.info.candidateVector.length) (Except.ok.inj h)
        simp at hlist
  · rw [hneeds.2 hsupplied]
    exact iff_of_false nofun fun h => hsupplied h.1

/-- What is kept of a line is what was there already. -/
theorem keep_eq_ok_iff (keep : UInt32 → Parser) {number : UInt32} (hkeep : ∀ n, keep n = p ↔ n = number)
    (parts : List AString) (i : Nat) :
    (piece parts i >>= fun text => return keep (strtoul text)) = .ok p
      ↔ ∃ text, parts[i]? = some text ∧ strtoul text = number := by
  rw [piece_bind_eq_ok_iff]
  refine exists_congr fun text => and_congr_right fun _ => ?_
  exact (Except.ok.injEq _ _).to_iff.trans (hkeep _)

theorem processSsrc_ignores_iff (hhas : has "a=ssrc" line = true) :
    p.processSsrc line = .ok p ↔
      (p.mtype = .video ∧ p.info.videoSsrc = 0 ∨ p.mtype = .audio ∧ p.info.audioSsrc = 0 →
        ∃ text, (splitOneOf line (ascii " :") 2)[1]? = some text ∧ strtoul text = 0) := by
  rw [processSsrc, if_pos hhas]
  dsimp only
  split_ifs with hvideo haudio
  · rw [forall_prop_of_true (Or.inl hvideo)]
    refine keep_eq_ok_iff (fun n => { p with info := { p.info with videoSsrc := n } })
      (fun n => ⟨fun h => ?_, fun h => ?_⟩) _ 1
    · exact (congrArg (fun q : Parser => q.info.videoSsrc) h).trans hvideo.2
    · rw [h, ← hvideo.2]
  · rw [forall_prop_of_true (Or.inr haudio)]
    refine keep_eq_ok_iff (fun n => { p with info := { p.info with audioSsrc := n } })
      (fun n => ⟨fun h => ?_, fun h => ?_⟩) _ 1
    · exact (congrArg (fun q : Parser => q.info.audioSsrc) h).trans haudio.2
    · rw [h, ← haudio.2]
  · exact iff_of_true rfl fun h => absurd h (not_or.mpr ⟨hvideo, haudio⟩)

/-- A number that is kept for video, if it is there. -/
theorem keepVideo_eq_self_iff (keep : UInt32 → Parser) {number : UInt32} (hkeep : ∀ n, keep n = p ↔ n = number)
    {tag : Bool} (htag : tag = true) (field : Option AString) :
    (if tag = true ∧ p.mtype = .video then
        match field with
        | some text => keep (strtoul text)
        | none => p
      else p) = p ↔ (p.mtype = .video → ∀ text, field = some text → strtoul text = number) := by
  by_cases hvideo : p.mtype = .video
  · rw [if_pos ⟨htag, hvideo⟩, forall_prop_of_true hvideo]
    cases field with
    | none => exact iff_of_true rfl nofun
    | some text => simp [hkeep]
  · rw [if_neg fun h => hvideo h.2]
    exact iff_of_true rfl fun h => absurd h hvideo

theorem processSsrcGroup_ignores_iff (hhas : has "a=ssrc-group" line = true) :
    p.processSsrcGroup line = p ↔ (p.mtype = .video → ∀ text, (splitOneOf line (ascii " :") 10)[3]? = some text →
      strtoul text = p.info.videoRtxSsrc) := by
  refine keepVideo_eq_self_iff (fun n => { p with info := { p.info with videoRtxSsrc := n } })
    (fun n => ⟨fun h => ?_, fun h => ?_⟩) hhas _
  · exact congrArg (fun q : Parser => q.info.videoRtxSsrc) h
  · rw [h]

theorem processBandwidth_ignores_iff (hhas : has "b=AS:" line = true) :
    p.processBandwidth line = p ↔ (p.mtype = .video → ∀ text, (splitOneOf line (ascii ":") 2)[1]? = some text →
      strtoul text = p.info.videoBandwidth) := by
  refine keepVideo_eq_self_iff (fun n => { p with info := { p.info with videoBandwidth := n } })
    (fun n => ⟨fun h => ?_, fun h => ?_⟩) hhas _
  · exact congrArg (fun q : Parser => q.info.videoBandwidth) h
  · rw [h]

theorem addRtpMap_eq_self_iff (payloadType : UInt32) (codecname : AString) (clock : UInt32) :
    p.addRtpMap payloadType codecname clock = p ↔ ¬ Known codecname clock := by
  have hknown : Known codecname clock
      ↔ internalPayloads.filter (fun rtp => rtp.encodingName = codecname ∧ rtp.clockRate = clock) ≠ [] := by
    simp [Known, List.filter_eq_nil_iff]
  rw [addRtpMap, hknown, not_not]
  dsimp only
  split
  · rename_i hlast
    exact iff_of_true rfl (List.getLast?_eq_none_iff.mp hlast)
  · rename_i last hlast
    refine iff_of_false (fun h => ?_) fun hnil => ?_
    · have hlength := congrArg (fun q : Parser => q.info.payloadVector.length) h
      simp at hlength
    · rw [hnil] at hlast
      cases hlast

theorem processRtpmap_ignores_iff (hhas : has "a=rtpmap:" line = true) :
    p.processRtpmap line = .ok p ↔ ∃ codecname clock, (splitOneOf line (ascii " :/\n") 4)[2]? = some codecname
      ∧ (splitOneOf line (ascii " :/\n") 4)[3]? = some clock ∧ ¬ Known codecname (strtoul clock) := by
  rw [processRtpmap, if_pos hhas]
  dsimp only
  rw [piece_bind_eq_ok_iff]
  simp only [piece_bind_eq_ok_iff]
  constructor
  · rintro ⟨payloadType, -, codecname, hcodec, clock, hclock, hsame⟩
    exact ⟨codecname, clock, hcodec, hclock, (addRtpMap_eq_self_iff _ _ _).mp (Except.ok.inj hsame)⟩
  · rintro ⟨codecname, clock, hcodec, hclock, hunknown⟩
    have hlength := (List.getElem?_eq_some_iff.mp hclock).1
    refine ⟨_, List.getElem?_eq_getElem (by omega), codecname, hcodec, clock, hclock, ?_⟩
    exact congrArg Except.ok ((addRtpMap_eq_self_iff _ _ _).mpr hunknown)

theorem processExtmap_ignores_iff (hhas : has "a=extmap:" line = true) :
    p.processExtmap line = .ok p ↔ (splitOneOf line (ascii " :=") 3).length < 3 := by
  rw [processExtmap, if_pos hhas]
  dsimp only
  split_ifs with hparts
  · refine iff_of_false (fun h => ?_) (by omega)
    obtain ⟨id, -, h⟩ := piece_bind_eq_ok_iff.mp h
    obtain ⟨text, -, h⟩ := piece_bind_eq_ok_iff.mp h
    obtain ⟨uri, -, h⟩ := exists_of_bind_ok h
    have hlength := congrArg (fun q : Parser => q.info.extMapVector.length) (Except.ok.inj h)
    simp at hlength
  · exact iff_of_true rfl (by omega)

theorem setFormatParameter_eq_self_iff (payloadType : UInt32) (option value : AString) :
    p.setFormatParameter payloadType option value = p ↔ ∀ rtp ∈ p.info.payloadVector, rtp.payloadType = payloadType →
      rtp.formatParameters.set option value = rtp.formatParameters := by
  rw [setFormatParameter]
  constructor
  · intro h rtp hrtp htype
    have hmap := congrArg (fun q : Parser => q.info.payloadVector) h
    have hsame := List.map_inj_left.mp (hmap.trans (List.map_id _).symm) rtp hrtp
    rw [if_pos htype] at hsame
    exact congrArg RtpMap.formatParameters hsame
  · intro h
    have hmap : (p.info.payloadVector.map fun rtp => if rtp.payloadType = payloadType then
        { rtp with formatParameters := rtp.formatParameters.set option value } else rtp) = p.info.payloadVector := by
      refine (List.map_congr_left fun rtp hrtp => ?_).trans (List.map_id _)
      split_ifs with htype
      · rw [h rtp hrtp htype]
        rfl
      · rfl
    rw [hmap]

theorem processFmtp_of_has (hhas : has "a=fmtp:" line = true) :
    p.processFmtp line = match formatParameter line with
      | some (payloadType, option, value) => p.setFormatParameter payloadType option value
      | none => p := by
  rw [processFmtp, if_pos hhas, formatParameter]
  rcases splitOneOf line (ascii " :=") 4 with _ | ⟨_, _ | ⟨_, _ | ⟨_, _ | ⟨_, _ | ⟨_, _⟩⟩⟩⟩⟩ <;> rfl

theorem processFmtp_ignores_iff (hhas : has "a=fmtp:" line = true) :
    p.processFmtp line = p ↔ ∀ payloadType option value, formatParameter line = some (payloadType, option, value) →
      ∀ rtp ∈ p.info.payloadVector, rtp.payloadType = payloadType →
        rtp.formatParameters.set option value = rtp.formatParameters := by
  rw [processFmtp_of_has hhas]
  cases formatParameter line with
  | none => exact iff_of_true rfl nofun
  | some found =>
      obtain ⟨payloadType, option, value⟩ := found
      rw [setFormatParameter_eq_self_iff]
      refine ⟨fun h _ _ _ hsome => ?_, fun h => h payloadType option value rfl⟩
      cases hsome
      exact h

end Parser

/-- Just the lines that are disregarded are ignored by the branch of an attribute that they are malformed for. -/
theorem Attribute.process_eq_self_iff {a : Attribute} {p : Parser} {line : AString} (h : ¬ a.Formed line) :
    a.process p line = .ok p ↔ a.Disregards p line := by
  cases a with
  | rtcpMux | direction | profile | video | audio | feedback => exact absurd trivial h
  | fingerprint => exact iff_of_false (Parser.not_ok_of_needs (Parser.processFingerprint_reads p line) h) id
  | group => exact iff_of_false (Parser.not_ok_of_needs (Parser.processGroup_reads p line) h) id
  | crypto => exact iff_of_false (Parser.not_ok_of_needs (Parser.processCrypto_reads p line) h) id
  | username => exact iff_of_false (Parser.not_ok_of_needs (Parser.processUser_reads p line) h) id
  | password => exact iff_of_false (Parser.not_ok_of_needs (Parser.processPass_reads p line) h) id
  | candidate => exact Parser.processCand_ignores_iff (Classical.not_imp.mp h).1
  | mid =>
      obtain ⟨hhas, hparts⟩ := Classical.not_imp.mp h
      refine iff_of_true ?_ trivial
      rw [process, Parser.processMid, if_pos hhas]
      rcases hsplit : splitOneOf line (ascii ": \r\n") 4 with _ | ⟨_, _ | ⟨_, _⟩⟩
      · rfl
      · rfl
      · simp [hsplit] at hparts
  | ssrc => exact Parser.processSsrc_ignores_iff (Classical.not_imp.mp h).1
  | ssrcGroup =>
      exact (Except.ok.injEq _ _).to_iff.trans (Parser.processSsrcGroup_ignores_iff (Classical.not_imp.mp h).1)
  | rtpmap => exact Parser.processRtpmap_ignores_iff (Classical.not_imp.mp h).1
  | extmap => exact Parser.processExtmap_ignores_iff (Classical.not_imp.mp h).1
  | fmtp => exact (Except.ok.injEq _ _).to_iff.trans (Parser.processFmtp_ignores_iff (Classical.not_imp.mp h).1)
  | bandwidth =>
      exact (Except.ok.injEq _ _).to_iff.trans (Parser.processBandwidth_ignores_iff (Classical.not_imp.mp h).1)

/-! ### The whole text -/

/-- Feedback is for all payloads of a type, or for all there are. -/
def FeedbackFormed (line : AString) : Prop :=
  3 ≤ (splitOneOf line (ascii " :") 2).length ∧ (hasNumber (splitOneOf line (ascii " :") 2) 1 = true
    ∨ (splitOneOf line (ascii " :") 2)[1]? = some (ascii "*"))

def FeedbackDisregarded (payloadVector : List RtpMap) (line : AString) : Prop :=
  ∃ payloadType, (splitOneOf line (ascii " :") 2)[1]? = some payloadType
    ∧ 3 ≤ (splitOneOf line (ascii " :") 2).length
    ∧ ∀ rtp ∈ payloadVector, rtp.payloadType ≠ strtoul payloadType

theorem addFeedback_eq_self_iff (payloadVector : List RtpMap) (line : AString) :
    Parser.addFeedback payloadVector line = .ok payloadVector ↔ FeedbackDisregarded payloadVector line := by
  rw [Parser.addFeedback, Parser.piece_bind_eq_ok_iff]
  simp only [Parser.piece_bind_eq_ok_iff]
  refine exists_congr fun payloadType => and_congr_right fun _ => ?_
  constructor
  · rintro ⟨feedback, hfeedback, hsame⟩
    refine ⟨(List.getElem?_eq_some_iff.mp hfeedback).1, fun rtp hrtp htype => ?_⟩
    have hadded := List.map_inj_left.mp ((Except.ok.inj hsame).trans (List.map_id _).symm) rtp hrtp
    rw [if_pos htype] at hadded
    have hlength := congrArg (fun rtp : RtpMap => rtp.feedbackTypes.length) hadded
    simp at hlength
  · rintro ⟨hparts, hnone⟩
    refine ⟨_, List.getElem?_eq_getElem hparts, congrArg Except.ok ?_⟩
    exact (List.map_congr_left fun rtp hrtp => if_neg (hnone rtp hrtp)).trans (List.map_id _)

/-- What is asked of every line for every attribute, in the state that has been reached by then, and of every line
with feedback. -/
def EachLine (branch : Parser → AString → Attribute → Prop) (feedback : List RtpMap → AString → Prop)
    (info : SdpInfo) (sdp media : AString) : Prop :=
  Along (fun p line => Along (fun q a => branch q line a) (fun q a => a.process q line) Attribute.all p)
      Parser.processLine (getlines sdp) (Parser.start info media)
    ∧ ∀ p : Parser, (getlines sdp).foldlM Parser.processLine (Parser.start info media) = .ok p →
      Along feedback Parser.addFeedback p.tmpFeedbackVector p.info.payloadVector

/-- What is malformed changes nothing. -/
def MalformedIgnored : SdpInfo → AString → AString → Prop :=
  EachLine (fun p line a => ¬ a.Formed line → a.process p line = .ok p)
    fun payloadVector line => ¬ FeedbackFormed line → Parser.addFeedback payloadVector line = .ok payloadVector

def MalformedDisregarded : SdpInfo → AString → AString → Prop :=
  EachLine (fun p line a => ¬ a.Formed line → a.Disregards p line)
    fun payloadVector line => ¬ FeedbackFormed line → FeedbackDisregarded payloadVector line

theorem malformedIgnored_iff (info : SdpInfo) (sdp media : AString) :
    MalformedIgnored info sdp media ↔ MalformedDisregarded info sdp media := by
  refine and_congr (Along.congr (fun p line => Along.congr (fun q a => ?_) _ _) _ _)
    (forall₂_congr fun p _ => Along.congr (fun payloadVector line => ?_) _ _)
  · exact imp_congr_right Attribute.process_eq_self_iff
  · exact imp_congr_right fun _ => addFeedback_eq_self_iff payloadVector line

/-- No line has left a name for the credentials. -/
def Reading.Nameless (c : Reading) (lines : List AString) : Prop :=
  (lines.foldl Reading.after c).videoNamed = false ∧ (lines.foldl Reading.after c).audioNamed = false

theorem Parser.finish_false_iff (p : Parser) :
    (∃ info, p.finish = .ok (false, info)) ↔ p.reading.Nameless [] := by
  have hnames : p.reading.Nameless [] ↔ p.info.iceVideoUsername = [] ∧ p.info.iceAudioUsername = [] := by
    simp [Reading.Nameless, reading]
  rw [hnames, finish]
  split_ifs with hempty
  · exact iff_of_true ⟨p.info, rfl⟩ hempty
  · refine iff_of_false ?_ hempty
    rintro ⟨info, hresult⟩
    obtain ⟨payloadVector, -, hresult⟩ := exists_of_bind_ok hresult
    cases hresult

/-- A text that is read to its end is refused for the missing names only. -/
theorem Parser.read_false_iff (p : Parser) (lines : List AString) :
    (∃ info, p.read lines = .ok (false, info))
      ↔ p.reading.Supplied lines ∧ p.reading.Unstuck lines ∧ p.reading.Nameless lines := by
  induction lines generalizing p with
  | nil =>
      have hread : p.read [] = p.finish := rfl
      rw [hread, p.finish_false_iff]
      refine ⟨fun h => ⟨fun hnamed => ?_, trivial, h⟩, fun h => h.2.2⟩
      obtain hvideo | haudio := hnamed
      · exact absurd (hvideo.symm.trans h.1) (by decide)
      · exact absurd (haudio.symm.trans h.2) (by decide)
  | cons line lines ih =>
      rw [read_cons, Reading.Supplied, Reading.Unstuck]
      have hout := processLine_outcome p line
      generalize p.processLine line = x at hout
      cases hout with
      | headMissing hhead => simp [hhead]
      | stuck hhead hstuck => simp [hhead, hstuck]
      | tailMissing hhead hstuck htail => simp [hstuck, htail]
      | read hhead hstuck htail q hq =>
          have hnames : p.reading.Nameless (line :: lines) ↔ q.reading.Nameless lines := by
            rw [hq]
            rfl
          rw [Checked.ok_bind, ih q, hq, hnames, hq]
          simp [hhead, hstuck, htail]

/-- Every piece is there, every length has its value, and what is malformed is ignored or makes `processSdp` return
false, for just the texts that supply what their lines need and either leave no name for the credentials or are
malformed only in what is disregarded. -/
theorem SdpInfo.malformed_ignored_iff (info : SdpInfo) (sdp media : AString) :
    (info.processSdp sdp media ≠ .error .outOfBounds
        ∧ ((∃ info', info.processSdp sdp media = .ok (false, info')) ∨ MalformedIgnored info sdp media))
      ↔ (Parser.start info media).reading.Supplied (getlines sdp)
        ∧ ((Parser.start info media).reading.Unstuck (getlines sdp)
            ∧ (Parser.start info media).reading.Nameless (getlines sdp)
          ∨ MalformedDisregarded info sdp media) := by
  rw [processSdp_inBounds_iff, malformedIgnored_iff]
  have hread : info.processSdp sdp media = (Parser.start info media).read (getlines sdp) := rfl
  rw [hread, Parser.read_false_iff]
  exact and_congr_right fun hsupplied => or_congr_left (and_iff_right hsupplied)

end Licode.Media.Sdp
