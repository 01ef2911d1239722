import Licode.Media.SdpEcho

/-!
# Payloads that are read back

A payload is written as its codec, its feedback and its format parameters. The codec has to be known,
the parameters are found by the payload type, and the feedback is added when all lines have been read.
-/

namespace Licode.Media.Sdp

/-! ### Maps -/

theorem mapSet_of_forall_lt {ν : Type} {key : AString} {value : ν} {m : List (AString × ν)}
    (h : ∀ entry ∈ m, entry.1 < key) : mapSet key value m = m ++ [(key, value)] := by
  induction m with
  | nil => rfl
  | cons entry m ih =>
      obtain ⟨k, v⟩ := entry
      have hlt : k < key := h (k, v) List.mem_cons_self
      have hne : k ≠ key := by
        rintro rfl
        exact List.lt_irrefl k hlt
      rw [mapSet, if_neg hne, if_neg (List.lt_asymm hlt), ih fun e he => h e (List.mem_cons_of_mem _ he)]
      rfl

theorem FormatParameters.ext {m m' : FormatParameters} (h : m.entries = m'.entries) : m = m' := by
  cases m
  cases m'
  cases h
  rfl

def FormatParameters.setAll (m : FormatParameters) (entries : List (AString × AString)) : FormatParameters :=
  entries.foldl (fun m entry => m.set entry.1 entry.2) m

/-- A map is built again from its entries. -/
theorem FormatParameters.setAll_entries (m : FormatParameters) :
    FormatParameters.setAll ⟨[], .nil⟩ m.entries = m := by
  have hall : ∀ (entries : List (AString × AString)) (done : FormatParameters),
      (done.entries ++ entries).Pairwise (fun a b => a.1 < b.1) →
      (done.setAll entries).entries = done.entries ++ entries := by
    intro entries
    induction entries with
    | nil => exact fun done _ => (List.append_nil _).symm
    | cons entry entries ih =>
        intro done hordered
        have hlt : ∀ e ∈ done.entries, e.1 < entry.1 := fun e he =>
          (List.pairwise_append.mp hordered).2.2 e he entry List.mem_cons_self
        have hset : (done.set entry.1 entry.2).entries = done.entries ++ [entry] := mapSet_of_forall_lt hlt
        have hrest := ih (done.set entry.1 entry.2) (by rw [hset, List.append_assoc]; exact hordered)
        rw [hset, List.append_assoc] at hrest
        exact hrest
  exact FormatParameters.ext (hall m.entries ⟨[], .nil⟩ m.ordered)

/-! ### Codecs -/

/-- A codec that is found in `internalPayloadVector_`. -/
def isKnown (rtp : RtpMap) : Bool :=
  internalPayloads.any fun known => known.encodingName = rtp.encodingName ∧ known.clockRate = rtp.clockRate

theorem free_of_isKnown {rtp : RtpMap} (h : isKnown rtp = true) : free " :/\n=" rtp.encodingName = true := by
  have hnames : ∀ known ∈ internalPayloads, free " :/\n=" known.encodingName = true := by decide
  obtain ⟨known, hknown, hsame⟩ := List.any_eq_true.mp h
  rw [← (of_decide_eq_true hsame).1]
  exact hnames known hknown

namespace Parser

theorem view_addRtpMap (p : Parser) (rtp : RtpMap) :
    (p.addRtpMap rtp.payloadType rtp.encodingName rtp.clockRate).view = { p.view with info := { p.view.info with
      payloadVector := p.view.info.payloadVector ++ if isKnown rtp then
        [⟨rtp.payloadType, rtp.encodingName, rtp.clockRate, p.view.mtype, 1, [], ⟨[], .nil⟩⟩] else [] } } := by
  have hchannels : ∀ known ∈ internalPayloads, known.channels = 1 := by decide
  rw [addRtpMap]
  dsimp only
  split
  · rename_i hnone
    have hunknown : isKnown rtp = false := by
      rw [isKnown, List.any_eq_false]
      intro known hknown
      have hfilter := List.filter_eq_nil_iff.mp (List.getLast?_eq_none_iff.mp hnone) known hknown
      simpa using hfilter
    rw [hunknown, if_neg Bool.false_ne_true, List.append_nil]
  · rename_i last hlast
    obtain ⟨hmem, hsame⟩ := List.mem_filter.mp (List.mem_of_getLast? hlast)
    have hknown : isKnown rtp = true := List.any_eq_true.mpr ⟨last, hmem, hsame⟩
    rw [hknown, if_pos rfl, hchannels last hmem]
    rfl

variable {rtp : RtpMap}

/-- Both forms of the line of a codec have the same first parts. -/
theorem exists_splitOneOf_rtpmap (hname : free " :/\n=" rtp.encodingName = true) {suffix : AString}
    (hsuffix : suffix = [] ∨ ∃ channels : UInt32, suffix = ascii "/" ++ decimal channels.toNat) :
    ∃ rest, splitOneOf (SdpInfo.printRtpmap rtp ++ suffix) (ascii " :/\n") 4
      = ascii "a=rtpmap" :: decimalInt rtp.payloadType.toInt32 :: rtp.encodingName
        :: decimal rtp.clockRate.toNat :: rest := by
  have hname' : free " :/\n" rtp.encodingName = true := free_subset hname rfl
  obtain rfl | ⟨channels, rfl⟩ := hsuffix
  · refine ⟨[], ?_⟩
    have htext : SdpInfo.printRtpmap rtp ++ [] = [(ascii "a=rtpmap", 58),
        (decimalInt rtp.payloadType.toInt32, 32), (rtp.encodingName, 47)].flatMap
        (fun field => field.1 ++ [field.2]) ++ decimal rtp.clockRate.toNat := by
      simp only [SdpInfo.printRtpmap, List.flatMap_cons, List.flatMap_nil, List.append_assoc, List.append_nil]
      rfl
    rw [htext]
    refine splitOneOf_fields (Or.inr (by simp)) ?_ (Or.inr (not_mem_of_free (free_decimal rfl _)))
      (decimal_ne_nil _)
    simp only [List.forall_mem_cons]
    exact ⟨part_of_free rfl rfl, part_of_free (free_decimalInt rfl _) rfl, part_of_free hname' rfl, by simp⟩
  · refine ⟨[decimal channels.toNat], ?_⟩
    have htext : SdpInfo.printRtpmap rtp ++ (ascii "/" ++ decimal channels.toNat) = [(ascii "a=rtpmap", 58),
        (decimalInt rtp.payloadType.toInt32, 32), (rtp.encodingName, 47), (decimal rtp.clockRate.toNat, 47)].flatMap
        (fun field => field.1 ++ [field.2]) ++ decimal channels.toNat := by
      simp only [SdpInfo.printRtpmap, List.flatMap_cons, List.flatMap_nil, List.append_assoc, List.append_nil]
      rfl
    rw [htext]
    refine splitOneOf_fields (Or.inr (by simp)) ?_ (Or.inr (not_mem_of_free (free_decimal rfl _)))
      (decimal_ne_nil _)
    simp only [List.forall_mem_cons]
    exact ⟨part_of_free rfl rfl, part_of_free (free_decimalInt rfl _) rfl, part_of_free hname' rfl,
      part_of_free (free_decimal rfl _) rfl, by simp⟩

theorem strtoul_payloadType (payloadType : UInt32) : strtoul (decimalInt payloadType.toInt32) = payloadType := by
  rw [strtoul_decimalInt]
  rfl

theorem hears_rtpmap (hname : free " :/\n=" rtp.encodingName = true) {suffix : AString}
    (hsuffix : suffix = [] ∨ ∃ channels : UInt32, suffix = ascii "/" ++ decimal channels.toNat) (v : Parser) :
    Hears [SdpInfo.printRtpmap rtp ++ suffix] v { v with info := { v.info with
      payloadVector := v.info.payloadVector ++ if isKnown rtp then
        [⟨rtp.payloadType, rtp.encodingName, rtp.clockRate, v.mtype, 1, [], ⟨[], .nil⟩⟩] else [] } } := by
  have hfree : free "\n=" suffix = true := by
    obtain rfl | ⟨channels, rfl⟩ := hsuffix
    · rfl
    · exact free_text rfl (free_decimal rfl _)
  have htext : SdpInfo.printRtpmap rtp ++ suffix = ascii "a=rtpmap:" ++ (decimalInt rtp.payloadType.toInt32
      ++ ascii " " ++ rtp.encodingName ++ ascii "/" ++ decimal rtp.clockRate.toNat ++ suffix) := by
    simp only [SdpInfo.printRtpmap, List.append_assoc]
  have hrest : free "\n=" (decimalInt rtp.payloadType.toInt32 ++ ascii " " ++ rtp.encodingName ++ ascii "/"
      ++ decimal rtp.clockRate.toNat ++ suffix) = true := by
    refine free_text (free_text (free_text (free_text (free_text ?_ rfl) ?_) rfl) ?_) hfree
    · exact free_decimalInt rfl _
    · exact free_subset hname rfl
    · exact free_decimal rfl _
  have hline : only ["a=rtpmap:"] (SdpInfo.printRtpmap rtp ++ suffix) = true := by
    rw [htext]
    exact only_of_start rfl rfl (free_subset hrest rfl)
  have hnewline : free "\n" (SdpInfo.printRtpmap rtp ++ suffix) = true := by
    rw [htext]
    exact free_text rfl (free_subset hrest rfl)
  have hhas : has "a=rtpmap:" (SdpInfo.printRtpmap rtp ++ suffix) = true := by
    rw [htext]
    exact has_start _ _
  obtain ⟨rest, hparts⟩ := exists_splitOneOf_rtpmap hname hsuffix
  refine hears_branch hnewline hline rfl fun p hp => ?_
  subst hp
  refine ⟨p.addRtpMap rtp.payloadType rtp.encodingName rtp.clockRate, ?_, view_addRtpMap p rtp⟩
  rw [processRtpmap, if_pos hhas, hparts]
  dsimp only
  rw [piece_of_getElem? rfl, Checked.ok_bind, piece_of_getElem? rfl, Checked.ok_bind, piece_of_getElem? rfl,
    Checked.ok_bind, strtoul_payloadType, strtoul_number]
  rfl

/-! ### Format parameters -/

/-- A parameter that the text can hold: its key ends at the equals sign, it has a value, a value that
stands alone is one word, and there is no other attribute in the line. -/
structure ParameterClean (rtp : RtpMap) (parameter : AString × AString) : Prop where
  key : free " :=\n\x00" parameter.1 = true
  value : free "\n\x00" parameter.2 = true
  ne : parameter.2 ≠ []
  alone : parameter.1 = ascii "none" → free " :=" parameter.2 = true
  line : only ["a=fmtp:"] (SdpInfo.printFmtp rtp parameter) = true

theorem cString_eq {text : AString} (h : free "\x00" text = true) : cString text = text := by
  refine List.takeWhile_eq_self_iff.mpr fun c hc => decide_eq_true ?_
  rintro rfl
  exact not_mem_of_free h 0 hc (by decide)

theorem processFmtp_eq {parameter : AString × AString} (h : ParameterClean rtp parameter) (p : Parser) :
    p.processFmtp (SdpInfo.printFmtp rtp parameter)
      = p.setFormatParameter rtp.payloadType parameter.1 parameter.2 := by
  have hhas : has "a=fmtp:" (SdpInfo.printFmtp rtp parameter) = true := by
    rw [SdpInfo.printFmtp, List.append_assoc, List.append_assoc, List.append_assoc]
    exact has_start _ _
  have htype : free " :=" (decimalInt rtp.payloadType.toInt32) = true := free_decimalInt rfl _
  have hvalue : cString parameter.2 = parameter.2 := cString_eq (free_subset h.value rfl)
  rw [processFmtp, if_pos hhas]
  by_cases hnone : parameter.1 = ascii "none"
  · have htext : SdpInfo.printFmtp rtp parameter = [(ascii "a", 61), (ascii "fmtp", 58),
        (decimalInt rtp.payloadType.toInt32, 32)].flatMap (fun field => field.1 ++ [field.2]) ++ parameter.2 := by
      rw [SdpInfo.printFmtp, if_pos hnone]
      simp only [List.flatMap_cons, List.flatMap_nil, List.append_assoc, List.append_nil]
      rfl
    have hparts : splitOneOf (SdpInfo.printFmtp rtp parameter) (ascii " :=") 4
        = [ascii "a", ascii "fmtp", decimalInt rtp.payloadType.toInt32, parameter.2] := by
      rw [htext]
      refine splitOneOf_fields (Or.inr (by simp)) ?_ (Or.inr (not_mem_of_free (h.alone hnone))) h.ne
      simp only [List.forall_mem_cons]
      exact ⟨part_of_free rfl rfl, part_of_free rfl rfl, part_of_free htype rfl, by simp⟩
    rw [hparts, hnone]
    dsimp only
    rw [strtoul_payloadType, hvalue]
  · have htext : SdpInfo.printFmtp rtp parameter = [(ascii "a", 61), (ascii "fmtp", 58),
        (decimalInt rtp.payloadType.toInt32, 32), (parameter.1, 61)].flatMap
        (fun field => field.1 ++ [field.2]) ++ parameter.2 := by
      rw [SdpInfo.printFmtp, if_neg hnone]
      simp only [List.flatMap_cons, List.flatMap_nil, List.append_assoc, List.append_nil]
      rfl
    have hparts : splitOneOf (SdpInfo.printFmtp rtp parameter) (ascii " :=") 4
        = [ascii "a", ascii "fmtp", decimalInt rtp.payloadType.toInt32, parameter.1, parameter.2] := by
      rw [htext]
      refine splitOneOf_fields (Or.inr le_rfl) ?_ (Or.inl ⟨by decide, rfl⟩) h.ne
      simp only [List.forall_mem_cons]
      exact ⟨part_of_free rfl rfl, part_of_free rfl rfl, part_of_free htype rfl,
        part_of_free (free_subset h.key rfl) rfl, by simp⟩
    rw [hparts]
    dsimp only
    rw [strtoul_payloadType, hvalue, cString_eq (free_subset h.key rfl)]

theorem hears_fmtp {parameter : AString × AString} (h : ParameterClean rtp parameter) (v : Parser) :
    Hears [SdpInfo.printFmtp rtp parameter] v
      (v.setFormatParameter rtp.payloadType parameter.1 parameter.2) := by
  have hkey : free "\n" (if parameter.1 = ascii "none" then [] else parameter.1 ++ ascii "=") = true := by
    split_ifs
    · rfl
    · exact free_text (free_subset h.key rfl) rfl
  have hnewline : free "\n" (SdpInfo.printFmtp rtp parameter) = true :=
    free_text (free_text (free_text (free_text rfl (free_decimalInt rfl _)) rfl) hkey) (free_subset h.value rfl)
  refine hears_branch hnewline h.line rfl fun p hp => ⟨_, congrArg Except.ok (processFmtp_eq h p), ?_⟩
  rw [← hp]
  rfl

theorem hears_fmtps {parameters : List (AString × AString)} (h : ∀ kv ∈ parameters, ParameterClean rtp kv)
    (v : Parser) :
    Hears (parameters.map (SdpInfo.printFmtp rtp)) v { v with info := { v.info with
      payloadVector := v.info.payloadVector.map fun r => if r.payloadType = rtp.payloadType then
        { r with formatParameters := r.formatParameters.setAll parameters } else r } } := by
  induction parameters generalizing v with
  | nil =>
      have hsame : (v.info.payloadVector.map fun r => if r.payloadType = rtp.payloadType then
          { r with formatParameters := r.formatParameters.setAll [] } else r) = v.info.payloadVector := by
        refine (List.map_congr_left fun r _ => ?_).trans (List.map_id _)
        split_ifs <;> rfl
      rw [hsame]
      exact Hears.nil v
  | cons parameter parameters ih =>
      have hrest := (hears_fmtp (h parameter List.mem_cons_self) v).cons
        (ih (fun kv hkv => h kv (List.mem_cons_of_mem parameter hkv)) _)
      have hsame : (v.setFormatParameter rtp.payloadType parameter.1 parameter.2).info.payloadVector.map
          (fun r => if r.payloadType = rtp.payloadType then
            { r with formatParameters := r.formatParameters.setAll parameters } else r)
          = v.info.payloadVector.map fun r => if r.payloadType = rtp.payloadType then
            { r with formatParameters := r.formatParameters.setAll (parameter :: parameters) } else r := by
        rw [setFormatParameter, List.map_map]
        refine List.map_congr_left fun r _ => ?_
        by_cases htype : r.payloadType = rtp.payloadType
        · simp [htype, FormatParameters.setAll]
        · simp [htype]
      rw [← hsame]
      exact hrest

/-! ### Feedback -/

def addFeedbackLines (v : Parser) (lines : List AString) : Parser :=
  { v with tmpFeedbackVector := v.tmpFeedbackVector ++ lines }

theorem hears_feedback (rtp : RtpMap) {feedback : AString} (h : free "\n=" feedback = true) (v : Parser) :
    Hears [SdpInfo.printFeedback rtp feedback] v (v.addFeedbackLines [SdpInfo.printFeedback rtp feedback]) := by
  have htext : SdpInfo.printFeedback rtp feedback = ascii "a=rtcp-fb:"
      ++ (decimalInt rtp.payloadType.toInt32 ++ ascii " " ++ feedback) := by
    simp only [SdpInfo.printFeedback, List.append_assoc]
  have hrest : free "\n=" (decimalInt rtp.payloadType.toInt32 ++ ascii " " ++ feedback) = true :=
    free_text (free_text (free_decimalInt rfl _) rfl) h
  have hline : only ["a=rtcp-fb:"] (SdpInfo.printFeedback rtp feedback) = true := by
    rw [htext]
    exact only_of_start rfl rfl (free_subset hrest rfl)
  have hnewline : free "\n" (SdpInfo.printFeedback rtp feedback) = true := by
    rw [htext]
    exact free_text rfl (free_subset hrest rfl)
  have hhas : has "a=rtcp-fb:" (SdpInfo.printFeedback rtp feedback) = true := by
    rw [htext]
    exact has_start _ _
  refine hears_branch hnewline hline rfl fun p hp => ⟨_, rfl, ?_⟩
  rw [processFeedback, if_pos hhas, ← hp]
  rfl

theorem hears_feedbacks (rtp : RtpMap) {feedbacks : List AString} (h : ∀ fb ∈ feedbacks, free "\n=" fb = true)
    (v : Parser) :
    Hears (feedbacks.map (SdpInfo.printFeedback rtp)) v
      (v.addFeedbackLines (feedbacks.map (SdpInfo.printFeedback rtp))) := by
  have hlines : Hears (feedbacks.map (SdpInfo.printFeedback rtp)) v
      (v.addFeedbackLines (feedbacks.flatMap fun fb => [SdpInfo.printFeedback rtp fb])) := by
    refine Hears.collect (fun v => by simp [addFeedbackLines]) v fun fb hfb ls => ?_
    have hadd := hears_feedback rtp (h fb hfb) (v.addFeedbackLines ls)
    simp only [addFeedbackLines, List.append_assoc] at hadd ⊢
    exact hadd
  rwa [← List.map_eq_flatMap] at hlines

/-! ### Payloads -/

/-- The strings of a payload that the text can hold. -/
structure PayloadClean (rtp : RtpMap) : Prop where
  feedback : ∀ fb ∈ rtp.feedbackTypes, free "\n=" fb = true
  parameters : ∀ kv ∈ rtp.formatParameters.entries, ParameterClean rtp kv

/-- A codec of which nothing else is known. -/
def bare (rtp : RtpMap) : RtpMap :=
  { rtp with channels := 1, feedbackTypes := [], formatParameters := ⟨[], FormatParameters.ordered_nil⟩ }

/-- The parameters of a payload go to all payloads of its type. -/
def giveParameters (rtp r : RtpMap) : RtpMap :=
  if r.payloadType = rtp.payloadType then
    { r with formatParameters := r.formatParameters.setAll rtp.formatParameters.entries } else r

/-- The payloads after the lines of one more, but for the feedback. -/
def readPayload (payloads : List RtpMap) (rtp : RtpMap) : List RtpMap :=
  (payloads ++ [bare rtp]).map (giveParameters rtp)

/-- What is found in the lines of some payloads. -/
def hearPayloads (v : Parser) (payloads : List RtpMap) (lines : List AString) : Parser :=
  { v with
    tmpFeedbackVector := v.tmpFeedbackVector ++ lines
    info := { v.info with payloadVector := payloads.foldl readPayload v.info.payloadVector } }

theorem hears_codec (h : PayloadClean rtp) (hknown : isKnown rtp = true) {suffix : AString}
    (hsuffix : suffix = [] ∨ ∃ channels : UInt32, suffix = ascii "/" ++ decimal channels.toNat)
    {v : Parser} (hmtype : rtp.mediaType = v.mtype)
    {feedbacks : List AString} (hfeedback : ∀ fb ∈ feedbacks, free "\n=" fb = true) :
    Hears ((SdpInfo.printRtpmap rtp ++ suffix) :: feedbacks.map (SdpInfo.printFeedback rtp)
        ++ rtp.formatParameters.entries.map (SdpInfo.printFmtp rtp)) v
      (v.hearPayloads [rtp] (feedbacks.map (SdpInfo.printFeedback rtp))) := by
  have hall := ((hears_rtpmap (free_of_isKnown hknown) hsuffix v).cons (hears_feedbacks rtp hfeedback _)).append
    (hears_fmtps h.parameters _)
  have hbare : ⟨rtp.payloadType, rtp.encodingName, rtp.clockRate, v.mtype, 1, [], ⟨[], .nil⟩⟩ = bare rtp := by
    rw [← hmtype]
    rfl
  simp only [if_pos hknown, hbare] at hall
  exact hall

theorem hears_audioPayload (h : PayloadClean rtp) (hknown : isKnown rtp = true) {v : Parser}
    (hmtype : rtp.mediaType = v.mtype) :
    Hears (SdpInfo.printAudioPayload rtp) v (v.hearPayloads [rtp] []) := by
  have hsuffix : SdpInfo.printAudioPayload rtp
      = (SdpInfo.printRtpmap rtp ++ if rtp.channels > 1 then ascii "/" ++ decimal rtp.channels.toNat else [])
        :: ([] : List AString).map (SdpInfo.printFeedback rtp)
        ++ rtp.formatParameters.entries.map (SdpInfo.printFmtp rtp) := by
    rw [SdpInfo.printAudioPayload]
    split_ifs
    · simp
    · simp
  rw [hsuffix]
  refine hears_codec h hknown ?_ hmtype (by simp)
  split_ifs
  · exact Or.inr ⟨rtp.channels, rfl⟩
  · exact Or.inl rfl

theorem hears_videoPayload (h : PayloadClean rtp) (hknown : isKnown rtp = true) {v : Parser}
    (hmtype : rtp.mediaType = v.mtype) :
    Hears (SdpInfo.printVideoPayload rtp) v
      (v.hearPayloads [rtp] (rtp.feedbackTypes.map (SdpInfo.printFeedback rtp))) := by
  have hcodec := hears_codec h hknown (Or.inl rfl) hmtype h.feedback
  rw [List.append_nil] at hcodec
  exact hcodec

/-- Payloads of one media, heard one after the other. -/
theorem hears_payloads {payloads : List RtpMap} {print lines : RtpMap → List AString} {v : Parser}
    (h : ∀ rtp ∈ payloads, ∀ w : Parser, w.mtype = v.mtype →
      Hears (print rtp) w (w.hearPayloads [rtp] (lines rtp))) :
    Hears (payloads.flatMap print) v (v.hearPayloads payloads (payloads.flatMap lines)) := by
  have hall : ∀ w : Parser, w.mtype = v.mtype →
      Hears (payloads.flatMap print) w (w.hearPayloads payloads (payloads.flatMap lines)) := by
    induction payloads with
    | nil =>
        intro w _
        simp only [hearPayloads, List.flatMap_nil, List.append_nil]
        exact Hears.nil w
    | cons rtp payloads ih =>
        intro w hw
        have hrest := ih (fun r hr => h r (List.mem_cons_of_mem rtp hr)) (w.hearPayloads [rtp] (lines rtp)) hw
        have hboth := (h rtp List.mem_cons_self w hw).append hrest
        simp only [hearPayloads, List.append_assoc] at hboth
        exact hboth
  exact hall v rfl

/-! ### What the payloads are then -/

theorem mapSet_of_mem {ν : Type} {key : AString} {value : ν} {m : List (AString × ν)}
    (h : m.Pairwise fun a b => a.1 < b.1) (hmem : (key, value) ∈ m) : mapSet key value m = m := by
  induction m with
  | nil => cases hmem
  | cons entry m ih =>
      obtain ⟨k, w⟩ := entry
      obtain ⟨hfirst, hrest⟩ := List.pairwise_cons.mp h
      obtain heq | hmem := List.mem_cons.mp hmem
      · cases heq
        rw [mapSet, if_pos rfl]
      · have hlt : k < key := hfirst _ hmem
        have hne : k ≠ key := by
          rintro rfl
          exact List.lt_irrefl k hlt
        rw [mapSet, if_neg hne, if_neg (List.lt_asymm hlt), ih hrest hmem]

/-- Parameters that are there already change nothing. -/
theorem setAll_of_subset {m : FormatParameters} {entries : List (AString × AString)} (h : entries ⊆ m.entries) :
    m.setAll entries = m := by
  induction entries with
  | nil => rfl
  | cons entry entries ih =>
      obtain ⟨hentry, hentries⟩ := List.cons_subset.mp h
      have hset : m.set entry.1 entry.2 = m := FormatParameters.ext (mapSet_of_mem m.ordered hentry)
      rw [FormatParameters.setAll, List.foldl_cons, hset]
      exact ih hentries

/-- Two payloads of one type, where the first has all parameters of the second. -/
def Absorbs (r s : RtpMap) : Prop :=
  r.payloadType = s.payloadType → s.formatParameters.entries ⊆ r.formatParameters.entries

/-- All is read back but the feedback. -/
theorem foldl_readPayload {payloads : List RtpMap} (hchannels : ∀ rtp ∈ payloads, rtp.channels = 1)
    (habsorbs : payloads.Pairwise Absorbs) :
    payloads.foldl readPayload [] = payloads.map fun rtp => { rtp with feedbackTypes := [] } := by
  induction payloads using List.reverseRecOn with
  | nil => rfl
  | append_singleton payloads rtp ih =>
      obtain ⟨hpairs, -, hlast⟩ := List.pairwise_append.mp habsorbs
      have hone : rtp.channels = 1 := hchannels rtp (by simp)
      rw [List.foldl_append, ih (fun r hr => hchannels r (List.mem_append_left _ hr)) hpairs, List.foldl_cons,
        List.foldl_nil, readPayload, List.map_append, List.map_append, List.map_map]
      congr 1
      · refine List.map_congr_left fun r hr => ?_
        by_cases htype : r.payloadType = rtp.payloadType
        · have hset := setAll_of_subset (hlast r hr rtp (List.mem_singleton.mpr rfl) htype)
          simp [giveParameters, htype, hset]
        · simp [giveParameters, htype]
      · simp [giveParameters, bare, FormatParameters.setAll_entries, hone]

theorem map_mediaType_foldl_readPayload (payloads old : List RtpMap) :
    (payloads.foldl readPayload old).map (·.mediaType) = old.map (·.mediaType) ++ payloads.map (·.mediaType) := by
  induction payloads generalizing old with
  | nil => simp
  | cons rtp payloads ih =>
      have hone : (readPayload old rtp).map (·.mediaType) = old.map (·.mediaType) ++ [rtp.mediaType] := by
        have hsame (r : RtpMap) : (giveParameters rtp r).mediaType = r.mediaType := by
          rw [giveParameters]
          split_ifs <;> rfl
        simp [readPayload, hsame, bare]
      rw [List.foldl_cons, ih, hone, List.append_assoc]
      rfl

/-! ### Feedback when all lines have been read -/

theorem addFeedback_eq {feedback : AString} (hne : feedback ≠ []) (payloads : List RtpMap) :
    addFeedback payloads (SdpInfo.printFeedback rtp feedback)
      = .ok (payloads.map fun r => if r.payloadType = rtp.payloadType then
        { r with feedbackTypes := r.feedbackTypes ++ [feedback] } else r) := by
  have htext : SdpInfo.printFeedback rtp feedback = [(ascii "a=rtcp-fb", 58),
      (decimalInt rtp.payloadType.toInt32, 32)].flatMap (fun field => field.1 ++ [field.2]) ++ feedback := by
    simp only [SdpInfo.printFeedback, List.flatMap_cons, List.flatMap_nil, List.append_assoc, List.append_nil]
    rfl
  have hparts : splitOneOf (SdpInfo.printFeedback rtp feedback) (ascii " :") 2
      = [ascii "a=rtcp-fb", decimalInt rtp.payloadType.toInt32, feedback] := by
    rw [htext]
    refine splitOneOf_fields (Or.inr le_rfl) ?_ (Or.inl ⟨by decide, rfl⟩) hne
    simp only [List.forall_mem_cons]
    exact ⟨part_of_free rfl rfl, part_of_free (free_decimalInt rfl _) rfl, by simp⟩
  rw [addFeedback, hparts, piece_of_getElem? rfl, Checked.ok_bind, piece_of_getElem? rfl, Checked.ok_bind,
    strtoul_payloadType]
  rfl

/-- The feedback that some payloads have for a type. -/
def feedbackFor (payloads : List RtpMap) (payloadType : UInt32) : List AString :=
  (payloads.filter (·.payloadType = payloadType)).flatMap (·.feedbackTypes)

theorem foldlM_addFeedback_one {feedbacks : List AString} (hne : ∀ fb ∈ feedbacks, fb ≠ [])
    (payloads : List RtpMap) :
    (feedbacks.map (SdpInfo.printFeedback rtp)).foldlM addFeedback payloads
      = .ok (payloads.map fun r => if r.payloadType = rtp.payloadType then
        { r with feedbackTypes := r.feedbackTypes ++ feedbacks } else r) := by
  induction feedbacks generalizing payloads with
  | nil => simp
  | cons feedback feedbacks ih =>
      rw [List.map_cons, List.foldlM_cons, addFeedback_eq (hne feedback List.mem_cons_self), Checked.ok_bind,
        ih fun fb hfb => hne fb (List.mem_cons_of_mem feedback hfb), List.map_map]
      congr 1
      refine List.map_congr_left fun r _ => ?_
      by_cases htype : r.payloadType = rtp.payloadType
      · simp [htype]
      · simp [htype]

theorem foldlM_addFeedback {written : List RtpMap} (hne : ∀ rtp ∈ written, ∀ fb ∈ rtp.feedbackTypes, fb ≠ [])
    (payloads : List RtpMap) :
    (written.flatMap fun rtp => rtp.feedbackTypes.map (SdpInfo.printFeedback rtp)).foldlM addFeedback payloads
      = .ok (payloads.map fun r =>
        { r with feedbackTypes := r.feedbackTypes ++ feedbackFor written r.payloadType }) := by
  induction written generalizing payloads with
  | nil => simp [feedbackFor]
  | cons rtp written ih =>
      rw [List.flatMap_cons, List.foldlM_append, foldlM_addFeedback_one (hne rtp List.mem_cons_self),
        Checked.ok_bind, ih fun r hr => hne r (List.mem_cons_of_mem rtp hr), List.map_map]
      congr 1
      refine List.map_congr_left fun r _ => ?_
      by_cases htype : r.payloadType = rtp.payloadType
      · simp [htype, feedbackFor]
      · simp [htype, feedbackFor, Ne.symm htype]

end Parser

end Licode.Media.Sdp
