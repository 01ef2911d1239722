import Licode.Media.SdpEcho

/-!
# Candidates as lines

A candidate goes to the other side as a line of its own, which `processSdp` reads there. The line ends with a newline
that may have a carriage return before it.
-/

namespace Licode.Media.Sdp

namespace Parser

/-- A candidate as libnice finds it. -/
structure Dotted (candidate : CandidateInfo) : Prop where
  foundation : ∀ c ∈ candidate.foundation, c ∈ alphanum
  netProtocol : candidate.netProtocol = ascii "udp"
  hostAddress : ∀ c ∈ candidate.hostAddress, c ∈ ascii "0123456789."
  rAddress : related candidate → ∀ c ∈ candidate.rAddress, c ∈ ascii "0123456789."

theorem free_of_forall_mem {chars : String} {text known : AString} (h : ∀ c ∈ text, c ∈ known)
    (hknown : free chars known = true) : free chars text = true :=
  free_of_forall fun c hc => not_mem_of_free hknown c (h c hc)

theorem Dotted.clean {candidate : CandidateInfo} (h : Dotted candidate) : CandidateClean candidate where
  foundation := free_of_forall_mem h.foundation rfl
  netProtocol := by
    rw [h.netProtocol]
    rfl
  hostAddress := free_of_forall_mem h.hostAddress rfl
  rAddress hrelated := free_of_forall_mem (h.rAddress hrelated) rfl

/-- What the line of a candidate tells. -/
structure SameCandidate (candidate found : CandidateInfo) : Prop where
  foundation : found.foundation = candidate.foundation
  componentId : found.componentId = candidate.componentId
  netProtocol : found.netProtocol = candidate.netProtocol
  priority : found.priority = candidate.priority
  hostAddress : found.hostAddress = candidate.hostAddress
  hostPort : found.hostPort = candidate.hostPort
  hostType : found.hostType = candidate.hostType
  related : related candidate → found.rAddress = candidate.rAddress ∧ found.rPort = candidate.rPort

/-- What `processSdp` gives to all candidates at its end is left out. -/
def withoutCredentials (candidate : CandidateInfo) : CandidateInfo :=
  { candidate with isBundle := false, username := [], password := [] }

theorem sameCandidate_written {candidate found : CandidateInfo} {mediaType : MediaType}
    (h : withoutCredentials found = written mediaType candidate) : SameCandidate candidate found := by
  have hfield {α : Type} (field : CandidateInfo → α) :
      field (withoutCredentials found) = field (written mediaType candidate) := by
    rw [h]
  refine ⟨hfield (·.foundation), hfield (·.componentId), hfield (·.netProtocol), hfield (·.priority),
    hfield (·.hostAddress), hfield (·.hostPort), hfield (·.hostType), fun hrelated => ⟨?_, ?_⟩⟩
  · exact (hfield (·.rAddress)).trans (if_pos hrelated)
  · exact (hfield (·.rPort)).trans (if_pos hrelated)

theorem withoutCredentials_addCredentials (info : SdpInfo) :
    (addCredentials info).candidateVector.map withoutCredentials = info.candidateVector.map withoutCredentials := by
  rw [addCredentials, List.map_map]
  apply List.map_congr_left
  intro c _
  rw [Function.comp_apply]
  split_ifs <;> rfl

/-- The end of `processSdp`, when no feedback has been read. -/
theorem finish_candidates {p : Parser} (h : p.tmpFeedbackVector = []) :
    ∃ answer info, p.finish = .ok (answer, info)
      ∧ info.candidateVector.map withoutCredentials = p.info.candidateVector.map withoutCredentials := by
  rw [finish, h]
  split_ifs
  · exact ⟨_, _, rfl, rfl⟩
  · refine ⟨_, _, rfl, ?_⟩
    have hshared : (shareCredentials p.info).candidateVector = p.info.candidateVector := by
      rw [shareCredentials]
      split_ifs <;> rfl
    calc (addCredentials (shareCredentials p.info)).candidateVector.map withoutCredentials
        = (shareCredentials p.info).candidateVector.map withoutCredentials := withoutCredentials_addCredentials _
      _ = p.info.candidateVector.map withoutCredentials := by rw [hshared]

theorem getlines_line {line : AString} (h : free "\n" line = true) : getlines (line ++ [10]) = [line] := by
  have hline : ∀ l ∈ [line], (10 : UInt8) ∉ l := by
    intro l hl hmem
    rw [List.mem_singleton.mp hl] at hmem
    exact not_mem_of_free h 10 hmem List.mem_cons_self
  have hflat : [line].flatMap (· ++ [10]) = line ++ [10] := List.flatMap_singleton _ _
  rw [← hflat, getlines_lines hline]

/-- The line of a candidate is read with any line ending, wherever it stands. -/
theorem lines_candidate {candidate : CandidateInfo} (h : Dotted candidate) {ending : AString}
    (hending : ending = ascii "\n" ∨ ending = ascii "\r\n") (p : Parser) :
    ∃ q, (getlines (stringifyCandidate candidate ++ ending)).foldlM processLine p = .ok q
      ∧ q.info.candidateVector = p.info.candidateVector ++ [written p.mtype candidate]
      ∧ q.tmpFeedbackVector = p.tmpFeedbackVector := by
  obtain ⟨before, hbefore, rfl⟩ : ∃ before, free " :=\n" before = true ∧ ending = before ++ [10] := by
    obtain rfl | rfl := hending
    · exact ⟨[], rfl, rfl⟩
    · exact ⟨ascii "\r", rfl, rfl⟩
  have hnewline : free "\n" (stringifyCandidate candidate ++ before) = true :=
    free_text ((hears_candidate h.clean (start .create [])).1 _ List.mem_cons_self) (free_subset hbefore rfl)
  have hudp : isUdp candidate := .inr h.netProtocol
  have hline := processLine_candidate h.clean (free_subset hbefore rfl : free " :=" before = true) p
  rw [if_pos hudp] at hline
  rw [← List.append_assoc, getlines_line hnewline, List.foldlM_cons, hline]
  generalize stringifyCandidate candidate ++ before = line
  refine ⟨_, rfl, ?_, ?_⟩
  · rw [addCandidates, processProfile]
    split_ifs <;> rfl
  · rw [addCandidates, processProfile]
    split_ifs <;> rfl

end Parser

open Licode.Media.Sdp.Parser

/-- **A candidate that is written as a line is read back,** within a description or alone, and no other is added. -/
theorem candidate_read_back {candidate : CandidateInfo} (h : Dotted candidate) {ending : AString}
    (hending : ending = ascii "\n" ∨ ending = ascii "\r\n") :
    (∀ p : Parser, ∃ q found, (getlines (stringifyCandidate candidate ++ ending)).foldlM processLine p = .ok q
      ∧ q.info.candidateVector = p.info.candidateVector ++ [found] ∧ SameCandidate candidate found)
    ∧ ∀ (info : SdpInfo) (media : AString), ∃ answer info' before found,
      info.processSdp (stringifyCandidate candidate ++ ending) media = .ok (answer, info')
      ∧ info'.candidateVector = before ++ [found]
      ∧ before.map withoutCredentials = info.candidateVector.map withoutCredentials
      ∧ SameCandidate candidate found := by
  constructor
  · intro p
    obtain ⟨q, hread, hadded, -⟩ := lines_candidate h hending p
    exact ⟨q, _, hread, hadded, sameCandidate_written rfl⟩
  · intro info media
    obtain ⟨q, hread, hadded, hfeedback⟩ := lines_candidate h hending (start info media)
    obtain ⟨answer, info', hfinish, hcandidates⟩ := finish_candidates hfeedback
    rw [hadded, List.map_append] at hcandidates
    obtain ⟨before, last, hvector, hbefore, hlast⟩ := List.map_eq_append_iff.mp hcandidates
    obtain ⟨found, rfl, hfound⟩ := List.map_eq_singleton_iff.mp hlast
    refine ⟨answer, info', before, found, ?_, hvector, hbefore, sameCandidate_written hfound⟩
    rw [SdpInfo.processSdp, hread]
    exact hfinish

/-- A candidate behind a translation of addresses. -/
def reflexive : CandidateInfo :=
  ⟨false, 1686052607, 1, ascii "842163049", ascii "203.0.113.7", ascii "192.168.1.20", 65535, 0, ascii "udp", .srflx,
    [], [], [], .video⟩

theorem candidate_read_back_reflexive : ∃ answer info before found,
    SdpInfo.create.processSdp (stringifyCandidate reflexive ++ ascii "\r\n") (ascii "video") = .ok (answer, info)
      ∧ info.candidateVector = before ++ [found] ∧ before.map withoutCredentials = [] ∧ SameCandidate reflexive found :=
  (candidate_read_back ⟨by decide +kernel, rfl, by decide +kernel, fun _ => by decide +kernel⟩ (.inr rfl)).2 .create
    (ascii "video")

end Licode.Media.Sdp
