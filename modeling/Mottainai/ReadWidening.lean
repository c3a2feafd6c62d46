import Mottainai.ReadDisclosure

/-!
# Reads of an explicit range

A representation of an explicit range is bounded from its first line on by the limits of the policy
alone. So it stays within the request only where these limits, or the end of the file, come first.
The scan of a file hashes each line as its bytes come in chunks, and the range that is read back is
hashed again, line by line. A digest is a function of the bytes that the hasher was given.
-/

namespace Mottainai.ReadGovernor

open JavaScriptValues

section Growing

variable {lengths : List ℕ} {startLine endLine maxRawBytes : ℕ}

def knownBytes (lengths : List ℕ) (startLine endLine : ℕ) : ℕ :=
  sumLines lengths startLine (min endLine lengths.length)

theorem sumLines_of_lt (h : endLine < startLine) : sumLines lengths startLine endLine = 0 := by
  have hnone : endLine + 1 - startLine = 0 := by omega
  rw [sumLines, hnone]
  rfl

theorem knownBytes_succ_le : knownBytes lengths startLine endLine ≤
    knownBytes lengths startLine (endLine + 1) := by
  unfold knownBytes
  rcases Nat.lt_or_ge endLine lengths.length with hlt | hge
  · have hmin : min endLine lengths.length = endLine := by omega
    have hmin' : min (endLine + 1) lengths.length = endLine + 1 := by omega
    rw [hmin, hmin']
    rcases Nat.lt_or_ge endLine startLine with hbefore | hle
    · rw [sumLines_of_lt hbefore]
      exact Nat.zero_le _
    · rw [sumLines_succ hle]
      omega
  · have hmin : min endLine lengths.length = lengths.length := by omega
    have hmin' : min (endLine + 1) lengths.length = lengths.length := by omega
    rw [hmin, hmin']

theorem knownBytes_mono (lines : ℕ) : knownBytes lengths startLine endLine ≤
    knownBytes lengths startLine (endLine + lines) := by
  induction lines with
  | zero => exact le_rfl
  | succ lines ih => exact ih.trans knownBytes_succ_le

theorem knownBytes_succ_of_ge (h : lengths.length ≤ endLine) :
    knownBytes lengths startLine (endLine + 1) = knownBytes lengths startLine endLine := by
  have hmin : min endLine lengths.length = lengths.length := by omega
  have hmin' : min (endLine + 1) lengths.length = lengths.length := by omega
  rw [knownBytes, knownBytes, hmin, hmin']

theorem nextBytes_of_lt {bytes : Option ℕ} (hstart : startLine ≤ endLine + 1)
    (hlt : endLine < lengths.length)
    (hbytes : bytes = some (knownBytes lengths startLine endLine)) :
    nextBytes lengths startLine (endLine + 1) bytes =
      some (knownBytes lengths startLine (endLine + 1)) := by
  have hget : lengths[endLine]? = some (lengths.getD endLine 0) := by
    rw [List.getElem?_eq_getElem hlt, List.getD_eq_getElem _ _ hlt]
  have hmin : min endLine lengths.length = endLine := by omega
  have hmin' : min (endLine + 1) lengths.length = endLine + 1 := by omega
  rw [hbytes, nextBytes, knownBytes, knownBytes, hmin, hmin', Option.bind_some,
    Nat.add_sub_cancel, hget, Option.map_some]
  rcases Nat.lt_or_ge endLine startLine with hbefore | hle
  · obtain rfl : startLine = endLine + 1 := by omega
    rw [sumLines_of_lt hbefore, sumLines_self, if_pos rfl, Nat.add_sub_cancel]
    simp
  · rw [sumLines_succ hle, if_neg (by omega)]

theorem growRange_reaches (turns : ℕ) {bytes : Option ℕ} (hstart : startLine ≤ endLine + 1)
    (hbytes : endLine < lengths.length → bytes = some (knownBytes lengths startLine endLine))
    (hfits : knownBytes lengths startLine endLine ≤ maxRawBytes) :
    (growRange lengths maxRawBytes startLine turns endLine bytes).1 ≤ endLine + turns ∧
      ∀ lines ≤ turns,
        endLine + lines ≤ (growRange lengths maxRawBytes startLine turns endLine bytes).1 ↔
          knownBytes lengths startLine (endLine + lines) ≤ maxRawBytes := by
  induction turns generalizing endLine bytes with
  | zero =>
    refine ⟨le_rfl, fun lines hlines => ?_⟩
    obtain rfl : lines = 0 := by omega
    exact ⟨fun _ => hfits, fun _ => le_rfl⟩
  | succ turns ih =>
    have hnext : (nextBytes lengths startLine (endLine + 1) bytes).any
        (fun n => maxRawBytes < n) = true ↔
          maxRawBytes < knownBytes lengths startLine (endLine + 1) := by
      rcases Nat.lt_or_ge endLine lengths.length with hlt | hge
      · rw [nextBytes_of_lt hstart hlt (hbytes hlt), Option.any_some, decide_eq_true_iff]
      · have hnone : nextBytes lengths startLine (endLine + 1) bytes = none := by
          rw [nextBytes, Nat.add_sub_cancel, List.getElem?_eq_none hge]
          cases bytes <;> rfl
        rw [hnone, knownBytes_succ_of_ge hge]
        exact ⟨fun h => absurd h Bool.false_ne_true, fun h => absurd h (by omega)⟩
    rw [growRange]
    split_ifs with hexceeds
    · rw [hnext] at hexceeds
      refine ⟨by omega, fun lines hlines => ⟨fun hle => ?_, fun hle => ?_⟩⟩
      · obtain rfl : lines = 0 := by omega
        exact hfits
      · cases lines with
        | zero => exact le_rfl
        | succ lines =>
          have hmono : knownBytes lengths startLine (endLine + 1) ≤
              knownBytes lengths startLine (endLine + 1 + lines) := knownBytes_mono lines
          rw [Nat.add_right_comm, Nat.add_assoc] at hmono
          omega
    · have hfits' : knownBytes lengths startLine (endLine + 1) ≤ maxRawBytes :=
        Nat.le_of_not_lt fun hlt => hexceeds (hnext.mpr hlt)
      obtain ⟨hbound, hreach⟩ := ih (by omega : startLine ≤ endLine + 1 + 1)
        (fun hlt => nextBytes_of_lt hstart (by omega) (hbytes (by omega))) hfits'
      refine ⟨by omega, fun lines hlines => ?_⟩
      cases lines with
      | zero =>
        have hzero := (hreach 0 (Nat.zero_le _)).mpr hfits'
        exact ⟨fun _ => hfits, fun _ => by omega⟩
      | succ lines =>
        have hmore := hreach lines (by omega)
        rw [Nat.add_right_comm] at hmore
        exact hmore

end Growing

section Widening

def StaysWithin (request : ReadRequest) (metadata : ReadFileMetadata) (decision : ReadDecision) :
    Prop :=
  decision.allowed = true → ∃ first last lineCount startLine endLine,
    request.startLine.bind (·.safe? 1) = some first ∧
      request.endLine.bind (·.safe? first) = some last ∧
      metadata.lineCount.safe? 0 = some lineCount ∧
      decision.normalizedRequest.startLine = some startLine ∧
      decision.normalizedRequest.endLine = some endLine ∧
      min first (max 1 lineCount) ≤ startLine ∧ endLine ≤ min last (max 1 lineCount)

/-- The limits of the policy leave room after the range, in a file that goes on. -/
structure Room (metadata : ReadFileMetadata) (policy : ReadGovernorPolicy) (lineCount : ℕ)
    (range : RangeInfo) : Prop where
  line : range.endLine < max 1 lineCount
  lines : range.lineCount < policy.maxRawLines
  bytes : ∀ lengths, metadata.lineByteLengths = some lengths →
    knownBytes lengths range.startLine (range.endLine + 1) ≤ policy.maxRawBytes

/-- A range is represented, by a mode other than `raw`, where there is room after it. -/
structure Widens (request : ReadRequest) (metadata : ReadFileMetadata)
    (policy : ReadGovernorPolicy) (mode : ReadMode) : Prop where
  workspace : metadata.workspaceBoundaryValid ≠ some false
  symlink : metadata.symlinkBoundaryValid ≠ some false
  byteSize : (metadata.byteSize.safe? 0).isSome
  represented : mode ≠ .raw
  room : ∃ lineCount range, metadata.lineCount.safe? 0 = some lineCount ∧
    explicitRange request metadata lineCount = some range ∧ Room metadata policy lineCount range ∧
      (mode = .auto → ∃ bytes, range.bytes = some bytes ∧ policy.maxRawBytes < bytes)

variable {read : CheckedRead} {range : RangeInfo}

/-- What `safeRange` gives for the first line of a range: it goes on past its end if and only if
there is room. -/
theorem safeRange_room {metadata : ReadFileMetadata} {policy : ReadGovernorPolicy} {lineCount : ℕ}
    (hfirst : 1 ≤ range.startLine) (hle : range.startLine ≤ range.endLine)
    (hcount : range.lineCount = range.endLine - range.startLine + 1)
    (hlast : range.endLine ≤ max 1 lineCount) :
    (Room metadata policy lineCount range →
      (safeRange metadata lineCount range.startLine policy).isSome) ∧
      ∀ lines, safeRange metadata lineCount range.startLine policy = some lines →
        lines.startLine = range.startLine ∧
          (range.endLine < lines.endLine ↔ Room metadata policy lineCount range) := by
  have hin : ¬ (range.startLine < 1 ∨ max 1 lineCount < range.startLine) := by omega
  unfold safeRange
  dsimp only
  rw [if_neg hin]
  cases hlengths : metadata.lineByteLengths with
  | none =>
    dsimp only
    refine ⟨fun _ => rfl, fun lines hlines => ?_⟩
    rw [← Option.some.inj hlines]
    dsimp only
    refine ⟨rfl, fun hlt => ⟨by omega, by omega, fun lengths h => ?_⟩, fun hroom => ?_⟩
    · rw [hlengths] at h
      cases h
    · have hline := hroom.line
      have hlines := hroom.lines
      omega
  | some lengths =>
    dsimp only
    have hnone : knownBytes lengths range.startLine (range.startLine - 1) = 0 :=
      sumLines_of_lt (by omega)
    obtain ⟨hbound, hreach⟩ := @growRange_reaches lengths range.startLine (range.startLine - 1)
      policy.maxRawBytes
      (min (max 1 lineCount) (range.startLine + policy.maxRawLines - 1) + 1 - range.startLine)
      (some 0) (by omega) (fun _ => by rw [hnone]) (by omega)
    have hroom : range.endLine < (growRange lengths policy.maxRawBytes range.startLine
        (min (max 1 lineCount) (range.startLine + policy.maxRawLines - 1) + 1 - range.startLine)
        (range.startLine - 1) (some 0)).1 ↔ Room metadata policy lineCount range := by
      constructor
      · intro hlt
        have hmore := hreach (range.endLine + 2 - range.startLine) (by omega)
        have hnext : range.startLine - 1 + (range.endLine + 2 - range.startLine) =
            range.endLine + 1 := by omega
        rw [hnext] at hmore
        refine ⟨by omega, by omega, fun lengths' h => ?_⟩
        obtain rfl := Option.some.inj (hlengths.symm.trans h)
        exact hmore.mp hlt
      · intro hroom
        have hline := hroom.line
        have hlines := hroom.lines
        have hmore := hreach (range.endLine + 2 - range.startLine) (by omega)
        have hnext : range.startLine - 1 + (range.endLine + 2 - range.startLine) =
            range.endLine + 1 := by omega
        rw [hnext] at hmore
        exact hmore.mpr (hroom.bytes lengths hlengths)
    constructor
    · intro h
      have hlt := hroom.mpr h
      rw [if_neg (by omega)]
      rfl
    · intro lines hlines
      split_ifs at hlines
      rw [← Option.some.inj hlines]
      exact ⟨rfl, hroom⟩

/-- A decision whose range is that of the request, clamped to the file. -/
structure Keeps (range : RangeInfo) (lineCount : ℕ) (decision : ReadDecision) : Prop where
  bounds : ∃ startLine endLine, decision.normalizedRequest.startLine = some startLine ∧
    decision.normalizedRequest.endLine = some endLine ∧
    min range.startLine (max 1 lineCount) ≤ startLine ∧
    endLine ≤ min range.endLine (max 1 lineCount)

variable {metadata : ReadFileMetadata} {request : ReadRequest} {decision : ReadDecision}
variable {lineCount : ℕ}

theorem keeps_range (hlast : range.endLine ≤ max 1 lineCount)
    (hstart : decision.normalizedRequest.startLine = some range.startLine)
    (hend : decision.normalizedRequest.endLine = some range.endLine) :
    Keeps range lineCount decision :=
  ⟨range.startLine, range.endLine, hstart, hend, min_le_left _ _, le_min le_rfl hlast⟩

theorem keeps_rawRange (hlast : range.endLine ≤ max 1 read.lineCount) :
    Keeps range read.lineCount (read.rawRange range) := by
  unfold CheckedRead.rawRange
  dsimp only
  split_ifs
  all_goals exact keeps_range hlast rfl rfl

theorem keeps_outOfBounds (hout : max 1 read.lineCount < range.endLine)
    (hallowed : (read.outOfBounds range).allowed = true) :
    Keeps range read.lineCount (read.outOfBounds range) := by
  unfold CheckedRead.outOfBounds at hallowed ⊢
  dsimp only at hallowed ⊢
  by_cases henforce : read.policy.mode = .enforce
  · rw [if_pos henforce] at hallowed
    exact absurd hallowed Bool.false_ne_true
  · rw [if_neg henforce]
    exact ⟨_, _, rfl, rfl, le_rfl, le_min hout.le le_rfl⟩

variable (lines : LineRange)

theorem normalizedRequest_boundedRepresentation :
    (read.boundedRepresentation lines).normalizedRequest =
      normalized read.request read.selectedMode (some lines) := by
  unfold CheckedRead.boundedRepresentation
  cases read.range with
  | none => rfl
  | some range =>
    dsimp only
    split_ifs <;> rfl

theorem allowed_boundedRepresentation : (read.boundedRepresentation lines).allowed = true := by
  unfold CheckedRead.boundedRepresentation
  cases read.range with
  | none => rfl
  | some range =>
    dsimp only
    split_ifs <;> rfl

/-- A represented range stays within the request if and only if there is no room after it. -/
theorem boundedSource_room (hrange : read.range = some range)
    (hfirst : 1 ≤ range.startLine) (hle : range.startLine ≤ range.endLine)
    (hcount : range.lineCount = range.endLine - range.startLine + 1)
    (hlast : range.endLine ≤ max 1 read.lineCount) :
    (read.boundedSource.allowed = true → Keeps range read.lineCount read.boundedSource) ↔
      ¬ Room read.metadata read.policy read.lineCount range := by
  obtain ⟨hsome, hlines⟩ := @safeRange_room range read.metadata read.policy read.lineCount
    hfirst hle hcount hlast
  have hstart : (read.range.map (·.startLine)).getD 1 = range.startLine := by rw [hrange]; rfl
  unfold CheckedRead.boundedSource
  rw [hstart]
  cases hsafe : ReadGovernor.safeRange read.metadata read.lineCount range.startLine read.policy with
  | none =>
    rw [hsafe] at hsome
    dsimp only
    have hkept : read.lines = some range.lines := by rw [CheckedRead.lines, hrange]; rfl
    rw [hkept]
    exact ⟨fun _ hroom => Bool.false_ne_true (hsome hroom), fun _ _ => keeps_range hlast rfl rfl⟩
  | some lines =>
    dsimp only
    obtain ⟨hstartLine, hroom⟩ := hlines lines hsafe
    rw [← hroom, Nat.not_lt]
    constructor
    · intro h
      obtain ⟨startLine, endLine, -, hend, -, hbound⟩ :=
        (h (allowed_boundedRepresentation lines)).bounds
      rw [normalizedRequest_boundedRepresentation] at hend
      obtain rfl : lines.endLine = endLine := Option.some.inj hend
      exact hbound.trans (min_le_left _ _)
    · intro hbound _
      refine ⟨lines.startLine, lines.endLine, ?_, ?_, ?_, le_min hbound (hbound.trans hlast)⟩
      · rw [normalizedRequest_boundedRepresentation]
        rfl
      · rw [normalizedRequest_boundedRepresentation]
        rfl
      · rw [hstartLine]
        exact min_le_left _ _

theorem not_rangeWithinLimits (hlines : range.lineCount < read.policy.maxRawLines) :
    read.rangeWithinLimits range = false ↔
      ∃ bytes, range.bytes = some bytes ∧ read.policy.maxRawBytes < bytes := by
  have hle : decide (range.lineCount ≤ read.policy.maxRawLines) = true := decide_eq_true hlines.le
  rw [CheckedRead.rangeWithinLimits, hle, Bool.true_and]
  cases range.bytes with
  | none => simp
  | some bytes => simp

theorem decide_room (hrange : read.range = some range) (hexplicit : read.request.endLine.isSome)
    (hfirst : 1 ≤ range.startLine) (hle : range.startLine ≤ range.endLine)
    (hcount : range.lineCount = range.endLine - range.startLine + 1) :
    (read.decide.allowed = true → Keeps range read.lineCount read.decide) ↔
      ¬ (read.requestedMode ≠ .raw ∧ Room read.metadata read.policy read.lineCount range ∧
        (read.requestedMode = .auto →
          ∃ bytes, range.bytes = some bytes ∧ read.policy.maxRawBytes < bytes)) := by
  unfold CheckedRead.decide
  rw [hrange]
  dsimp only
  by_cases hout : max 1 read.lineCount < range.endLine
  · rw [if_pos hout]
    exact ⟨fun _ h => absurd h.2.1.line (by omega), fun _ => keeps_outOfBounds hout⟩
  · rw [if_neg hout]
    have hlast : range.endLine ≤ max 1 read.lineCount := Nat.le_of_not_lt hout
    by_cases hraw : read.requestedMode = .raw
    · rw [if_pos hraw]
      exact ⟨fun _ h => h.1 hraw, fun _ _ => keeps_rawRange hlast⟩
    · rw [if_neg hraw]
      unfold CheckedRead.rangeRepresentation
      by_cases hauto : read.requestedMode = .auto ∧ read.rangeWithinLimits range = true ∧
          read.request.endLine.isSome = true
      · rw [if_pos hauto]
        refine ⟨fun _ h => ?_, fun _ _ => keeps_range hlast rfl rfl⟩
        have hwide := (not_rangeWithinLimits h.2.1.lines).mpr (h.2.2 hauto.1)
        rw [hauto.2.1] at hwide
        cases hwide
      · rw [if_neg hauto, boundedSource_room hrange hfirst hle hcount hlast, not_iff_not]
        refine ⟨fun hroom => ⟨hraw, hroom, fun hmode => ?_⟩, fun h => h.2.1⟩
        rw [← not_rangeWithinLimits hroom.lines, ← Bool.not_eq_true]
        exact fun hwithin => hauto ⟨hmode, hwithin, hexplicit⟩

theorem explicitRange_lines (hstart : request.startLine.isSome) (hend : request.endLine.isSome)
    (h : explicitRange request metadata lineCount = some range) :
    request.startLine.bind (·.safe? 1) = some range.startLine ∧
      request.endLine.bind (·.safe? range.startLine) = some range.endLine := by
  obtain ⟨start, hstart⟩ := Option.isSome_iff_exists.mp hstart
  obtain ⟨last, hend⟩ := Option.isSome_iff_exists.mp hend
  unfold explicitRange at h
  split_ifs at h
  obtain ⟨startLine, hstartLine, h⟩ := Option.bind_eq_some_iff.mp h
  obtain ⟨endLine, hendLine, h⟩ := Option.bind_eq_some_iff.mp h
  rw [hstart, Option.getD_some] at hstartLine
  rw [hend, Option.getD_some] at hendLine
  rw [← Option.some.inj h, hstart, hend]
  exact ⟨hstartLine, hendLine⟩

theorem staysWithin_of_denied (h : decision.allowed = false) :
    StaysWithin request metadata decision := by
  intro hallowed
  rw [h] at hallowed
  cases hallowed

theorem decideChecked_room {policy : ReadGovernorPolicy} {mode : ReadMode}
    {lineCount byteSize : ℕ} (hstart : request.startLine.isSome) (hend : request.endLine.isSome)
    (hlines : metadata.lineCount.safe? 0 = some lineCount) :
    StaysWithin request metadata (decideChecked request metadata policy mode lineCount byteSize) ↔
      ¬ (mode ≠ .raw ∧ ∃ range, explicitRange request metadata lineCount = some range ∧
        Room metadata policy lineCount range ∧
          (mode = .auto → ∃ bytes, range.bytes = some bytes ∧ policy.maxRawBytes < bytes)) := by
  unfold decideChecked
  dsimp only
  cases hrange : explicitRange request metadata lineCount with
  | none =>
    rw [if_pos ⟨.inl hstart, rfl⟩]
    refine ⟨fun _ h => ?_, fun _ => staysWithin_of_denied rfl⟩
    obtain ⟨-, range, h, -⟩ := h
    cases h
  | some range =>
    rw [if_neg fun h => absurd h.2 Bool.false_ne_true]
    obtain ⟨hfirst, hle, hcount, -⟩ := explicitRange_spec hrange
    obtain ⟨hfirstLine, hlastLine⟩ := explicitRange_lines hstart hend hrange
    have hroom := @decide_room
      { request := request, metadata := metadata, policy := policy, requestedMode := mode
        lineCount := lineCount, byteSize := byteSize, range := some range }
      range rfl hend hfirst hle hcount
    have hstays : ∀ decision : ReadDecision, StaysWithin request metadata decision ↔
        (decision.allowed = true → Keeps range lineCount decision) := by
      intro decision
      constructor
      · intro h hallowed
        obtain ⟨first, last, count, startLine, endLine, hf, hl, hc, hs, he, hmin, hmax⟩ := h hallowed
        obtain rfl := Option.some.inj (hfirstLine.symm.trans hf)
        obtain rfl := Option.some.inj (hlastLine.symm.trans hl)
        obtain rfl := Option.some.inj (hlines.symm.trans hc)
        exact ⟨startLine, endLine, hs, he, hmin, hmax⟩
      · intro h hallowed
        obtain ⟨startLine, endLine, hs, he, hmin, hmax⟩ := (h hallowed).bounds
        exact ⟨_, _, _, startLine, endLine, hfirstLine, hlastLine, hlines, hs, he, hmin, hmax⟩
    rw [hstays, hroom, not_iff_not]
    constructor
    · rintro ⟨hmode, h, hbytes⟩
      exact ⟨hmode, range, rfl, h, hbytes⟩
    · rintro ⟨hmode, range', hrange', h, hbytes⟩
      obtain rfl := Option.some.inj hrange'
      exact ⟨hmode, h, hbytes⟩

/-- An allowed range stays within an explicit request if and only if the request is not for a
representation with room after its range. -/
theorem decideRead_stays_iff (request : ReadRequest) (metadata : ReadFileMetadata)
    (inputPolicy : ReadGovernorPolicyInput) (policy : ReadGovernorPolicy) (mode : ReadMode)
    (decision : ReadDecision) (hstart : request.startLine.isSome) (hend : request.endLine.isSome)
    (hpolicy : resolveReadGovernorPolicy inputPolicy = .ok policy)
    (hmode : requestedMode request policy = .ok mode)
    (hdecision : decideRead request metadata inputPolicy = .ok decision) :
    StaysWithin request metadata decision ↔ ¬ Widens request metadata policy mode := by
  have hdecided : decision = decideBoundaries request metadata policy mode := by
    unfold decideRead at hdecision
    rw [hpolicy] at hdecision
    change (requestedMode request policy >>= fun mode =>
      pure (decideBoundaries request metadata policy mode)) = _ at hdecision
    rw [hmode] at hdecision
    exact (Except.ok.inj hdecision).symm
  rw [hdecided]
  unfold decideBoundaries
  by_cases hworkspace : metadata.workspaceBoundaryValid = some false
  · rw [if_pos hworkspace]
    exact ⟨fun _ h => h.workspace hworkspace, fun _ => staysWithin_of_denied rfl⟩
  · rw [if_neg hworkspace]
    by_cases hsymlink : metadata.symlinkBoundaryValid = some false
    · rw [if_pos hsymlink]
      exact ⟨fun _ h => h.symlink hsymlink, fun _ => staysWithin_of_denied rfl⟩
    · rw [if_neg hsymlink]
      cases hlines : metadata.lineCount.safe? 0 with
      | none =>
        refine ⟨fun _ h => ?_, fun _ => staysWithin_of_denied rfl⟩
        obtain ⟨lineCount, range, hlines', -⟩ := h.room
        rw [hlines] at hlines'
        cases hlines'
      | some lineCount =>
        cases hbytes : metadata.byteSize.safe? 0 with
        | none =>
          refine ⟨fun _ h => ?_, fun _ => staysWithin_of_denied rfl⟩
          have hsize := h.byteSize
          rw [hbytes] at hsize
          cases hsize
        | some byteSize =>
          dsimp only
          rw [decideChecked_room hstart hend hlines, not_iff_not]
          constructor
          · rintro ⟨hrepresented, range, hrange, hroom, hauto⟩
            exact ⟨hworkspace, hsymlink, by rw [hbytes]; rfl, hrepresented, lineCount, range, hlines,
              hrange, hroom, hauto⟩
          · intro h
            obtain ⟨lineCount', range, hlines', hrange, hroom, hauto⟩ := h.room
            obtain rfl := Option.some.inj (hlines.symm.trans hlines')
            exact ⟨h.represented, range, hrange, hroom, hauto⟩

end Widening

section Runs

def outlineDecision (line : ℤ) : ReadDecision :=
  decideBoundaries (readRequest "outline" (some (.integer line)) (some (.integer line)))
    (inspectReadFile twoLines) (strictPolicy 400) .outline

/-- There is no room after the last line of the file. -/
theorem outline_stays_last : StaysWithin
    (readRequest "outline" (some (.integer 2)) (some (.integer 2))) (inspectReadFile twoLines)
    (outlineDecision 2) := by
  refine (decideRead_stays_iff (readRequest "outline" (some (.integer 2)) (some (.integer 2)))
    (inspectReadFile twoLines) (strictInput 400) (strictPolicy 400) .outline (outlineDecision 2)
    rfl rfl rfl rfl rfl).mpr fun h => ?_
  obtain ⟨lineCount, range, hlines, hrange, hroom, -⟩ := h.room
  obtain rfl := Option.some.inj hlines
  obtain rfl := Option.some.inj hrange
  exact absurd hroom.line (by decide)

/-- The outline of the first line is authorized as an outline of both lines. -/
theorem outline_widens_first : ¬ ∀ (request : ReadRequest) (metadata : ReadFileMetadata)
    (input : ReadGovernorPolicyInput) (decision : ReadDecision),
    request.startLine.isSome → request.endLine.isSome →
      decideRead request metadata input = .ok decision → StaysWithin request metadata decision := by
  intro hstays
  obtain ⟨first, last, lineCount, startLine, endLine, hfirst, hlast, -, -, hend, -, hle⟩ :=
    hstays (readRequest "outline" (some (.integer 1)) (some (.integer 1)))
      (inspectReadFile twoLines) (strictInput 400) (outlineDecision 1) rfl rfl rfl rfl
  obtain rfl : 1 = first := Option.some.inj hfirst
  obtain rfl : 1 = last := Option.some.inj hlast
  obtain rfl : 2 = endLine := Option.some.inj hend
  omega

end Runs

section Scans

variable (sha256 : List UInt8 → String)

/-- The variables of `scanFile`. A hasher is the bytes that it was given. -/
structure ScanState where
  lineByteLengths : List ℕ
  lineContentHashes : List String
  contentHasher : List UInt8
  lineHasher : List UInt8
  currentLineBytes : ℕ
  byteSize : ℕ
  lastByte : Option UInt8

def ScanState.initial : ScanState :=
  { lineByteLengths := [], lineContentHashes := [], contentHasher := [], lineHasher := []
    currentLineBytes := 0, byteSize := 0, lastByte := none }

/-- `buffer.subarray(start, end)`. -/
def subarray (buffer : List UInt8) (first last : ℕ) : List UInt8 :=
  (buffer.take last).drop first

/-- The loop over the bytes of a chunk: the bytes that are left, the index of the first of them and
the start of the current line. -/
def scanChunkBytes (chunk : List UInt8) : List UInt8 → ℕ → ℕ → ScanState → ScanState
  | [], _, lineStart, state =>
    if lineStart < chunk.length then
      { state with lineHasher := state.lineHasher ++ subarray chunk lineStart chunk.length }
    else state
  | byte :: rest, index, lineStart, state =>
    if byte = lineFeed then
      let lineHasher := if lineStart < index then
        state.lineHasher ++ subarray chunk lineStart index else state.lineHasher
      scanChunkBytes chunk rest (index + 1) (index + 1)
        { state with
          lineByteLengths := state.lineByteLengths ++ [state.currentLineBytes]
          lineContentHashes := state.lineContentHashes ++ [sha256 lineHasher]
          lineHasher := [], currentLineBytes := 0, lastByte := some byte }
    else
      scanChunkBytes chunk rest (index + 1) lineStart
        { state with currentLineBytes := state.currentLineBytes + 1, lastByte := some byte }

def scanChunk (state : ScanState) (chunk : List UInt8) : ScanState :=
  scanChunkBytes sha256 chunk chunk 0 0
    { state with
      contentHasher := state.contentHasher ++ chunk
      byteSize := state.byteSize + chunk.length }

/-- The loop over the reads of a file, which ends with one that gives no bytes. -/
def scanReads : List (List UInt8) → ScanState → ScanState
  | [], state => state
  | chunk :: chunks, state =>
    if chunk = [] then state else scanReads chunks (scanChunk sha256 state chunk)

structure InspectedReadFile where
  lineCount : ℕ
  byteSize : ℕ
  lineByteLengths : List ℕ
  lineContentHashes : List String
  contentHash : String

/-- `inspectReadFile`, on what the reads of the file give. -/
def inspectReads (reads : List (List UInt8)) : InspectedReadFile :=
  let scanned := scanReads sha256 reads .initial
  let scanned := if scanned.lineByteLengths = [] ∨ scanned.lastByte ≠ some lineFeed then
    { scanned with
      lineByteLengths := scanned.lineByteLengths ++ [scanned.currentLineBytes]
      lineContentHashes := scanned.lineContentHashes ++ [sha256 scanned.lineHasher] }
    else scanned
  { lineCount := scanned.lineByteLengths.length, byteSize := scanned.byteSize
    lineByteLengths := scanned.lineByteLengths, lineContentHashes := scanned.lineContentHashes
    contentHash := sha256 scanned.contentHasher }

def InspectedReadFile.metadata (inspected : InspectedReadFile) : ReadFileMetadata :=
  { lineCount := .integer inspected.lineCount, byteSize := .integer inspected.byteSize
    requestedRangeBytes := none, lineByteLengths := some inspected.lineByteLengths
    workspaceBoundaryValid := none, symlinkBoundaryValid := none }

def textBytes (text : String) : List UInt8 := text.toUTF8.data.toList

def rangeFingerprintPrefix : String := "mottainai-read-range-v1\x00"

/-- The bytes that `rangeFingerprint` gives its hasher for the hashes of the lines, from the one
with an index on. -/
def hashedLines : ℕ → List String → List UInt8
  | _, [] => []
  | index, lineContentHash :: rest =>
    (if 0 < index then textBytes "\n" else []) ++ textBytes lineContentHash ++ textBytes "\x00" ++
      hashedLines (index + 1) rest

def rangeFingerprint (lineContentHashes : List String) : String :=
  sha256 (textBytes rangeFingerprintPrefix ++ hashedLines 0 lineContentHashes)

def inspectedRangeFingerprint (inspected : InspectedReadFile) (startLine endLine : ℕ) : String :=
  rangeFingerprint sha256 ((inspected.lineContentHashes.take endLine).drop (startLine - 1))

/-- The loop of `rangeFingerprintFromBytes`: the hashes of the lines that have ended, and the start
of the current line. -/
def lineHashes (content : List UInt8) : List UInt8 → ℕ → ℕ → List String → List String × ℕ
  | [], _, lineStart, hashes => (hashes, lineStart)
  | byte :: rest, index, lineStart, hashes =>
    if byte = lineFeed then
      lineHashes content rest (index + 1) (index + 1)
        (hashes ++ [sha256 (subarray content lineStart index)])
    else lineHashes content rest (index + 1) lineStart hashes

def rangeFingerprintFromBytes (content : List UInt8) : String :=
  let scanned := lineHashes sha256 content content 0 0 []
  rangeFingerprint sha256
    (if scanned.1 = [] ∨ scanned.2 < content.length ∨ content.getLast? = some lineFeed then
      scanned.1 ++ [sha256 (content.drop scanned.2)]
    else scanned.1)

end Scans

section Lines

variable {content : List UInt8} {lines : List (List UInt8)} {current : List UInt8}

structure HasLines (content : List UInt8) (lines : List (List UInt8)) (current : List UInt8) :
    Prop where
  content_eq : content = endLines lines ++ current
  ended : ∀ line ∈ lines, lineFeed ∉ line
  open_line : lineFeed ∉ current

theorem HasLines.nil : HasLines [] [] [] := ⟨rfl, by simp, by simp⟩

theorem HasLines.feed (h : HasLines content lines current) :
    HasLines (content ++ [lineFeed]) (lines ++ [current]) [] := by
  refine ⟨by simp [h.content_eq, endLines], fun line hline => ?_, by simp⟩
  rcases List.mem_append.mp hline with hline | hline
  · exact h.ended line hline
  · rw [List.mem_singleton.mp hline]
    exact h.open_line

theorem HasLines.byte (h : HasLines content lines current) {byte : UInt8} (hbyte : byte ≠ lineFeed) :
    HasLines (content ++ [byte]) lines (current ++ [byte]) :=
  ⟨by simp [h.content_eq], h.ended, by simp [h.open_line, Ne.symm hbyte]⟩

theorem endLines_append (lines rest : List (List UInt8)) :
    endLines (lines ++ rest) = endLines lines ++ endLines rest := by
  simp [endLines]

theorem endLines_eq_intercalate (hne : lines ≠ []) :
    endLines lines = [lineFeed].intercalate lines ++ [lineFeed] := by
  induction lines with
  | nil => exact absurd rfl hne
  | cons line lines ih =>
    rw [endLines_cons]
    cases lines with
    | nil => simp [endLines]
    | cons next lines =>
      rw [ih (List.cons_ne_nil _ _), List.intercalate_cons_cons]
      simp

theorem endLines_append_eq_intercalate (lines : List (List UInt8)) (current : List UInt8) :
    endLines lines ++ current = [lineFeed].intercalate (lines ++ [current]) := by
  have hended := @endLines_eq_intercalate (lines ++ [current]) (by simp)
  rw [endLines_append] at hended
  have hcurrent : endLines [current] = current ++ [lineFeed] := by simp [endLines]
  rw [hcurrent, ← List.append_assoc] at hended
  exact List.append_cancel_right hended

theorem HasLines.splitOn (h : HasLines content lines current) :
    content.splitOn lineFeed = lines ++ [current] := by
  rw [h.content_eq, endLines_append_eq_intercalate]
  refine List.splitOn_intercalate _ (fun line hline => ?_) (by simp)
  rcases List.mem_append.mp hline with hline | hline
  · exact h.ended line hline
  · rw [List.mem_singleton.mp hline]
    exact h.open_line

end Lines

section Chunks

variable {sha256 : List UInt8 → String}

/-- The state of a scan after some bytes, of which the last ones wait for their hasher. -/
structure Scanned (sha256 : List UInt8 → String) (content waiting : List UInt8) (state : ScanState)
    (lines : List (List UInt8)) (current : List UInt8) : Prop where
  hasLines : HasLines content lines current
  lineByteLengths : state.lineByteLengths = lines.map List.length
  lineContentHashes : state.lineContentHashes = lines.map sha256
  lineHasher : state.lineHasher ++ waiting = current
  currentLineBytes : state.currentLineBytes = current.length
  lastByte : state.lastByte = content.getLast?

variable {lines : List (List UInt8)} {current : List UInt8} {state : ScanState} {lineStart : ℕ}

theorem subarray_append {done rest : List UInt8} :
    subarray (done ++ rest) lineStart done.length = done.drop lineStart := by
  rw [subarray, List.take_left]

theorem scanChunkBytes_scanned {chunk before done rest : List UInt8}
    (hchunk : chunk = done ++ rest) (hle : lineStart ≤ done.length)
    (h : Scanned sha256 (before ++ done) (done.drop lineStart) state lines current) :
    ∃ lines' current', Scanned sha256 (before ++ chunk) []
      (scanChunkBytes sha256 chunk rest done.length lineStart state) lines' current' ∧
      (scanChunkBytes sha256 chunk rest done.length lineStart state).contentHasher =
        state.contentHasher ∧
      (scanChunkBytes sha256 chunk rest done.length lineStart state).byteSize = state.byteSize := by
  induction rest generalizing done lineStart state lines current with
  | nil =>
    rw [List.append_nil] at hchunk
    subst hchunk
    rw [scanChunkBytes]
    have hwhole : subarray chunk lineStart chunk.length = chunk.drop lineStart := by
      rw [subarray, List.take_length]
    split_ifs with hlt
    · refine ⟨lines, current, ⟨h.hasLines, h.lineByteLengths, h.lineContentHashes, ?_,
        h.currentLineBytes, h.lastByte⟩, rfl, rfl⟩
      rw [List.append_nil, hwhole]
      exact h.lineHasher
    · have hwaiting := h.lineHasher
      rw [List.drop_eq_nil_of_le (Nat.le_of_not_lt hlt)] at hwaiting
      exact ⟨lines, current, ⟨h.hasLines, h.lineByteLengths, h.lineContentHashes, hwaiting,
        h.currentLineBytes, h.lastByte⟩, rfl, rfl⟩
  | cons byte rest ih =>
    have hnext : chunk = done ++ [byte] ++ rest := by rw [hchunk, List.append_assoc]; rfl
    have hlength : (done ++ [byte]).length = done.length + 1 := by simp
    have hdone : before ++ (done ++ [byte]) = before ++ done ++ [byte] := by simp
    have hlast : (before ++ (done ++ [byte])).getLast? = some byte := by simp
    by_cases hbyte : byte = lineFeed
    · subst hbyte
      have hfed : (if lineStart < done.length then
          state.lineHasher ++ subarray chunk lineStart done.length else state.lineHasher) =
            current := by
        have hwaiting := h.lineHasher
        split_ifs with hlt
        · rw [hchunk, subarray_append]
          exact hwaiting
        · rw [List.drop_eq_nil_of_le (Nat.le_of_not_lt hlt), List.append_nil] at hwaiting
          exact hwaiting
      rw [scanChunkBytes, if_pos rfl]
      dsimp only
      rw [hfed]
      have hstep : Scanned sha256 (before ++ (done ++ [lineFeed]))
          ((done ++ [lineFeed]).drop (done.length + 1))
          { state with
            lineByteLengths := state.lineByteLengths ++ [state.currentLineBytes]
            lineContentHashes := state.lineContentHashes ++ [sha256 current]
            lineHasher := [], currentLineBytes := 0, lastByte := some lineFeed }
          (lines ++ [current]) [] := by
        refine ⟨?_, ?_, ?_, ?_, rfl, hlast.symm⟩
        · rw [hdone]
          exact h.hasLines.feed
        · simp [h.lineByteLengths, h.currentLineBytes]
        · simp [h.lineContentHashes]
        · simp
      have hrest := ih hnext (by omega) hstep
      rw [hlength] at hrest
      exact hrest
    · rw [scanChunkBytes, if_neg hbyte]
      have hstep : Scanned sha256 (before ++ (done ++ [byte])) ((done ++ [byte]).drop lineStart)
          { state with currentLineBytes := state.currentLineBytes + 1, lastByte := some byte }
          lines (current ++ [byte]) := by
        refine ⟨?_, h.lineByteLengths, h.lineContentHashes, ?_, ?_, hlast.symm⟩
        · rw [hdone]
          exact h.hasLines.byte hbyte
        · rw [List.drop_append_of_le_length hle, ← List.append_assoc, h.lineHasher]
        · simp [h.currentLineBytes]
      have hrest := ih hnext (by omega) hstep
      rw [hlength] at hrest
      exact hrest

theorem scanReads_scanned {reads : List (List UInt8)} {content : List UInt8}
    (hreads : ∀ chunk ∈ reads, chunk ≠ []) (h : Scanned sha256 content [] state lines current)
    (hhasher : state.contentHasher = content) (hsize : state.byteSize = content.length) :
    ∃ lines' current',
      Scanned sha256 (content ++ reads.flatten) [] (scanReads sha256 reads state) lines' current' ∧
      (scanReads sha256 reads state).contentHasher = content ++ reads.flatten ∧
      (scanReads sha256 reads state).byteSize = (content ++ reads.flatten).length := by
  induction reads generalizing content state lines current with
  | nil =>
    rw [List.flatten_nil, List.append_nil]
    exact ⟨lines, current, h, hhasher, hsize⟩
  | cons chunk reads ih =>
    have hstart : Scanned sha256 (content ++ []) (([] : List UInt8).drop 0)
        { state with
          contentHasher := state.contentHasher ++ chunk
          byteSize := state.byteSize + chunk.length } lines current := by
      rw [List.append_nil]
      exact ⟨h.hasLines, h.lineByteLengths, h.lineContentHashes, h.lineHasher, h.currentLineBytes,
        h.lastByte⟩
    obtain ⟨lines', current', hscanned, hhasher', hsize'⟩ :=
      scanChunkBytes_scanned (List.nil_append chunk).symm (Nat.zero_le _) hstart
    rw [scanReads, if_neg (hreads chunk List.mem_cons_self), List.flatten_cons, ← List.append_assoc]
    refine ih (fun c hc => hreads c (List.mem_cons_of_mem _ hc)) hscanned ?_ ?_
    · exact hhasher'.trans (congrArg (· ++ chunk) hhasher)
    · rw [List.length_append, ← hsize]
      exact hsize'

/-- The lines of a file; what is after the last line feed is a line unless it is empty. -/
def fileLines (content : List UInt8) (lines : List (List UInt8)) (current : List UInt8) :
    List (List UInt8) :=
  if lines = [] ∨ content.getLast? ≠ some lineFeed then lines ++ [current] else lines

theorem inspectReads_lines {reads : List (List UInt8)} (hreads : ∀ chunk ∈ reads, chunk ≠ []) :
    ∃ lines current, HasLines reads.flatten lines current ∧
      (inspectReads sha256 reads).lineByteLengths =
        (fileLines reads.flatten lines current).map List.length ∧
      (inspectReads sha256 reads).lineContentHashes =
        (fileLines reads.flatten lines current).map sha256 ∧
      (inspectReads sha256 reads).contentHash = sha256 reads.flatten ∧
      (inspectReads sha256 reads).byteSize = reads.flatten.length := by
  have hinitial : Scanned sha256 [] [] ScanState.initial [] [] := ⟨.nil, rfl, rfl, rfl, rfl, rfl⟩
  obtain ⟨lines, current, hscanned, hhasher, hsize⟩ := scanReads_scanned hreads hinitial rfl rfl
  rw [List.nil_append] at hscanned hhasher hsize
  have hnil : (scanReads sha256 reads .initial).lineByteLengths = [] ↔ lines = [] := by
    rw [hscanned.lineByteLengths, List.map_eq_nil_iff]
  have hcurrent := hscanned.lineHasher
  rw [List.append_nil] at hcurrent
  have hiff : (scanReads sha256 reads .initial).lineByteLengths = [] ∨
      (scanReads sha256 reads .initial).lastByte ≠ some lineFeed ↔
        lines = [] ∨ reads.flatten.getLast? ≠ some lineFeed := by
    rw [hnil, hscanned.lastByte]
  refine ⟨lines, current, hscanned.hasLines, ?_⟩
  unfold inspectReads fileLines
  by_cases hlast : lines = [] ∨ reads.flatten.getLast? ≠ some lineFeed
  · dsimp only
    rw [if_pos (hiff.mpr hlast), if_pos hlast]
    refine ⟨?_, ?_, congrArg sha256 hhasher, hsize⟩
    · simp [hscanned.lineByteLengths, hscanned.currentLineBytes]
    · simp [hscanned.lineContentHashes, hcurrent]
  · dsimp only
    rw [if_neg fun hopen => hlast (hiff.mp hopen), if_neg hlast]
    exact ⟨hscanned.lineByteLengths, hscanned.lineContentHashes, congrArg sha256 hhasher, hsize⟩

end Chunks

section Ranges

variable {content : List UInt8} {lines all : List (List UInt8)} {current : List UInt8}

theorem length_endLines (lines : List (List UInt8)) (offset : ℕ) :
    (lines.map List.length).foldl (fun offset length => offset + (length + 1)) offset =
      offset + (endLines lines).length := by
  induction lines generalizing offset with
  | nil => rfl
  | cons line lines ih =>
    rw [List.map_cons, List.foldl_cons, ih, endLines_cons, List.length_append, List.length_cons]
    omega

theorem lineStartByte_eq (line : ℕ) :
    lineStartByte (all.map List.length) line = (endLines (all.take (line - 1))).length := by
  rw [lineStartByte, ← List.map_take, length_endLines, Nat.zero_add]

theorem lineEndByte_eq {line : ℕ} (hline : 1 ≤ line) (hle : line ≤ all.length) :
    lineStartByte (all.map List.length) line + (all.map List.length).getD (line - 1) 0 + 1 =
      (endLines (all.take line)).length := by
  obtain ⟨line, rfl⟩ : ∃ n, line = n + 1 := ⟨line - 1, by omega⟩
  have hget : (all.map List.length).getD line 0 = all[line].length := by
    rw [List.getD_eq_getElem _ _ (by rw [List.length_map]; omega), List.getElem_map]
  rw [lineStartByte_eq, Nat.add_sub_cancel, hget, ← List.take_append_getElem (by omega),
    endLines_append]
  simp [endLines]
  omega

theorem HasLines.prefix_fileLines (h : HasLines content lines current) :
    content <+: endLines (fileLines content lines current) ∧
      (endLines (fileLines content lines current)).length ≤ content.length + 1 ∧
      fileLines content lines current ≠ [] ∧
      ∀ line ∈ fileLines content lines current, lineFeed ∉ line := by
  unfold fileLines
  split_ifs with hlast
  · have hended : endLines (lines ++ [current]) = content ++ [lineFeed] := by
      rw [endLines_append, h.content_eq, List.append_assoc]
      simp [endLines]
    refine ⟨⟨[lineFeed], hended.symm⟩, by rw [hended]; simp, by simp, fun line hline => ?_⟩
    rcases List.mem_append.mp hline with hline | hline
    · exact h.ended line hline
    · rw [List.mem_singleton.mp hline]
      exact h.open_line
  · rw [not_or, not_not] at hlast
    have hempty : current = [] := by
      rcases List.eq_nil_or_concat current with hnil | ⟨before, last, hconcat⟩
      · exact hnil
      · have hfeed := hlast.2
        rw [h.content_eq, hconcat] at hfeed
        have hbyte : last = lineFeed := by simpa using hfeed
        have hopen := h.open_line
        simp [hconcat, hbyte] at hopen
    have hcontent := h.content_eq
    rw [hempty, List.append_nil] at hcontent
    rw [← hcontent]
    exact ⟨List.prefix_rfl, Nat.le_succ _, hlast.1, h.ended⟩

theorem readAuthorizedRange_lines {startLine endLine : ℕ} (h : HasLines content lines current)
    (hall : all = fileLines content lines current) (hstart : 1 ≤ startLine)
    (hle : startLine ≤ endLine) (hend : endLine ≤ all.length) :
    readAuthorizedRange content (all.map List.length) startLine endLine =
        [lineFeed].intercalate ((all.take endLine).drop (startLine - 1)) ∧
      (readAuthorizedRange content (all.map List.length) startLine endLine).length =
        sumLines (all.map List.length) startLine endLine := by
  obtain ⟨⟨rest, hprefix⟩, hlength, -, -⟩ := h.prefix_fileLines
  rw [← hall] at hprefix hlength
  have hne : (all.take endLine).drop (startLine - 1) ≠ [] := by
    rw [← List.length_pos_iff, List.length_drop, List.length_take]
    omega
  have hbefore : (all.take endLine).take (startLine - 1) = all.take (startLine - 1) := by
    rw [List.take_take, min_eq_left (by omega)]
  have hsplit : endLines (all.take endLine) = endLines (all.take (startLine - 1)) ++
      ([lineFeed].intercalate ((all.take endLine).drop (startLine - 1)) ++ [lineFeed]) := by
    rw [← endLines_eq_intercalate hne, ← hbefore, ← endLines_append, List.take_append_drop]
  have hwhole : endLines all = endLines (all.take endLine) ++ endLines (all.drop endLine) := by
    rw [← endLines_append, List.take_append_drop]
  have hfirst := @lineStartByte_eq all startLine
  have hlast := @lineEndByte_eq all endLine (hstart.trans hle) hend
  have hsum := lineStartByte_add_sumLines hstart hle
    (by rw [List.length_map]; exact hend : endLine ≤ (all.map List.length).length)
  have hsizes := congrArg List.length hsplit
  have hsizes' := congrArg List.length hwhole
  simp only [List.length_append, List.length_singleton] at hsizes hsizes'
  have hbytes : readAuthorizedRange content (all.map List.length) startLine endLine =
      [lineFeed].intercalate ((all.take endLine).drop (startLine - 1)) := by
    unfold readAuthorizedRange
    rw [if_neg (by rw [List.length_map]; omega)]
    dsimp only
    have hcontent : ∀ first count, first + count ≤ content.length →
        (content.drop first).take count = ((endLines all).drop first).take count := by
      intro first count hfits
      rw [← hprefix, List.drop_append_of_le_length (by omega), List.take_append_of_le_length]
      rw [List.length_drop]
      omega
    rw [hcontent _ _ (by omega), hwhole, hsplit, List.append_assoc, hfirst, List.drop_left,
      List.append_assoc, List.take_append_of_le_length (by omega), List.take_of_length_le (by omega)]
  refine ⟨hbytes, ?_⟩
  rw [hbytes]
  omega

end Ranges

section Fingerprints

variable {sha256 : List UInt8 → String} {content : List UInt8} {lines : List (List UInt8)}
  {current : List UInt8}

theorem lineHashes_lines {done rest : List UInt8} {hashes : List String}
    (hcontent : content = done ++ rest) (h : HasLines done lines current)
    (hhashes : hashes = lines.map sha256) :
    ∃ lines' current', HasLines content lines' current' ∧
      lineHashes sha256 content rest done.length (endLines lines).length hashes =
        (lines'.map sha256, (endLines lines').length) := by
  induction rest generalizing done lines current hashes with
  | nil =>
    rw [List.append_nil] at hcontent
    rw [hcontent, hhashes]
    exact ⟨lines, current, h, rfl⟩
  | cons byte rest ih =>
    have hnext : content = done ++ [byte] ++ rest := by rw [hcontent, List.append_assoc]; rfl
    have hlength : (done ++ [byte]).length = done.length + 1 := by simp
    rw [lineHashes]
    by_cases hbyte : byte = lineFeed
    · subst hbyte
      have hline : subarray content (endLines lines).length done.length = current := by
        rw [hcontent, subarray_append, h.content_eq, List.drop_left]
      have hended : (endLines (lines ++ [current])).length = done.length + 1 := by
        rw [endLines_append, h.content_eq]
        simp [endLines]
        omega
      have hrest := ih hnext h.feed
        (by rw [List.map_append, hhashes]; rfl : hashes ++ [sha256 current] = (lines ++ [current]).map sha256)
      rw [hlength, hended] at hrest
      rw [if_pos rfl, hline]
      exact hrest
    · have hrest := ih hnext (h.byte hbyte) hhashes
      rw [hlength] at hrest
      rw [if_neg hbyte]
      exact hrest

theorem rangeFingerprintFromBytes_eq (sha256 : List UInt8 → String) (content : List UInt8) :
    rangeFingerprintFromBytes sha256 content =
      rangeFingerprint sha256 ((content.splitOn lineFeed).map sha256) := by
  obtain ⟨lines, current, hlines, hhashes⟩ :=
    @lineHashes_lines sha256 content [] [] [] content [] rfl .nil rfl
  rw [rangeFingerprintFromBytes]
  rw [show lineHashes sha256 content content 0 0 [] =
    (lines.map sha256, (endLines lines).length) from hhashes, hlines.splitOn]
  have hcurrent : content.drop (endLines lines).length = current := by
    rw [hlines.content_eq, List.drop_left]
  have hpushed : lines.map sha256 = [] ∨ (endLines lines).length < content.length ∨
      content.getLast? = some lineFeed := by
    rcases List.eq_nil_or_concat lines with rfl | ⟨before, last, rfl⟩
    · exact .inl rfl
    · cases current with
      | nil =>
        refine .inr (.inr ?_)
        rw [hlines.content_eq, List.append_nil, List.concat_eq_append, endLines_append]
        simp [endLines]
      | cons byte current =>
        refine .inr (.inl ?_)
        have hlength := congrArg List.length hlines.content_eq
        rw [List.length_append, List.length_cons] at hlength
        omega
  rw [if_pos hpushed, hcurrent, List.map_append]
  rfl

/-- What a scan says of a range agrees with the bytes that are read back for it, however the file
was read. -/
theorem inspected_range_agrees (sha256 : List UInt8 → String) (reads : List (List UInt8))
    (hreads : ∀ chunk ∈ reads, chunk ≠ []) (startLine endLine : ℕ) (hstart : 1 ≤ startLine)
    (hle : startLine ≤ endLine) (hend : endLine ≤ (inspectReads sha256 reads).lineCount) :
    rangeBytes (inspectReads sha256 reads).metadata startLine endLine =
        some (readAuthorizedRange reads.flatten (inspectReads sha256 reads).lineByteLengths
          startLine endLine).length ∧
      inspectedRangeFingerprint sha256 (inspectReads sha256 reads) startLine endLine =
        rangeFingerprintFromBytes sha256
          (readAuthorizedRange reads.flatten (inspectReads sha256 reads).lineByteLengths
            startLine endLine) := by
  obtain ⟨lines, current, hlines, hlengths, hhashes, -, -⟩ := @inspectReads_lines sha256 reads hreads
  have hcount : (inspectReads sha256 reads).lineCount =
      (fileLines reads.flatten lines current).length := by
    have hsame : (inspectReads sha256 reads).lineCount =
        (inspectReads sha256 reads).lineByteLengths.length := rfl
    rw [hsame, hlengths, List.length_map]
  rw [hcount] at hend
  obtain ⟨hbytes, hsize⟩ := readAuthorizedRange_lines hlines rfl hstart hle hend
  obtain ⟨-, -, -, hplain⟩ := hlines.prefix_fileLines
  have hne : ((fileLines reads.flatten lines current).take endLine).drop (startLine - 1) ≠ [] := by
    rw [← List.length_pos_iff, List.length_drop, List.length_take]
    omega
  constructor
  · rw [hlengths, hsize]
    unfold rangeBytes InspectedReadFile.metadata
    rw [Option.bind_some, hlengths, if_neg (by rw [List.length_map]; omega)]
  · rw [hlengths, hbytes, rangeFingerprintFromBytes_eq, List.splitOn_intercalate _ (fun line hline =>
      hplain line (List.mem_of_mem_take (List.mem_of_mem_drop hline))) hne,
      inspectedRangeFingerprint, hhashes, List.map_drop, List.map_take]

/-- A line ending in CRLF across a chunk boundary, and a character that a boundary cuts. -/
theorem inspected_range_agrees_cut :
    let sha256 := fun bytes : List UInt8 => String.ofList (bytes.map (fun byte => Char.ofNat byte.toNat))
    let reads : List (List UInt8) := [[0x61, 0x0d], [0x0a, 0xc3], [0xa9]]
    let inspected := inspectReads sha256 reads
    rangeBytes inspected.metadata 1 2 = some [0x61, 0x0d, 0x0a, 0xc3, 0xa9].length ∧
      inspectedRangeFingerprint sha256 inspected 1 2 =
        rangeFingerprintFromBytes sha256 [0x61, 0x0d, 0x0a, 0xc3, 0xa9] := by
  intro sha256 reads inspected
  have hreads : ∀ chunk ∈ reads, chunk ≠ [] := by simp [reads]
  have hcount : inspected.lineCount = 2 := rfl
  exact inspected_range_agrees sha256 reads hreads 1 2 (by omega) (by omega) hcount.ge

end Fingerprints

end Mottainai.ReadGovernor
