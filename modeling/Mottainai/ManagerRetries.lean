import Mottainai.ManagerAttempts

/-!
# Retries never overlap

Each operation of the Manager service, step by step, under the contract of one process:
it creates a run only for the current attempt, it begins the next attempt only when all
runs have ended, and it records a state only when Tsukai has shown it, or a launch of its
own was begun.
-/

namespace Mottainai.ManagerAgentRuns

open Interleaving JavaScriptValues TsukaiCorrelation TsukaiRuns ManagerSession ManagerOperations
  TsukaiStarter

section Steady

variable {sessionId : String} {base world world' : World} {l m : ManagerAnswers} {α β : Type}

/-- The record that a process holds belongs to the current attempt of the session. -/
def Current (sessionId : String) (session : ManagerSessionRecord) (world : World) : Prop :=
  session.sessionId = sessionId ∧
    ∃ r, world.session = some r ∧ r.restartCount = session.restartCount

theorem Current.steady {session : ManagerSessionRecord} (h : Current sessionId session world)
    (hsteady : Steady world world') : Current sessionId session world' := by
  obtain ⟨hid, r, hr, hcount⟩ := h
  obtain ⟨r', hr', -, hcount'⟩ := hsteady.exists_after hr
  exact ⟨hid, r', hr', hcount'.trans hcount⟩

theorem Current.count {session r : ManagerSessionRecord} (h : Current sessionId session world)
    (hr : world.session = some r) : r.restartCount = session.restartCount := by
  obtain ⟨-, r', hr', hcount⟩ := h
  rw [Option.some.inj (hr.symm.trans hr'), hcount]

/-- Programs of the only process, on one session. -/
abbrev ManagerSafe (sessionId : String) (x : Managing α)
    (post : Except Failure α → World → ManagerAnswers → Prop) (world : World)
    (l : ManagerAnswers) : Prop :=
  x.run.Safe Operation.outcomes (retrying sessionId) (Allowed sessionId) post world l

/-- The end of a program that has begun no attempt and created no run. -/
def Ends (sessionId : String) (base : World) (Q : α → World → ManagerAnswers → Prop)
    (r : Except Failure α) (t : World) (m : ManagerAnswers) : Prop :=
  Steady base t ∧ NoOverlap sessionId t ∧ ∀ v, r = .ok v → Q v t m

variable {Q : α → World → ManagerAnswers → Prop} {R : β → World → ManagerAnswers → Prop}
variable {post : Except Failure α → World → ManagerAnswers → Prop}

theorem Ends.error {e : Failure} (hsteady : Steady base world) (hinv : NoOverlap sessionId world) :
    Ends sessionId base Q (.error e) world m := ⟨hsteady, hinv, nofun⟩

theorem Ends.ok {v : α} (hsteady : Steady base world) (hinv : NoOverlap sessionId world)
    (h : Q v world m) : Ends sessionId base Q (.ok v) world m := by
  refine ⟨hsteady, hinv, ?_⟩
  rintro v' ⟨⟩
  exact h

variable {input : UpdateManagerSessionInput} {operation : Operation} {f : β → Managing α}
variable {directive : String} {x : Managing β}

/-- A steady program followed by the rest. -/
theorem steady_bind (hx : ManagerSafe sessionId x (Ends sessionId base R) world l)
    (herror : ∀ e t m, Steady base t → NoOverlap sessionId t → l <+: m → post (.error e) t m)
    (hnext : ∀ v t m, Steady base t → NoOverlap sessionId t → l <+: m → R v t m →
      ManagerSafe sessionId (f v) post t m) : ManagerSafe sessionId (x >>= f) post world l := by
  refine safe_bind (Program.Safe.extending (List.prefix_refl l) (hx.mono ?_))
  rintro r t m ⟨hsteady, hinv, hr⟩ hprefix
  cases r with
  | ok v => exact hnext v t m hsteady hinv hprefix (hr v rfl)
  | error e => exact herror e t m hsteady hinv hprefix

theorem ends_bind (hx : ManagerSafe sessionId x (Ends sessionId base R) world l)
    (hnext : ∀ v t m, Steady base t → NoOverlap sessionId t → l <+: m → R v t m →
      ManagerSafe sessionId (f v) (Ends sessionId base Q) t m) :
    ManagerSafe sessionId (x >>= f) (Ends sessionId base Q) world l :=
  steady_bind hx (fun _ _ _ hsteady hinv _ => .error hsteady hinv) hnext

/-- One steady operation: what it answers was so when it was carried out. -/
theorem request_ends (hoperation : steady operation = true) (hbase : Steady base world)
    (hinv : NoOverlap sessionId world) (hallows : Allowed sessionId operation world l) :
    ManagerSafe sessionId (request operation) (Ends sessionId base fun v t m =>
      ∃ before, Steady base before ∧ (operation.exec before).1 = .ok v ∧
        Steady (operation.exec before).2 t ∧ m = l ++ [⟨operation, .ok v⟩]) world l := by
  rw [← bind_pure (request operation)]
  refine (retrying_tolerates sessionId).request_bind hoperation hbase hinv hallows
    (fun e t m ht hinv' => .error ht hinv') fun before v after hbefore _ hv hafter hbase' hinv' => ?_
  exact .ok hbase' hinv' ⟨before, hbefore, hv, hafter, rfl⟩

theorem request_bind_ends {f : operation.Value → Managing α}
    (hoperation : steady operation = true) (hbase : Steady base world)
    (hinv : NoOverlap sessionId world) (hallows : Allowed sessionId operation world l)
    (hnext : ∀ v t m, Steady base t → NoOverlap sessionId t → l <+: m →
      ManagerSafe sessionId (f v) (Ends sessionId base Q) t m) :
    ManagerSafe sessionId (request operation >>= f) (Ends sessionId base Q) world l :=
  ends_bind (request_ends hoperation hbase hinv hallows) fun v t m ht hinv' hm _ =>
    hnext v t m ht hinv' hm

theorem tryCatch_ends {x : Managing α} {handler : Failure → Managing α}
    (hx : ManagerSafe sessionId x (Ends sessionId base Q) world l)
    (hhandler : ∀ e t m, Steady base t → NoOverlap sessionId t → l <+: m →
      ManagerSafe sessionId (handler e) (Ends sessionId base Q) t m) :
    ManagerSafe sessionId (tryCatch x handler) (Ends sessionId base Q) world l := by
  refine safe_tryCatch (Program.Safe.extending (List.prefix_refl l) (hx.mono ?_))
  rintro r t m ⟨hsteady, hinv, hr⟩ hprefix
  cases r with
  | ok v => exact ⟨hsteady, hinv, hr⟩
  | error e => exact hhandler e t m hsteady hinv hprefix

/-- `openTsukai`. -/
theorem openTsukai_ends (hbase : Steady base world) (hinv : NoOverlap sessionId world) :
    ManagerSafe sessionId openTsukai (Ends sessionId base fun _ _ _ => True) world l := by
  refine request_bind_ends rfl hbase hinv trivial fun handle t m ht hinv' _ => ?_
  cases handle with
  | true => exact .ok ht hinv' trivial
  | false =>
    have hconnect : steady .connectTsukai = true := rfl
    refine tryCatch_ends ((request_ends hconnect ht hinv' trivial).mono ?_) ?_
    · exact fun r t' m' h => ⟨h.1, h.2.1, fun _ _ => trivial⟩
    · exact fun e t' m' ht' hinv'' _ => .error ht' hinv''

/-- `requireSession`. -/
theorem requireSession_ends (hbase : Steady base world) (hinv : NoOverlap sessionId world) :
    ManagerSafe sessionId (requireSession sessionId)
      (Ends sessionId base fun session t _ => Current sessionId session t) world l := by
  refine ends_bind (request_ends rfl hbase hinv trivial) ?_
  rintro session t m ht hinv' - ⟨before, -, hread, hafter, -⟩
  have hrow : Operation.row before sessionId = session := Except.ok.inj hread
  cases session with
  | none => exact .error ht hinv'
  | some session =>
    obtain ⟨hsession, hid⟩ := row_eq_some.1 hrow
    exact .ok ht hinv' (Current.steady ⟨hid, session, hsession, rfl⟩ hafter)

def Evident (sessionId : String) (attempt : ℕ) :
    AgentRunEvidence → World → ManagerAnswers → Prop
  | .held snapshot, world, l =>
      Held (attemptKey sessionId attempt) snapshot world ∧ Shown snapshot l
  | .absent, world, l =>
      some (attemptKey sessionId attempt) ∉ startKeys world ∧ Absent sessionId attempt l
  | .unavailable _, _, _ => True

/-- `reconcileAgentRunEvidence`. -/
theorem reconcileAgentRunEvidence_ends {options : ManagerOptions} {session : ManagerSessionRecord}
    (hid : session.sessionId = sessionId) (hbase : Steady base world)
    (hinv : NoOverlap sessionId world) :
    ManagerSafe sessionId (reconcileAgentRunEvidence options session)
      (Ends sessionId base (Evident sessionId session.restartCount)) world l := by
  unfold reconcileAgentRunEvidence
  rw [hid, ManagerSafe, run_lift_bind]
  cases hkey : tsukaiStartKey sessionId session.restartCount with
  | error e => exact .error hbase hinv
  | ok startKey =>
    obtain rfl := tsukaiStartKey_ok hkey
    refine tryCatch_ends ?_ fun e t m ht hinv' _ => .ok ht hinv' trivial
    refine ends_bind (openTsukai_ends hbase hinv) fun _ t m ht hinv' _ _ => ?_
    refine tryCatch_ends ?_ fun e t' m' ht' hinv'' _ => .ok ht' hinv'' trivial
    refine safe_bind ?_
    refine recover_safe (retrying_tolerates sessionId) (permits sessionId _) ?_ ?_ ?_ ?_
      options.listPages sessionId ht hinv'
    · exact fun e t' m' ht' hinv'' => .error ht' hinv''
    · exact fun run t' m' ht' hinv'' hheld hshown => .ok ht' hinv'' ⟨hheld, hshown⟩
    · rintro t' m' ht' hinv'' ⟨earlier, hno, hearlier⟩ hend
      refine .ok ht' hinv'' ⟨?_, m', [], (List.append_nil _).symm, Or.inl hend⟩
      rwa [hearlier.startKeys]
    · intro s t' m' hs hinv₀ hnone hst hinv'' hend
      have ht' := hs.trans hst
      refine .ok ht' hinv'' ⟨?_, m', [], (List.append_nil _).symm, Or.inr hend⟩
      rw [hst.startKeys]
      intro hmem
      obtain ⟨run, hrun, hattempt⟩ := List.mem_map.1 hmem
      exact NoOverlap.reserved hinv₀ run hrun _ hattempt hnone

variable {options : ManagerOptions} {session : ManagerSessionRecord}

theorem current_of_updateRow {before t : World} {r : ManagerSessionRecord}
    (set : ManagerSessionRecord → ManagerSessionRecord) (hset : ∀ current, (set current).sessionId = current.sessionId)
    (h : (Operation.updateRow before sessionId set).1 = .ok r)
    (ht : Steady (Operation.updateRow before sessionId set).2 t) : Current sessionId r t := by
  rcases Operation.updateRow_cases before sessionId set with ⟨e, heq⟩ | ⟨current, hrow, heq⟩
  · rw [heq] at h
    cases h
  · rw [heq] at h ht
    cases h
    exact Current.steady ⟨(hset current).trans (row_eq_some.1 hrow).2, _, rfl, rfl⟩ ht

/-- An update that begins no attempt may be made when what it records is backed. -/
theorem mayUpdate (hcurrent : Current sessionId session world)
    (hcount : input.restartCount = none)
    (hbacked : ∀ state, Sets input state → Backed sessionId session.restartCount l state) :
    MayUpdate sessionId input world l := by
  refine ⟨fun count hsome => ?_, fun r state hr hsets => ?_⟩
  · rw [hcount] at hsome
    cases hsome
  · rw [hcount, Option.getD_none, hcurrent.count hr]
    exact hbacked state hsets

/-- An update that begins no attempt. -/
theorem update_ends (hcurrent : Current sessionId session base)
    (hcount : input.restartCount = none)
    (hbacked : ∀ state, Sets input state → Backed sessionId session.restartCount l state)
    (hbase : Steady base world) (hinv : NoOverlap sessionId world) :
    ManagerSafe sessionId (request (Operation.updateManagerSession session.sessionId input))
      (Ends sessionId base fun r t _ => Current sessionId r t) world l := by
  rw [hcurrent.1]
  have hsteady : steady (.updateManagerSession sessionId input) = true :=
    Option.isNone_iff_eq_none.2 hcount
  refine (request_ends hsteady hbase hinv
    (mayUpdate (hcurrent.steady hbase) hcount hbacked)).mono ?_
  rintro r t m ⟨ht, hinv', hr⟩
  refine ⟨ht, hinv', fun v hv => ?_⟩
  obtain ⟨before, -, hupdated, hafter, -⟩ := hr v hv
  exact current_of_updateRow (fun current => input.apply current before.environment.clock)
    (fun _ => rfl) hupdated hafter

/-- `applyReconciliationPatch`. -/
theorem applyReconciliationPatch_ends {patch : UpdateManagerSessionInput}
    (hcurrent : Current sessionId session base) (hcount : patch.restartCount = none)
    (hbacked : ∀ state, Sets patch state → Backed sessionId session.restartCount l state)
    (hbase : Steady base world) (hinv : NoOverlap sessionId world) :
    ManagerSafe sessionId (applyReconciliationPatch session patch)
      (Ends sessionId base fun r t _ => Current sessionId r t) world l := by
  have hsame : Current sessionId session world := hcurrent.steady hbase
  unfold applyReconciliationPatch
  split_ifs
  · split
    · rename_i observedAt _
      split_ifs
      · rw [hcurrent.1]
        have hsteady : steady (.checkpointRuntimeObservedAt sessionId observedAt) = true := rfl
        refine (request_ends hsteady hbase hinv trivial).mono ?_
        rintro r t m ⟨ht, hinv', hr⟩
        refine ⟨ht, hinv', fun v hv => ?_⟩
        obtain ⟨before, -, hupdated, hafter, -⟩ := hr v hv
        exact current_of_updateRow (ManagerSession.checkpointRuntimeObservedAt observedAt)
          (fun _ => rfl) hupdated hafter
      · exact .ok hbase hinv hsame
    · exact .ok hbase hinv hsame
  · exact update_ends hcurrent hcount hbacked hbase hinv

/-- `observeWorkflow`. -/
theorem observeWorkflow_ends (hbase : Steady base world) (hinv : NoOverlap sessionId world) :
    ManagerSafe sessionId (observeWorkflow session) (Ends sessionId base fun _ _ _ => True)
      world l := by
  refine tryCatch_ends ?_ fun e t m ht hinv' _ => ?_
  · exact request_bind_ends rfl hbase hinv trivial fun _ t m ht hinv' _ => .ok ht hinv' trivial
  · exact request_bind_ends rfl ht hinv' trivial fun _ t' m' ht' hinv'' _ =>
      .ok ht' hinv'' trivial

/-- `reconcileAgentRunSession`. -/
theorem reconcileAgentRunSession_ends {semantic : SemanticLifecycleState} {status : Option String}
    {semanticReceipt : Option ManagerSessionReceipt} (hcurrent : Current sessionId session base)
    (hbase : Steady base world) (hinv : NoOverlap sessionId world) :
    ManagerSafe sessionId (reconcileAgentRunSession options session semantic status semanticReceipt)
      (Ends sessionId base fun r t _ => Current sessionId r t) world l := by
  refine ends_bind (reconcileAgentRunEvidence_ends hcurrent.1 hbase hinv) ?_
  intro evidence t m ht hinv' _ hevident
  have hsemantic : ManagerSafe sessionId
      (applyReconciliationPatch session (semanticPatch semantic status semanticReceipt))
      (Ends sessionId base fun r t _ => Current sessionId r t) t m := by
    refine applyReconciliationPatch_ends hcurrent rfl ?_ ht hinv'
    rintro state (h | h) <;> cases h
  cases evidence with
  | held snapshot =>
    obtain ⟨hheld, hshown⟩ := hevident
    refine request_bind_ends rfl ht hinv' trivial fun now t₁ m₁ ht₁ hinv₁ hm₁ => ?_
    refine request_bind_ends rfl ht₁ hinv₁ trivial fun recordedAt t₂ m₂ ht₂ hinv₂ hm₂ => ?_
    have hshown₂ : Shown snapshot m₂ := hshown.mono (hm₁.trans hm₂)
    refine applyReconciliationPatch_ends hcurrent
      (agentRunSessionPatch_restartCount session snapshot now recordedAt) ?_ ht₂ hinv₂
    exact fun state hsets => backed_agentRunSessionPatch hshown₂ hheld.1 hsets
  | absent =>
    obtain ⟨-, habsent⟩ := hevident
    dsimp only
    split_ifs
    · exact hsemantic
    · refine request_bind_ends rfl ht hinv' trivial fun recordedAt t₁ m₁ ht₁ hinv₁ hm₁ => ?_
      refine request_bind_ends rfl ht₁ hinv₁ trivial fun now t₂ m₂ ht₂ hinv₂ hm₂ => ?_
      refine applyReconciliationPatch_ends hcurrent rfl (fun state hsets => ?_) ht₂ hinv₂
      obtain rfl := hsets.eq rfl rfl
      exact Or.inr ⟨rfl, Or.inl (habsent.mono (hm₁.trans hm₂))⟩
  | unavailable reason =>
    dsimp only
    split_ifs
    · exact hsemantic
    · refine applyReconciliationPatch_ends hcurrent rfl ?_ ht hinv'
      rintro state (h | h) <;> cases h

/-- `reconcileOneUnlocked`. -/
theorem reconcileOneUnlocked_ends (hcurrent : Current sessionId session base)
    (hbase : Steady base world) (hinv : NoOverlap sessionId world) :
    ManagerSafe sessionId (reconcileOneUnlocked options session)
      (Ends sessionId base fun r t _ => Current sessionId r t) world l := by
  refine ends_bind (observeWorkflow_ends hbase hinv) ?_
  rintro ⟨semantic, status, semanticReceipt⟩ t m ht hinv' - -
  exact reconcileAgentRunSession_ends hcurrent ht hinv'

/-- `get`. -/
theorem get_ends (hbase : Steady base world) (hinv : NoOverlap sessionId world) :
    ManagerSafe sessionId (get options sessionId)
      (Ends sessionId base fun r t _ => Current sessionId r t) world l := by
  refine ends_bind (requireSession_ends hbase hinv) fun session t m ht hinv' hm hcurrent => ?_
  refine (reconcileOneUnlocked_ends hcurrent (.refl t) hinv').mono ?_
  exact fun r t' m' h => ⟨ht.trans h.1, h.2⟩

/-- `readAgentRunEvidence`. -/
theorem readAgentRunEvidence_ends (hbase : Steady base world) (hinv : NoOverlap sessionId world) :
    ManagerSafe sessionId (readAgentRunEvidence session) (Ends sessionId base fun _ _ _ => True)
      world l := by
  unfold readAgentRunEvidence
  rw [ManagerSafe, run_lift_bind]
  cases tsukaiStartKey session.sessionId session.restartCount with
  | error e => exact .error hbase hinv
  | ok startKey =>
    refine request_bind_ends rfl hbase hinv trivial fun handle t m ht hinv' _ => ?_
    split_ifs
    · refine request_bind_ends rfl ht hinv' trivial fun correlation t₁ m₁ ht₁ hinv₁ _ => ?_
      cases correlation with
      | none => exact .ok ht₁ hinv₁ trivial
      | some correlation =>
        dsimp only
        cases correlation.agentRunId with
        | none => exact .ok ht₁ hinv₁ trivial
        | some agentRunId =>
          refine tryCatch_ends ?_ fun e t₂ m₂ ht₂ hinv₂ _ => .ok ht₂ hinv₂ trivial
          exact request_bind_ends rfl ht₁ hinv₁ trivial fun _ t₂ m₂ ht₂ hinv₂ _ =>
            .ok ht₂ hinv₂ trivial
    · exact .ok ht hinv' trivial

theorem startKey_of_cancel {before : World} {startKey agentRunId : String}
    {snapshot cancelled : RunSnapshot} (hheld : Held startKey snapshot before)
    (hid : snapshot.agentRunId = agentRunId)
    (h : (Operation.cancelRun before agentRunId).1 = .ok cancelled) :
    cancelled.metadata.startKey = some startKey := by
  rcases Operation.cancelRun_cases before agentRunId with ⟨e, heq⟩ |
    ⟨run, tsukai, heq, hmoves, hrun, hrunid⟩
  · rw [heq] at h
    cases h
  · rw [heq] at h
    cases h
    obtain ⟨hkey, run', hrun', hfirst⟩ := hheld
    obtain ⟨run'', hrun'', hsecond⟩ := hmoves.exists_after hrun'
    have hall := hfirst.trans hsecond
    have hsame : run''.agentRunId = cancelled.agentRunId :=
      ((Prod.mk.inj hall.identity).1.trans hid).trans hrunid.symm
    obtain rfl := Tsukai.eq_of_agentRunId hrun'' hrun hsame
    exact hall.startKey.trans hkey

/-- `stopAgentRun`. -/
theorem stopAgentRun_ends (hcurrent : Current sessionId session base)
    (hbase : Steady base world) (hinv : NoOverlap sessionId world) :
    ManagerSafe sessionId (stopAgentRun options session)
      (Ends sessionId base fun r t _ => Current sessionId r t) world l := by
  refine ends_bind (openTsukai_ends hbase hinv) fun _ t₀ m₀ ht₀ hinv₀ _ _ => ?_
  refine ends_bind (reconcileAgentRunEvidence_ends hcurrent.1 ht₀ hinv₀) ?_
  intro evidence t m ht hinv' _ hevident
  cases evidence with
  | absent => exact .error ht hinv'
  | unavailable reason => exact .error ht hinv'
  | held snapshot =>
    have hcancel : steady (.cancel snapshot.agentRunId) = true := rfl
    refine steady_bind (request_ends hcancel (.refl t) hinv' trivial)
      (fun e t₁ m₁ ht₁ hinv₁ _ => .error (ht.trans ht₁) hinv₁) ?_
    rintro cancelled t₁ m₁ ht₁ hinv₁ - ⟨before, hbefore, hanswer, hafter, rfl⟩
    have hkey := startKey_of_cancel (hevident.1.grows hbefore.grows) rfl hanswer
    have hshown : Shown cancelled (m ++ [⟨.cancel snapshot.agentRunId, .ok cancelled⟩]) :=
      .last (List.mem_singleton_self _)
    refine request_bind_ends rfl (ht.trans ht₁) hinv₁ trivial fun now t₂ m₂ ht₂ hinv₂ hm₂ => ?_
    refine request_bind_ends rfl ht₂ hinv₂ trivial fun recordedAt t₃ m₃ ht₃ hinv₃ hm₃ => ?_
    refine update_ends hcurrent
      (agentRunSessionPatch_restartCount session cancelled now recordedAt) ?_ ht₃ hinv₃
    exact fun state hsets => backed_agentRunSessionPatch (hshown.mono (hm₂.trans hm₃)) hkey hsets

/-- `awaitAgentRunTerminal`. -/
theorem awaitAgentRunTerminal_ends (hcurrent : Current sessionId session base)
    (hbase : Steady base world) (hinv : NoOverlap sessionId world) :
    ManagerSafe sessionId (awaitAgentRunTerminal options session)
      (Ends sessionId base fun r t _ => Current sessionId r t) world l := by
  refine ends_bind (readAgentRunEvidence_ends hbase hinv) fun evidence t m ht hinv' _ _ => ?_
  have hsame : Current sessionId session t := hcurrent.steady ht
  cases evidence with
  | absent => exact .ok ht hinv' hsame
  | unavailable reason => exact .ok ht hinv' hsame
  | held snapshot =>
    dsimp only
    split_ifs
    · exact .ok ht hinv' hsame
    · have hwait : steady (.wait snapshot.agentRunId) = true := rfl
      refine ends_bind (R := fun _ _ _ => True) (tryCatch_ends
        ((request_ends hwait ht hinv' trivial).mono fun r t₁ m₁ h => ⟨h.1, h.2.1, fun _ _ => trivial⟩)
        fun e t₁ m₁ ht₁ hinv₁ _ => .ok ht₁ hinv₁ trivial) fun _ t₁ m₁ ht₁ hinv₁ _ _ => ?_
      rw [hcurrent.1]
      exact get_ends ht₁ hinv₁

/-- `steerAgentRun`. -/
theorem steerAgentRun_ends (hid : session.sessionId = sessionId) (hbase : Steady base world)
    (hinv : NoOverlap sessionId world) :
    ManagerSafe sessionId (steerAgentRun options session directive)
      (Ends sessionId base fun _ _ _ => True) world l := by
  refine ends_bind (openTsukai_ends hbase hinv) fun _ t₀ m₀ ht₀ hinv₀ _ _ => ?_
  refine ends_bind (reconcileAgentRunEvidence_ends hid ht₀ hinv₀) fun evidence t m ht hinv' _ _ => ?_
  cases evidence with
  | absent => exact .error ht hinv'
  | unavailable reason => exact .error ht hinv'
  | held snapshot =>
    refine tryCatch_ends ?_ fun e t₁ m₁ ht₁ hinv₁ _ => ?_
    · exact request_bind_ends rfl ht hinv' trivial fun never => never.elim
    · cases e <;> exact .error ht₁ hinv₁

/-- `steer`. -/
theorem steer_ends (hbase : Steady base world) (hinv : NoOverlap sessionId world) :
    ManagerSafe sessionId (steer options sessionId directive)
      (Ends sessionId base fun _ _ _ => True) world l := by
  unfold steer
  rw [ManagerSafe, run_lift_bind]
  cases validateControlDirective directive with
  | error e => exact .error hbase hinv
  | ok boundedDirective =>
    refine ends_bind (get_ends hbase hinv) fun current t m ht hinv' _ hcurrent => ?_
    split_ifs
    · exact .error ht hinv'
    · exact steerAgentRun_ends hcurrent.1 ht hinv'

/-- `stopUnlocked`. -/
theorem stopUnlocked_ends (hbase : Steady base world) (hinv : NoOverlap sessionId world) :
    ManagerSafe sessionId (stopUnlocked options sessionId)
      (Ends sessionId base fun r t _ => Current sessionId r t) world l := by
  refine ends_bind (get_ends hbase hinv) fun session t m ht hinv' _ hcurrent => ?_
  split_ifs
  · refine (stopAgentRun_ends hcurrent (.refl t) hinv').mono ?_
    exact fun r t' m' h => ⟨ht.trans h.1, h.2⟩
  · exact .ok ht hinv' hcurrent

/-- `stopBeforeContinue`. -/
theorem stopBeforeContinue_ends (hcurrent : Current sessionId session base)
    (hbase : Steady base world) (hinv : NoOverlap sessionId world) :
    ManagerSafe sessionId (stopBeforeContinue options sessionId session)
      (Ends sessionId base fun r t _ => Current sessionId r t) world l := by
  unfold stopBeforeContinue
  split_ifs
  · refine ends_bind (stopUnlocked_ends hbase hinv) fun stopped t m ht hinv' _ hstopped => ?_
    refine (awaitAgentRunTerminal_ends hstopped (.refl t) hinv').mono ?_
    exact fun r t' m' h => ⟨ht.trans h.1, h.2⟩
  · exact .ok hbase hinv (hcurrent.steady hbase)

end Steady

section Launch

variable {sessionId : String} {world world' : World} {l m : ManagerAnswers} {α : Type}
variable {options : ManagerOptions} {session : ManagerSessionRecord}
variable {post : Except Failure α → World → ManagerAnswers → Prop}

/-- The end of a program that may have launched a run. -/
def Kept (sessionId : String) (_ : Except Failure α) (t : World) (_ : ManagerAnswers) : Prop :=
  NoOverlap sessionId t

variable {operation : Operation} {x : Managing α} {code : String} {f : operation.Value → Managing α}

theorem Ends.kept {Q : α → World → ManagerAnswers → Prop}
    (h : ManagerSafe sessionId x (Ends sessionId world Q) world l) :
    ManagerSafe sessionId x (Kept sessionId) world l :=
  h.mono fun _ _ _ hends => hends.2.1

/-- A steady program before one that may launch a run. -/
theorem kept_bind {β : Type} {R : β → World → ManagerAnswers → Prop} {x : Managing β}
    {f : β → Managing α} (hx : ManagerSafe sessionId x (Ends sessionId world R) world l)
    (hnext : ∀ v t m, Steady world t → NoOverlap sessionId t → l <+: m → R v t m →
      ManagerSafe sessionId (f v) (Kept sessionId) t m) :
    ManagerSafe sessionId (x >>= f) (Kept sessionId) world l :=
  steady_bind hx (fun _ _ _ _ hinv _ => hinv) hnext

theorem request_bind_kept (hoperation : steady operation = true)
    (hinv : NoOverlap sessionId world) (hallows : Allowed sessionId operation world l)
    (hnext : ∀ v t m, Steady world t → NoOverlap sessionId t → l <+: m →
      ManagerSafe sessionId (f v) (Kept sessionId) t m) :
    ManagerSafe sessionId (request operation >>= f) (Kept sessionId) world l :=
  kept_bind (request_ends hoperation (.refl world) hinv hallows) fun v t m ht hinv' hm _ =>
    hnext v t m ht hinv' hm

theorem allowed_bind (hinv : NoOverlap sessionId world)
    (hallows : Allowed sessionId operation world l)
    (hnext : ∀ before v after, (operation.exec before).1 = .ok v →
      Steady (operation.exec before).2 after → NoOverlap sessionId after →
      ManagerSafe sessionId (f v) (Kept sessionId) after (l ++ [⟨operation, .ok v⟩])) :
    ManagerSafe sessionId (request operation >>= f) (Kept sessionId) world l := by
  refine safe_request_bind (retrying_tolerates sessionId).moves hinv hallows ?_
    fun e t _ hinv' => hinv'
  intro before hbefore hinv'
  obtain ⟨hinv'', hadvances⟩ := exec_noOverlap hinv' (hallows.moves hbefore)
  refine ⟨hinv'', hadvances, fun after hafter hinv₃ => ?_⟩
  cases hr : (operation.exec before).1 with
  | ok v => exact hnext before v after hr (.of_moves hafter) hinv₃
  | error e => exact hinv₃

/-- `recordLaunchFailure`, after a launch was begun. -/
theorem recordLaunchFailure_kept {failure : Failure} (hbegun : LaunchBegun l)
    (hinv : NoOverlap sessionId world) :
    ManagerSafe sessionId (recordLaunchFailure sessionId code failure : Managing α)
      (Kept sessionId) world l := by
  refine request_bind_kept rfl hinv trivial fun recordedAt t m _ hinv' hm => ?_
  refine request_bind_kept rfl hinv' trivial fun finishedAt t₁ m₁ _ hinv₁ hm₁ => ?_
  refine request_bind_kept rfl hinv₁ ⟨nofun, fun r state _ hsets => ?_⟩ fun _ t₂ m₂ _ hinv₂ _ => hinv₂
  obtain rfl := hsets.eq rfl rfl
  exact Or.inr ⟨rfl, Or.inr (hbegun.mono (hm.trans hm₁))⟩

theorem tryCatch_kept (hbegun : LaunchBegun l)
    (hx : ManagerSafe sessionId x (Kept sessionId) world l) :
    ManagerSafe sessionId (tryCatch x (recordLaunchFailure sessionId code)) (Kept sessionId)
      world l := by
  refine safe_tryCatch (Program.Safe.extending (List.prefix_refl l) (hx.mono ?_))
  intro r t m hinv hprefix
  cases r with
  | ok v => exact hinv
  | error e => exact recordLaunchFailure_kept (hbegun.mono hprefix) hinv

/-- `recordStarted`. -/
theorem recordStarted_kept {started : TsukaiAgentRunStartResult}
    (hcurrent : Current sessionId session world) (hinv : NoOverlap sessionId world)
    (hheld : OfAttempt sessionId session.restartCount started.snapshot)
    (hshown : Shown started.snapshot l) :
    ManagerSafe sessionId (recordStarted session started) (Kept sessionId) world l := by
  refine Ends.kept (Q := fun r t _ => Current sessionId r t) ?_
  refine request_bind_ends rfl (.refl world) hinv trivial fun now t m ht hinv' hm => ?_
  refine request_bind_ends rfl ht hinv' trivial fun recordedAt t₁ m₁ ht₁ hinv₁ hm₁ => ?_
  refine update_ends hcurrent
    (agentRunSessionPatch_restartCount session started.snapshot now recordedAt) ?_ ht₁ hinv₁
  exact fun state hsets => backed_agentRunSessionPatch (hshown.mono (hm.trans hm₁)) hheld hsets

/-- `admitPiExecution`. -/
theorem admitPiExecution_ends {base : World} (hbase : Steady base world)
    (hinv : NoOverlap sessionId world) :
    ManagerSafe sessionId admitPiExecution (Ends sessionId base fun _ _ _ => True) world l := by
  refine request_bind_ends rfl hbase hinv trivial fun result t m ht hinv' _ => ?_
  cases result with
  | ok manifest => exact .ok ht hinv' trivial
  | error messages => exact .error ht hinv'

theorem createAndBind_kept {input : TsukaiAgentRunStartInput} {workspace : RunWorkspace}
    (hcurrent : Current sessionId session world) (hinv : NoOverlap sessionId world)
    (hkey : input.startKey = attemptKey sessionId session.restartCount)
    (hno : some input.startKey ∉ startKeys world)
    (hreserved : world.correlations.select input.startKey ≠ none) :
    ManagerSafe sessionId (createAndBind input workspace) (fun r t m => match r with
      | .ok started => ManagerSafe sessionId (recordStarted session started) (Kept sessionId) t m
      | .error e => Kept sessionId (.error e : Except Failure ManagerSessionRecord) t m) world l := by
  obtain ⟨hid, r, hr, hcount⟩ := hcurrent
  have hmay : ∀ created : CreateRunInput, created.metadata.startKey = some input.startKey →
      MayCreate sessionId created world := by
    intro created hcreated
    rw [hkey, ← hcount] at hno hreserved hcreated
    exact ⟨r, hr, hcreated, hno, hreserved⟩
  refine createAndBind_safe (retrying_tolerates sessionId)
    (permits sessionId input.startKey).looks ?_ ?_ ?_ ?_ (.refl world) hinv
  · exact hmay
  · intro created before hcreated hbefore hinv'
    have hallowed : Allowed sessionId (.create created) before [] :=
      (hmay created hcreated).steady hbefore
    exact exec_noOverlap hinv' hallowed
  · exact fun e t m hinv' => hinv'
  · intro result before created t m hbefore hafter hinv' hheld hshown
    have hsession : (Operation.createRun before created).2.session = before.session :=
      Operation.exec_session (.create created) before rfl
    have hbeforeCurrent : Current sessionId session before :=
      Current.steady ⟨hid, r, hr, hcount⟩ hbefore
    have hcurrent' : Current sessionId session t := by
      refine Current.steady ?_ hafter
      rw [Current, hsession]
      exact hbeforeCurrent
    exact recordStarted_kept hcurrent' hinv' (hheld.1.trans (congrArg some hkey)) hshown

section

variable (hcurrent : Current sessionId session world)
include hcurrent

/-- `startAgentRun`. -/
theorem startAgentRun_kept (hinv : NoOverlap sessionId world) :
    ManagerSafe sessionId (startAgentRun options session) (Kept sessionId) world l := by
  refine kept_bind (admitPiExecution_ends (.refl world) hinv) fun manifest t m ht hinv₁ _ _ => ?_
  refine request_bind_kept rfl hinv₁ trivial fun _ t₁ m₁ ht₁ hinv₂ _ => ?_
  refine kept_bind (openTsukai_ends (.refl t₁) hinv₂) fun _ t₂ m₂ ht₂ hinv₃ _ _ => ?_
  refine request_bind_kept rfl hinv₃ trivial fun _ t₃ m₃ ht₃ hinv₄ _ => ?_
  have hcurrent₃ : Current sessionId session t₃ :=
    hcurrent.steady (((ht.trans ht₁).trans ht₂).trans ht₃)
  rw [ManagerSafe, run_lift_bind]
  cases hstart : tsukaiStartKey session.sessionId session.restartCount with
  | error e => exact hinv₄
  | ok startKey =>
    have hkey : startKey = attemptKey sessionId session.restartCount := by
      rw [tsukaiStartKey_ok hstart, hcurrent.1]
    refine safe_bind ?_
    refine startOnce_safe (retrying_tolerates sessionId) (permits sessionId startKey) ?_ ?_ ?_
      options.listPages (.refl t₃) hinv₄
    · exact fun e t m _ hinv' => hinv'
    · intro run t' m' ht' hinv' hheld hshown
      exact recordStarted_kept (hcurrent₃.steady ht') hinv' (hheld.1.trans (congrArg some hkey)) hshown
    · rintro workspace t' m' ht' hinv' ⟨earlier, hno, hearlier⟩ hreserved -
      have hno' : some startKey ∉ startKeys t' := by rwa [hearlier.startKeys]
      refine (createAndBind_kept (hcurrent₃.steady ht') hinv' hkey hno' hreserved).mono ?_
      intro r t'' m'' h
      cases r with
      | ok started => exact h
      | error e => exact h

/-- `retryAgentRun`. -/
theorem retryAgentRun_kept (hinv : NoOverlap sessionId world)
    (hterminal : AllTerminal sessionId world) :
    ManagerSafe sessionId (retryAgentRun options session) (Kept sessionId) world l := by
  refine request_bind_kept rfl hinv trivial fun manifest t m ht hinv₁ _ => ?_
  cases manifest with
  | none => exact hinv₁
  | some manifest =>
    refine request_bind_kept rfl hinv₁ trivial fun validation t₁ m₁ ht₁ hinv₂ _ => ?_
    cases validation with
    | some detail => exact hinv₂
    | none =>
      refine request_bind_kept rfl hinv₂ trivial fun _ t₂ m₂ ht₂ hinv₃ _ => ?_
      refine request_bind_kept rfl hinv₃ trivial fun recordedAt t₃ m₃ ht₃ hinv₄ _ => ?_
      have hsteady : Steady world t₃ := ((ht.trans ht₁).trans ht₂).trans ht₃
      obtain ⟨hid, r, hr, hcount⟩ := hcurrent.steady hsteady
      rw [hid]
      refine allowed_bind hinv₄ ⟨?_, fun r' state _ hsets => ?_⟩ fun before started after hupdated
        hafter hinv₅ => ?_
      · rintro count ⟨⟩
        exact ⟨r, hr, congrArg Nat.succ hcount.symm, hterminal.steady hsteady⟩
      · obtain rfl := hsets.eq rfl rfl
        trivial
      · have hstarted := current_of_updateRow
          (fun current => (retryPatch session recordedAt).apply current before.environment.clock)
          (fun _ => rfl) hupdated hafter
        refine tryCatch_kept ?_ (startAgentRun_kept hstarted hinv₅)
        exact ⟨_, List.mem_append_right _ (List.mem_singleton_self _), Option.some_ne_none _⟩

/-- All runs have ended when the one of the current attempt has, or was never created. -/
theorem allTerminal_of_evident {evidence : AgentRunEvidence} (hinv : NoOverlap sessionId world)
    (hevident : Evident sessionId session.restartCount evidence world l)
    (h : evidence = .absent ∨ ∃ snapshot, evidence = .held snapshot ∧ snapshot.lifecycle = .terminal) :
    AllTerminal sessionId world := by
  intro run hrun attempt hattempt
  obtain ⟨r, hr, hle, hearlier⟩ := hinv.counted run hrun attempt hattempt
  rw [hcurrent.count hr] at hle hearlier
  rcases Nat.lt_or_eq_of_le hle with hlt | rfl
  · exact hearlier hlt
  · rcases h with rfl | ⟨snapshot, rfl, hterminal⟩
    · have hmem : some (attemptKey sessionId session.restartCount) ∈ startKeys world :=
        List.mem_map.2 ⟨run, hrun, hattempt⟩
      exact absurd hmem hevident.1
    · obtain ⟨⟨hkey, run', hrun', hmoves⟩, -⟩ := hevident
      obtain rfl := hinv.single run hrun run' hrun' _ hattempt (hmoves.startKey.trans hkey)
      exact hmoves.terminal hterminal

/-- `restartAgentRun`. -/
theorem restartAgentRun_kept (hinv : NoOverlap sessionId world) :
    ManagerSafe sessionId (restartAgentRun options session) (Kept sessionId) world l := by
  refine kept_bind (reconcileAgentRunEvidence_ends hcurrent.1 (.refl world) hinv) ?_
  intro evidence t m ht hinv' _ hevident
  have hcurrent' := hcurrent.steady ht
  cases evidence with
  | unavailable reason => exact hinv'
  | absent =>
    exact retryAgentRun_kept hcurrent' hinv'
      (allTerminal_of_evident hcurrent' hinv' hevident (Or.inl rfl))
  | held snapshot =>
    dsimp only
    split_ifs with hlifecycle
    · exact hinv'
    · have hended : snapshot.lifecycle = .terminal := not_not.1 hlifecycle
      exact retryAgentRun_kept hcurrent' hinv'
        (allTerminal_of_evident hcurrent' hinv' hevident (Or.inr ⟨snapshot, rfl, hended⟩))

end

/-- `restartUnlocked`. -/
theorem restartUnlocked_kept (hinv : NoOverlap sessionId world) :
    ManagerSafe sessionId (restartUnlocked options sessionId) (Kept sessionId) world l := by
  refine kept_bind (get_ends (.refl world) hinv) fun current t m ht hinv' _ hcurrent => ?_
  split_ifs
  · exact hinv'
  · exact hinv'
  · exact request_bind_kept rfl hinv' trivial fun _ t₁ m₁ ht₁ hinv₁ _ =>
      restartAgentRun_kept (hcurrent.steady ht₁) hinv₁

/-- `continueWork`. -/
theorem continueWork_kept {followUp : String} (hinv : NoOverlap sessionId world) :
    ManagerSafe sessionId (continueWork options sessionId followUp) (Kept sessionId) world l := by
  unfold continueWork
  rw [ManagerSafe, run_lift_bind]
  cases validateInstruction followUp with
  | error e => exact hinv
  | ok followUp =>
    refine kept_bind (get_ends (.refl world) hinv) fun current t m ht hinv' _ hcurrent => ?_
    split_ifs
    · exact hinv'
    · refine kept_bind (stopBeforeContinue_ends hcurrent (.refl t) hinv') ?_
      intro current t₁ m₁ ht₁ hinv₁ _ hcurrent₁
      rw [ManagerSafe, run_lift_bind]
      cases validateInstruction _ with
      | error e => exact hinv₁
      | ok instruction =>
        refine request_bind_kept rfl hinv₁ trivial fun piGuardPath t₂ m₂ ht₂ hinv₂ _ => ?_
        refine request_bind_kept rfl hinv₂ trivial fun recordedAt t₃ m₃ ht₃ hinv₃ _ => ?_
        refine request_bind_kept rfl hinv₃ ?_ fun _ t₄ m₄ _ hinv₄ _ => restartUnlocked_kept hinv₄
        refine mayUpdate (hcurrent₁.steady (ht₂.trans ht₃)) rfl ?_
        rintro state (h | h) <;> cases h
    · exact hinv'

/-- `launch`. -/
theorem launch_kept (hbegun : LaunchBegun l) (hinv : NoOverlap sessionId world) :
    ManagerSafe sessionId (launch options sessionId) (Kept sessionId) world l := by
  refine request_bind_kept rfl hinv trivial fun validation t m ht hinv₁ hm => ?_
  cases validation with
  | some detail =>
    refine request_bind_kept rfl hinv₁ trivial fun recordedAt t₁ m₁ _ hinv₂ hm₁ => ?_
    refine request_bind_kept rfl hinv₂ trivial fun finishedAt t₂ m₂ _ hinv₃ hm₂ => ?_
    refine request_bind_kept rfl hinv₃ ⟨nofun, fun r state _ hsets => ?_⟩
      fun _ t₃ m₃ _ hinv₄ _ => hinv₄
    obtain rfl := hsets.eq rfl rfl
    exact Or.inr ⟨rfl, Or.inr (hbegun.mono ((hm.trans hm₁).trans hm₂))⟩
  | none =>
    refine tryCatch_kept (hbegun.mono hm) ?_
    have hread : steady (.getManagerSession sessionId) = true := rfl
    refine kept_bind (request_ends hread (.refl t) hinv₁ trivial) ?_
    rintro session t₁ m₁ ht₁ hinv₂ - ⟨before, -, hanswer, hafter, -⟩
    have hrow : Operation.row before sessionId = session := Except.ok.inj hanswer
    cases session with
    | none => exact hinv₂
    | some session =>
      obtain ⟨hsession, hid⟩ := row_eq_some.1 hrow
      exact startAgentRun_kept (Current.steady ⟨hid, session, hsession, rfl⟩ hafter) hinv₂

/-- `start`. -/
theorem start_kept {input : NewManagerSessionInput} (hinv : NoOverlap sessionId world) :
    ManagerSafe sessionId (start options sessionId input) (Kept sessionId) world l := by
  unfold start
  rw [ManagerSafe, run_lift_bind]
  cases validateInstruction input.instruction with
  | error e => exact hinv
  | ok instruction =>
    refine request_bind_kept rfl hinv trivial fun _ t m _ hinv₁ _ => ?_
    refine request_bind_kept rfl hinv₁ trivial fun piGuardPath t₁ m₁ _ hinv₂ _ => ?_
    refine request_bind_kept rfl hinv₂ trivial fun execution t₂ m₂ _ hinv₃ _ => ?_
    refine allowed_bind hinv₃ rfl fun before _ after _ _ hinv₄ => ?_
    exact launch_kept ⟨_, List.mem_append_right _ (List.mem_singleton_self _), trivial⟩ hinv₄

theorem ManagerCall.program_kept (call : ManagerCall) (hinv : NoOverlap sessionId world) :
    (call.program options sessionId).Safe Operation.outcomes (retrying sessionId)
      (Allowed sessionId) (Kept sessionId) world [] := by
  have hsome : ∀ {x : Managing ManagerSessionRecord}, ManagerSafe sessionId x (Kept sessionId) world [] →
      ManagerSafe sessionId (some <$> x) (Kept sessionId) world [] := by
    intro x hx
    rw [← bind_pure_comp]
    refine safe_bind (hx.mono fun r t m h => ?_)
    cases r with
    | ok v => exact h
    | error e => exact h
  cases call with
  | boot => exact request_bind_kept rfl hinv trivial fun _ t m _ hinv' _ => hinv'
  | start input => exact hsome (start_kept hinv)
  | get => exact hsome (Ends.kept (get_ends (.refl world) hinv))
  | steer directive => exact hsome (Ends.kept (steer_ends (.refl world) hinv))
  | stop => exact hsome (Ends.kept (stopUnlocked_ends (.refl world) hinv))
  | restart => exact hsome (restartUnlocked_kept hinv)
  | continueWork followUp => exact hsome (continueWork_kept hinv)

end Launch

section Runs

abbrev ManagerEvent : Type :=
  Event ManagerCall Operation (fun operation => Except Failure operation.Value)
    (Except Failure (Option ManagerSessionRecord))

abbrev ManagerConfig : Type :=
  Config World ManagerCall Operation (fun operation => Except Failure operation.Value)
    (Except Failure (Option ManagerSessionRecord))

variable {options : ManagerOptions} {sessionId : String} {world : World}
variable {k k' : ManagerConfig} {es es' : List ManagerEvent} {e : ManagerEvent} {p : ℕ}

/-- The session has not been started; other sessions may have runs. -/
structure Fresh (sessionId : String) (world : World) : Prop where
  session : world.session = none
  runs : ∀ attempt, some (attemptKey sessionId attempt) ∉ startKeys world

theorem Fresh.noOverlap (h : Fresh sessionId world) : NoOverlap sessionId world := by
  have hno : ∀ run ∈ world.tsukai.runs, ∀ attempt, ¬ OfAttempt sessionId attempt run :=
    fun run hrun attempt hattempt => h.runs attempt (List.mem_map.2 ⟨run, hrun, hattempt⟩)
  refine ⟨fun r hr => ?_, fun run hrun n hn => absurd hn (hno run hrun n),
    fun run hrun n hn => absurd hn (hno run hrun n),
    fun run hrun _ _ n hn => absurd hn (hno run hrun n)⟩
  rw [h.session] at hr
  cases hr

theorem covers_of_single (hone : ∀ e ∈ es, e.process = p) : (retrying sessionId).Covers es :=
  Or.inr ⟨p, hone⟩

theorem single_append (hone : ∀ e ∈ es, e.process = p) (hone' : ∀ e ∈ es', e.process = p) :
    ∀ e ∈ es ++ es', e.process = p := by
  intro e he
  rcases List.mem_append.1 he with he | he
  · exact hone e he
  · exact hone' e he

theorem run_noOverlap (hfresh : Fresh sessionId world)
    (h : Run (ManagerCall.program options sessionId) Operation.outcomes (.idle world) es k)
    (hone : ∀ e ∈ es, e.process = p) : NoOverlap sessionId k.shared :=
  (h.meets (fun _ => rfl) hfresh.noOverlap (fun call _ hinv => call.program_kept hinv)
    (covers_of_single hone)).inv

section

variable (h : Run (ManagerCall.program options sessionId) Operation.outcomes (.idle world) es k)
include h

theorem exists_run_of_created {startKey agentRunId : String}
    (hid : agentRunId ∈ created startKey es) :
    ∃ run ∈ k.shared.tsukai.runs, run.agentRunId = agentRunId ∧
      run.metadata.startKey = some startKey := by
  obtain ⟨run, hrun, rfl⟩ := List.mem_map.1 hid
  obtain ⟨hrun, hkey⟩ := List.mem_filter.1 hrun
  have hmem : run.identity ∈ k.shared.tsukai.runs.map RunSnapshot.identity := by
    rw [run_identities h]
    exact List.mem_append_right _ (List.mem_map_of_mem hrun)
  obtain ⟨run', hrun', hidentity⟩ := List.mem_map.1 hmem
  obtain ⟨hsame, hmetadata⟩ := Prod.mk.inj hidentity
  exact ⟨run', hrun', hsame, by rw [hmetadata]; exact of_decide_eq_true hkey⟩

theorem nodup_created (startKey : String) : (created startKey es).Nodup := by
  have hnodup := k.shared.tsukai.agentRunId_unique
  have hids : k.shared.tsukai.runs.map (·.agentRunId) =
      (k.shared.tsukai.runs.map RunSnapshot.identity).map Prod.fst := by
    simp [RunSnapshot.identity]
  rw [hids, run_identities h, List.map_append] at hnodup
  have hcreated := hnodup.of_append_right
  rw [List.map_map] at hcreated
  exact hcreated.sublist (List.filter_sublist.map _)

end

theorem length_created_le (hfresh : Fresh sessionId world)
    (h : Run (ManagerCall.program options sessionId) Operation.outcomes (.idle world) es k)
    (hone : ∀ e ∈ es, e.process = p) (attempt : ℕ) :
    (created (attemptKey sessionId attempt) es).length ≤ 1 := by
  rw [← List.toFinset_card_of_nodup (nodup_created h _), Finset.card_le_one]
  intro id hid id' hid'
  obtain ⟨run, hrun, rfl, hattempt⟩ := exists_run_of_created h (List.mem_toFinset.1 hid)
  obtain ⟨run', hrun', rfl, hattempt'⟩ := exists_run_of_created h (List.mem_toFinset.1 hid')
  have hinv := run_noOverlap hfresh h hone
  rw [hinv.single run hrun run' hrun' attempt hattempt hattempt']

theorem earlier_terminal_of_create (hfresh : Fresh sessionId world)
    (h : Run (ManagerCall.program options sessionId) Operation.outcomes (.idle world) es k)
    (hone : ∀ e ∈ es, e.process = p) {c : ManagerCall} {input : CreateRunInput} {run : RunSnapshot}
    (hstep : Step (ManagerCall.program options sessionId) Operation.outcomes k
      (.exec p c (.create input) (.ok run)) k') :
    ∃ r, k.shared.session = some r ∧ OfAttempt sessionId r.restartCount run ∧
      ∀ earlier < r.restartCount, ∀ run' ∈ k.shared.tsukai.runs,
        OfAttempt sessionId earlier run' → run'.lifecycle = .terminal := by
  obtain ⟨hinv, -, -, -, -, r, hr, hkey, hno, -⟩ := h.step_allowed hstep (fun _ => rfl)
    hfresh.noOverlap (fun call _ hinv => call.program_kept hinv) (covers_of_single hone)
  refine ⟨r, hr, (congrArg RunMetadata.startKey (created_metadata hstep)).trans hkey,
    fun earlier hearlier run' hrun' hattempt => ?_⟩
  obtain ⟨r', hr', -, hterminal⟩ := NoOverlap.counted hinv run' hrun' earlier hattempt
  obtain rfl := Option.some.inj (hr.symm.trans hr')
  exact hterminal hearlier

theorem restartCount_mono (hfresh : Fresh sessionId world)
    (h : Run (ManagerCall.program options sessionId) Operation.outcomes (.idle world) es k)
    (h' : Run (ManagerCall.program options sessionId) Operation.outcomes k es' k')
    (hone : ∀ e ∈ es ++ es', e.process = p) : Advances k.shared k'.shared :=
  h.guaranteed h' (fun _ => rfl) hfresh.noOverlap (fun call _ hinv => call.program_kept hinv)
    (covers_of_single hone) Advances.trans

/-- A step has given the record a lifecycle or a runtime state that it did not have. -/
def Becomes (state : ManagerSessionLifecycleState) (world world' : World)
    (record : ManagerSessionRecord) : Prop :=
  world'.session = some record ∧
    ((record.lifecycleState = state ∧ ∀ r, world.session = some r → r.lifecycleState ≠ state) ∨
      (record.runtimeState = state.runtimeState ∧
        ∀ r, world.session = some r → r.runtimeState ≠ state.runtimeState))

variable {state : ManagerSessionLifecycleState} {record : ManagerSessionRecord}

theorem not_becomes_of_eq {world' : World} (h : world'.session = world.session) :
    ¬ Becomes state world world' record := by
  rintro ⟨hrecord, ⟨hstate, hnew⟩ | ⟨hstate, hnew⟩⟩
  · exact hnew record (h.symm.trans hrecord) hstate
  · exact hnew record (h.symm.trans hrecord) hstate

theorem sets_of_becomes {operation : Operation} (hstate : state ≠ .starting)
    (h : Becomes state world (operation.exec world).2 record) :
    ∃ id input r, operation = .updateManagerSession id input ∧ Sets input state ∧
      world.session = some r ∧ record.restartCount = input.restartCount.getD r.restartCount := by
  by_cases hwrites : operation.writesSession = false
  · exact absurd h (not_becomes_of_eq (operation.exec_session world hwrites))
  · cases operation with
    | insertManagerSession input =>
      rcases Operation.insertRow_cases world input with ⟨e, heq⟩ | ⟨hnone, heq⟩
      · rw [Operation.exec, heq] at h
        exact absurd h (not_becomes_of_eq rfl)
      · rw [Operation.exec, heq] at h
        obtain ⟨hrecord, hnew⟩ := h
        cases hrecord
        rcases hnew with ⟨hnew, -⟩ | ⟨hnew, -⟩
        · exact absurd hnew.symm hstate
        · have hstarting : state.runtimeState = ManagerSessionLifecycleState.starting.runtimeState :=
            hnew.symm
          exact absurd (runtimeState_injective hstarting) hstate
    | updateManagerSession id input =>
      rcases Operation.updateRow_cases world id _ with ⟨e, heq⟩ | ⟨r, hrow, heq⟩
      · rw [Operation.exec, heq] at h
        exact absurd h (not_becomes_of_eq rfl)
      · rw [Operation.exec, heq] at h
        have hr := (row_eq_some.1 hrow).1
        obtain ⟨hrecord, hnew⟩ := h
        cases hrecord
        refine ⟨id, input, r, rfl, ?_, hr, rfl⟩
        rcases hnew with ⟨hset, hnew⟩ | ⟨hset, hnew⟩
        · cases hlifecycle : input.lifecycleState with
          | none =>
            simp only [UpdateManagerSessionInput.apply, hlifecycle, Option.getD_none] at hset
            exact absurd hset (hnew r hr)
          | some state' =>
            simp only [UpdateManagerSessionInput.apply, hlifecycle, Option.getD_some] at hset
            exact Or.inl (hlifecycle.trans (congrArg some hset))
        · cases hruntime : input.runtimeState with
          | none =>
            simp only [UpdateManagerSessionInput.apply, hruntime, Option.getD_none] at hset
            exact absurd hset (hnew r hr)
          | some state' =>
            simp only [UpdateManagerSessionInput.apply, hruntime, Option.getD_some] at hset
            exact Or.inr (hruntime.trans (congrArg some hset))
    | checkpointRuntimeObservedAt id observedAt =>
      rcases Operation.updateRow_cases world id _ with ⟨e, heq⟩ | ⟨r, hrow, heq⟩
      · rw [Operation.exec, heq] at h
        exact absurd h (not_becomes_of_eq rfl)
      · rw [Operation.exec, heq] at h
        have hr := (row_eq_some.1 hrow).1
        obtain ⟨hrecord, hnew⟩ := h
        cases hrecord
        rcases hnew with ⟨hset, hnew⟩ | ⟨hset, hnew⟩
        · exact absurd hset (hnew r hr)
        · exact absurd hset (hnew r hr)
    | _ => exact absurd rfl hwrites

theorem backed_of_becomes (hfresh : Fresh sessionId world)
    (h : Run (ManagerCall.program options sessionId) Operation.outcomes (.idle world) es k)
    (hone : ∀ e ∈ es, e.process = p)
    (hstep : Step (ManagerCall.program options sessionId) Operation.outcomes k e k')
    (hstate : state ≠ .starting) (hbecomes : Becomes state k.shared k'.shared record) :
    ∃ c before since, es = before ++ .invoke e.process c :: since ∧
      Uninterrupted e.process c since ∧
      Backed sessionId record.restartCount (answers e.process since) state := by
  have hallowed := hstep
  cases hstep with
  | invoke => exact absurd hbecomes (not_becomes_of_eq rfl)
  | response => exact absurd hbecomes (not_becomes_of_eq rfl)
  | crash => exact absurd hbecomes (not_becomes_of_eq rfl)
  | @exec q c operation next r s' at_call outcome =>
    obtain ⟨between, hmoves, heq | ⟨-, rfl⟩⟩ := outcome
    · obtain ⟨hr, rfl⟩ := Prod.mk.inj heq
      have hbetween : Becomes state between (operation.exec between).2 record := by
        obtain ⟨hrecord, hnew⟩ := hbecomes
        refine ⟨hrecord, ?_⟩
        rw [hmoves.session]
        exact hnew
      obtain ⟨id, input, row, rfl, hsets, hrow, hcount⟩ := sets_of_becomes hstate hbetween
      obtain ⟨-, before, since, hes, honly, hmay⟩ := h.step_allowed hallowed (fun _ => rfl)
        hfresh.noOverlap (fun call _ hinv => call.program_kept hinv) (covers_of_single hone)
      refine ⟨c, before, since, hes, honly, ?_⟩
      rw [hcount]
      exact MayUpdate.backed hmay row state (hmoves.session.symm.trans hrow) hsets
    · exact absurd hbecomes (not_becomes_of_eq hmoves.session)

end Runs

section Schedules

def piOptions : ManagerOptions := ⟨"pi", [], 2⟩

def admittingEnvironment : Environment where
  clock := 10
  acceptances := twoAcceptances.acceptances
  cancelled := { lifecycle := .terminal, semantic := "ended", activity := "idle", outcome := some .cancelled }
  observation := { semanticLifecycleState := .task .active }
  validation := none
  admission := .ok ⟨⟨.nawabari, .attached, some ⟨"workspace-1", "/worktree"⟩⟩, some "session-1"⟩
  startedExecution := { taskId := some "task-1", semanticLifecycleState := .task .active }
  piGuardPath := "/guard.ts"

/-- Tsukai cannot be reached when a session is started. -/
def unreachableStart : List (Move ManagerCall Failure) :=
  .invoke 0 (.start ⟨"task", none, none⟩) :: List.replicate 9 (.exec 0) ++
    .fail 0 (.error "connection refused") :: List.replicate 3 (.exec 0) ++ [.respond 0]

/-- The answer says nothing of a run. -/
def silent : (operation : Operation) × Except Failure operation.Value → Bool
  | ⟨.list _ _, _⟩ | ⟨.get _, _⟩ | ⟨.create _, _⟩ | ⟨.cancel _, _⟩ | ⟨.store _, _⟩ => false
  | _ => true

def stoppedRetry : List (Move ManagerCall Failure) :=
  .invoke 0 (.start ⟨"task", none, none⟩) :: List.replicate 22 (.exec 0) ++
    .respond 0 :: .invoke 0 .stop :: List.replicate 15 (.exec 0) ++
    .respond 0 :: .invoke 0 .restart :: List.replicate 31 (.exec 0) ++ [.respond 0]

end Schedules

end Mottainai.ManagerAgentRuns
