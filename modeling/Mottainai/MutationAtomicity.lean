import Mottainai.MutationProtection

/-!
# Atomicity of mutations

A mutation changes declared collections, and of the relations only declared ones. A call of `apply`
either leaves the current snapshot as it is, or puts a valid candidate in its place that has the
same undeclared content. If the snapshot has changed since the plan was made, `apply` calls itself
with a plan of the current snapshot, and never a second time. A plan that differs from the one that
the service builds is refused.
-/

namespace Mottainai.Semantics

open JsonValues JavaScriptValues

section Frame

def declaredCollections : List Collection := [.components, .capabilities, .contracts, .invariants,
  .decisions, .rationales, .constraints, .effectPolicies, .dependencyPolicies, .reviewGuidance,
  .stability, .terminology, .decisionLinks, .symbolOwnership, .semanticDebt]

def isUndeclared (relation : JsonValue) : Bool := textMember relation "authority" != "declared"

structure DeclaredFrame (s s' : RepositorySemanticSnapshot) : Prop where
  others : s' = { s with collections := s'.collections }
  collections : ∀ c ∉ declaredCollections, c ≠ .relations → s'.collections c = s.collections c
  relations : (s'.list .relations).filter isUndeclared = (s.list .relations).filter isUndeclared

variable {s s' s'' : RepositorySemanticSnapshot} {resolver : SymbolBindingResolver}

theorem DeclaredFrame.refl (s : RepositorySemanticSnapshot) : DeclaredFrame s s :=
  ⟨rfl, fun _ _ _ => rfl, rfl⟩

theorem DeclaredFrame.trans (h : DeclaredFrame s s') (h' : DeclaredFrame s' s'') :
    DeclaredFrame s s'' where
  others := by
    rw [h'.others, h.others]
  collections c hc hrelations := (h'.collections c hc hrelations).trans (h.collections c hc hrelations)
  relations := h'.relations.trans h.relations

theorem declaredFrame_withList {c : Collection} (hc : c ∈ declaredCollections) (items : List JsonValue) :
    DeclaredFrame s (s.withList c items) where
  others := rfl
  collections c' hc' _ := by
    have hne : c' ≠ c := fun heq => hc' (heq ▸ hc)
    exact Function.update_of_ne hne _ _
  relations := by
    have hne : Collection.relations ≠ c := by
      rintro rfl
      exact absurd hc (by decide)
    rw [list_withList_other hne]

variable {relations : List JsonValue} {applied : Applied}

theorem declaredFrame_relations
    (h : relations.filter isUndeclared = (s.list .relations).filter isUndeclared) :
    DeclaredFrame s (s.withList .relations relations) where
  others := rfl
  collections c _ hc := Function.update_of_ne hc _ _
  relations := by rw [list_withList_same, h]

theorem ownershipRelation_declared {kind source target : String} {relation : JsonValue}
    (h : ownershipRelation s kind source target = .ok relation) : isUndeclared relation = false := by
  obtain ⟨edge, -, hrelation⟩ := bind_eq_ok.1 h
  cases hrelation
  rfl

theorem ownershipRelations_declared {kind target : String} {owners : List String}
    (h : owners.mapM (fun owner => ownershipRelation s kind owner target) = .ok relations) :
    relations.filter isUndeclared = [] := by
  induction owners generalizing relations with
  | nil =>
    cases h
    rfl
  | cons owner owners ih =>
    rw [List.mapM_cons] at h
    obtain ⟨first, hfirst, h⟩ := bind_eq_ok.1 h
    obtain ⟨others, hothers, h⟩ := bind_eq_ok.1 h
    cases h
    rw [List.filter_cons_of_neg (by simp [ownershipRelation_declared hfirst]), ih hothers]

theorem retained_undeclared (symbolId : String) (relations : List JsonValue) :
    (relations.filter fun relation => !isOwnershipOf symbolId relation).filter isUndeclared =
      relations.filter isUndeclared := by
  rw [List.filter_filter]
  refine List.filter_congr fun relation _ => ?_
  by_cases hdeclared : isUndeclared relation = true
  · have howner : isOwnershipOf symbolId relation = false := by
      have hauthority : ¬ textMember relation "authority" = "declared" := bne_iff_ne.1 hdeclared
      simp [isOwnershipOf, hauthority]
    rw [hdeclared, howner]
    rfl
  · rw [Bool.not_eq_true] at hdeclared
    rw [hdeclared, Bool.false_and]

theorem applyOwnership_frame {selector : SymbolSelector} {ownership : SymbolOwnershipInput}
    (h : applyOwnership s selector ownership resolver = .ok applied) :
    DeclaredFrame s applied.snapshot := by
  unfold applyOwnership at h
  cases hresolved : resolveSymbol s selector resolver with
  | mk symbol rest =>
    obtain ⟨resolution, diagnostics⟩ := rest
    rw [hresolved] at h
    cases symbol with
    | none =>
      cases h
      exact .refl s
    | some symbol =>
      dsimp only at h
      split at h
      · cases h
        exact .refl s
      · obtain ⟨declared, -, h⟩ := bind_eq_ok.1 h
        obtain ⟨relations, hrelations, h⟩ := bind_eq_ok.1 h
        cases h
        refine (declaredFrame_withList (c := .symbolOwnership) (by decide) _).trans
          (declaredFrame_relations ?_)
        rw [List.filter_append, retained_undeclared, ownershipRelations_declared hrelations,
          List.append_nil, list_withList_other (by decide)]

/-- The step lemma. -/
theorem applyMutation_frame {mutation : SemanticMutation}
    (h : applyMutation s mutation resolver = .ok applied) : DeclaredFrame s applied.snapshot := by
  cases mutation with
  | symbolOwnership selector ownership => exact applyOwnership_frame h
  | component value | capability value | contract value | invariant value | rationale value
  | constraint value | decision value | decisionLink value | effectPolicy value
  | dependencyPolicy value | reviewGuidance value | stability value | terminology value
  | semanticDebt value =>
    cases h
    exact declaredFrame_withList (by decide) _

/-- The run lemma. -/
theorem foldlM_frame {mutations : List SemanticMutation} {progress progress' : Progress}
    (h : mutations.foldlM (applyNext resolver) progress = .ok progress') :
    DeclaredFrame progress.candidate progress'.candidate := by
  induction mutations generalizing progress with
  | nil =>
    cases h
    exact .refl _
  | cons mutation mutations ih =>
    rw [List.foldlM_cons] at h
    obtain ⟨next, hnext, h⟩ := bind_eq_ok.1 h
    obtain ⟨applied, happlied, hnext⟩ := bind_eq_ok.1 hnext
    cases hnext
    exact (applyMutation_frame happlied).trans (ih h)

end Frame

section Content

def undeclaredRelations (s : RepositorySemanticSnapshot) : List JsonValue :=
  ((s.list .relations).filter isUndeclared).map inKeyOrder

/-- The derived, observed and analysed content is the same up to the order of keys, and so are the
undeclared relations, in some order. -/
structure SameUndeclared (s s' : RepositorySemanticSnapshot) : Prop where
  derived : inKeyOrder (derivedJson s') = inKeyOrder (derivedJson s)
  observed : inKeyOrder (observedJson s') = inKeyOrder (observedJson s)
  analysis : inKeyOrder (analysisJson s') = inKeyOrder (analysisJson s)
  relations : (undeclaredRelations s').Perm (undeclaredRelations s)

variable {s s' s'' : RepositorySemanticSnapshot}

theorem SameUndeclared.trans (h : SameUndeclared s s') (h' : SameUndeclared s' s'') :
    SameUndeclared s s'' :=
  ⟨h'.derived.trans h.derived, h'.observed.trans h.observed, h'.analysis.trans h.analysis,
    h'.relations.trans h.relations⟩

theorem isUndeclared_canon (v : JsonValue) :
    isUndeclared (canonicalizeRelation.canon v) = isUndeclared v := by
  have hauthority : textMember (canonicalizeRelation.canon v) "authority" =
      textMember v "authority" := textMember_provenanceOf (by decide) v
  rw [isUndeclared, hauthority]
  rfl

theorem collections_canon (s : RepositorySemanticSnapshot) (c : Collection) :
    (canonicalizeSnapshot.canon s).collections c =
      (s.collections c).map (canonicalizeCollection c).canon := rfl

/-- A collection of a canonical form that is the same in another snapshot is the same in its canonical
form. -/
theorem collections_canon_of_eq {c : Collection}
    (h : s'.collections c = (canonicalizeSnapshot.canon s).collections c) :
    (canonicalizeSnapshot.canon s').collections c = (canonicalizeSnapshot.canon s).collections c := by
  rw [collections_canon, h, collections_canon, Option.map_map]
  exact congrArg (fun f => Option.map f (s.collections c))
    (funext (canonicalizeCollection c).canon_canon)

theorem undeclaredRelations_canon
    (h : (s'.list .relations).filter isUndeclared =
      ((canonicalizeSnapshot.canon s).list .relations).filter isUndeclared) :
    (undeclaredRelations (canonicalizeSnapshot.canon s')).Perm
      (undeclaredRelations (canonicalizeSnapshot.canon s)) := by
  refine List.Perm.map _ ?_
  have hfilter : (((s'.list .relations).map canonicalizeRelation.canon).filter isUndeclared) =
      ((canonicalizeSnapshot.canon s).list .relations).filter isUndeclared := by
    have hundeclared : isUndeclared ∘ canonicalizeRelation.canon = isUndeclared :=
      funext isUndeclared_canon
    rw [List.filter_map, hundeclared, h]
    conv_rhs => rw [← List.map_id (List.filter _ _)]
    refine List.map_congr_left fun v hv => ?_
    obtain ⟨w, -, rfl⟩ := mem_canon (List.mem_of_mem_filter hv)
    exact (canonicalizeItem .relations).canon_canon w
  exact (((relisted_canon s').list .relations).filter _).trans (List.Perm.of_eq hfilter)

/-- The frame of mutations, for canonical forms. -/
theorem DeclaredFrame.canon (h : DeclaredFrame (canonicalizeSnapshot.canon s) s')
    {integrity : RepositoryIntegrity} : SameUndeclared (canonicalizeSnapshot.canon s)
      (canonicalizeSnapshot.canon { s' with integrity := integrity }) := by
  have hcollections : ∀ c ∉ declaredCollections, c ≠ .relations →
      (canonicalizeSnapshot.canon { s' with integrity := integrity }).collections c =
        (canonicalizeSnapshot.canon s).collections c :=
    fun c hc hrelations => collections_canon_of_eq (h.collections c hc hrelations)
  have harray : ∀ c ∉ declaredCollections, c ≠ .relations →
      arrayOf (canonicalizeSnapshot.canon { s' with integrity := integrity }) c =
        arrayOf (canonicalizeSnapshot.canon s) c := by
    intro c hc hrelations
    rw [arrayOf, hcollections c hc hrelations]
    rfl
  have hhealth : s'.health = s.health := by
    rw [h.others]
    rfl
  have hreviewLevel : s'.reviewLevel = s.reviewLevel := by
    rw [h.others]
    rfl
  have hversion : s'.deltaVersion = s.deltaVersion := by
    rw [h.others]
    rfl
  have hintent : s'.deltaIntent = s.deltaIntent := by
    rw [h.others]
    rfl
  have hunauthorized : s'.deltaUnauthorized = s.deltaUnauthorized := by
    rw [h.others]
    rfl
  have hauthority : s'.verificationAuthority = s.verificationAuthority := by
    rw [h.others]
    rfl
  refine ⟨congrArg inKeyOrder ?_, congrArg inKeyOrder ?_, congrArg inKeyOrder ?_,
    undeclaredRelations_canon h.relations⟩
  · simp only [derivedJson, harray .files (by decide) (by decide),
      harray .symbols (by decide) (by decide), harray .packages (by decide) (by decide),
      harray .externalDependencies (by decide) (by decide),
      harray .externalApis (by decide) (by decide), harray .derivedFacts (by decide) (by decide),
      harray .derivedRequirements (by decide) (by decide)]
  · simp only [observedJson, harray .evidences (by decide) (by decide),
      harray .tests (by decide) (by decide), harray .observedFacts (by decide) (by decide),
      harray .verificationEvidence (by decide) (by decide)]
  · simp only [analysisJson, harray .deltaEntries (by decide) (by decide),
      harray .analysisFacts (by decide) (by decide), harray .claims (by decide) (by decide),
      harray .unknowns (by decide) (by decide),
      harray .recommendedSourceReads (by decide) (by decide),
      harray .diagnostics (by decide) (by decide), harray .assessments (by decide) (by decide),
      harray .summaries (by decide) (by decide), harray .inferredRequirements (by decide) (by decide)]
    change objectOf [("health", some s'.health), ("reviewLevel", some s'.reviewLevel),
      ("semanticDelta", some (objectOf [("version", some s'.deltaVersion),
        ("intent", some s'.deltaIntent), _, ("unauthorized", some s'.deltaUnauthorized)])),
      _, _, _, _, _, ("verification", s'.verificationAuthority.map _)] = _
    rw [hhealth, hreviewLevel, hversion, hintent, hunauthorized, hauthority]
    rfl

end Content

section Digested

def digestedJson (s : RepositorySemanticSnapshot) : JsonValue :=
  let canonical := canonicalizeSnapshot.canon s
  objectOf ([("schemaVersion", some canonical.schemaVersion),
    ("modelVersion", some canonical.modelVersion),
    ("repositoryIdentity", some canonical.repositoryIdentity),
    ("revisionIdentity", canonical.revisionIdentity),
    ("declarations", some (declarationsJson canonical)),
    ("derived", some (derivedJson canonical)), ("observed", some (observedJson canonical)),
    ("analysis", some (analysisJson canonical)), ("graph", some (graphJson canonical)),
    ("integrity", some (undigestedIntegrityJson canonical))])

variable {s s' : RepositorySemanticSnapshot} {sha256 : String → String}
  {properties : List (String × Option JsonValue)} {name : String} {value : JsonValue}

theorem plain_objectOf (hnodup : (properties.map Prod.fst).Nodup)
    (h : ∀ entry ∈ properties, entry.2.all JsonValue.plain = true) :
    (objectOf properties).plain = true := by
  refine plain_object.2 ⟨?_, fun entry hentry => ?_⟩
  · refine hnodup.sublist ?_
    clear hnodup h
    induction properties with
    | nil => exact List.Sublist.refl _
    | cons entry properties ih =>
      obtain ⟨key, value⟩ := entry
      cases value with
      | none => exact ih.cons key
      | some value => exact ih.cons_cons key
  · obtain ⟨⟨key, value⟩, hmem, hvalue⟩ := List.mem_filterMap.1 hentry
    obtain ⟨v, hv, rfl⟩ := Option.map_eq_some_iff.1 hvalue
    have hplain := h _ hmem
    dsimp only at hv hplain
    rw [hv] at hplain
    exact hplain

theorem member_objectOf (hnodup : (properties.map Prod.fst).Nodup)
    (h : (name, some value) ∈ properties) : member (objectOf properties) name = value := by
  have hmember : property (properties.filterMap fun entry =>
      entry.2.map fun value => (entry.1, value)) name = some value := by
    induction properties with
    | nil => cases h
    | cons entry properties ih =>
      obtain ⟨key, entryValue⟩ := entry
      rw [List.map_cons, List.nodup_cons] at hnodup
      rcases List.mem_cons.1 h with heq | hmem
      · cases heq
        simp [property]
      · have hname : name ∈ properties.map Prod.fst := List.mem_map.2 ⟨_, hmem, rfl⟩
        have hne : ¬ key = name := fun heq => hnodup.1 (heq ▸ hname)
        have hrest := ih hnodup.2 hmem
        cases entryValue with
        | none => exact hrest
        | some v =>
          simp only [property] at hrest ⊢
          rw [List.filterMap_cons, Option.map_some]
          dsimp only
          rw [List.find?_cons_of_neg (by simpa using hne)]
          exact hrest
  rw [member]
  exact congrArg (Option.getD · .null) hmember

section

variable (h : wellFormed s = true)
include h

theorem plain_items (c : Collection) : ∀ item ∈ s.list c, item.plain = true := by
  intro item hitem
  rw [wellFormed, Bool.and_eq_true] at h
  have hcollection := List.all_eq_true.1 h.2 c (mem_allCollections c)
  exact plain_of_wellFormed item (List.all_eq_true.1 hcollection item hitem)

theorem plain_arrayOf (c : Collection) : (arrayOf s c).all JsonValue.plain = true := by
  have hitems := plain_items h c
  rw [RepositorySemanticSnapshot.list] at hitems
  rw [arrayOf]
  cases hcollection : s.collections c with
  | none => rfl
  | some items =>
    rw [hcollection] at hitems
    exact plain_array.2 hitems

theorem plain_values : ∀ v ∈ [s.schemaVersion, s.modelVersion,
    s.repositoryIdentity, s.project, s.commentPolicy, s.health, s.reviewLevel, s.deltaVersion,
    s.deltaIntent, s.deltaUnauthorized, s.integrity.repositoryId, s.integrity.worktree,
    s.integrity.schemaVersion, s.integrity.semanticStateDigest, s.integrity.modelDigest,
    s.integrity.snapshotDigest, s.integrity.status] ++ s.revisionIdentity.toList ++
    s.verificationAuthority.toList ++ s.integrity.git.toList ++ s.integrity.statusReason.toList,
    v.plain = true := by
  rw [wellFormed, Bool.and_eq_true, List.all_eq_true] at h
  exact fun v hv => plain_of_wellFormed v (h.1 v hv)

theorem plain_option {value : Option JsonValue}
    (hvalue : value.toList ⊆ s.revisionIdentity.toList ++ s.verificationAuthority.toList ++
      s.integrity.git.toList ++ s.integrity.statusReason.toList) :
    value.all JsonValue.plain = true := by
  cases value with
  | none => rfl
  | some v =>
    refine plain_values h v ?_
    rw [List.append_assoc, List.append_assoc, List.append_assoc]
    refine List.mem_append_right _ ?_
    simpa using hvalue List.mem_cons_self

theorem plain_declarationsJson : (declarationsJson s).plain = true := by
  have hvalues := plain_values h
  exact plain_objectOf (by simp) (by simp [plain_arrayOf h, hvalues s.project, hvalues s.commentPolicy])

theorem plain_derivedJson : (derivedJson s).plain = true :=
  plain_objectOf (by simp) (by simp [plain_arrayOf h])

theorem plain_observedJson : (observedJson s).plain = true :=
  plain_objectOf (by simp) (by simp [plain_arrayOf h])

theorem plain_analysisJson : (analysisJson s).plain = true := by
  have hvalues := plain_values h
  have hdelta : (objectOf [("version", some s.deltaVersion), ("intent", some s.deltaIntent),
      ("entries", arrayOf s .deltaEntries), ("unauthorized", some s.deltaUnauthorized)]).plain =
        true :=
    plain_objectOf (by simp) (by simp [plain_arrayOf h, hvalues s.deltaVersion,
      hvalues s.deltaIntent, hvalues s.deltaUnauthorized])
  have hverification : (s.verificationAuthority.map fun authority =>
      objectOf [("authority", some authority), ("assessments", arrayOf s .assessments),
        ("summaries", arrayOf s .summaries),
        ("inferredRequirements", arrayOf s .inferredRequirements)]).all JsonValue.plain = true := by
    cases hauthority : s.verificationAuthority with
    | none => rfl
    | some authority =>
      have hplain : authority.plain = true := hvalues authority (by simp [hauthority])
      exact plain_objectOf (by simp) (by simp [plain_arrayOf h, hplain])
  refine plain_objectOf (by simp) ?_
  simp [plain_arrayOf h, hvalues s.health, hvalues s.reviewLevel, hdelta, hverification]

theorem plain_graphJson : (graphJson s).plain = true :=
  plain_objectOf (by simp) (by simp [plain_arrayOf h])

theorem plain_undigestedIntegrityJson : (undigestedIntegrityJson s).plain = true := by
  have hvalues := plain_values h
  refine plain_objectOf (by simp) ?_
  have hgit : s.integrity.git.all JsonValue.plain = true :=
    plain_option h fun v hv => by simp only [List.mem_append, hv, or_true, true_or]
  have hreason : s.integrity.statusReason.all JsonValue.plain = true :=
    plain_option h fun v hv => by simp only [List.mem_append, hv, or_true]
  simp [plain_arrayOf h, hvalues s.integrity.repositoryId, hvalues s.integrity.worktree,
    hvalues s.integrity.schemaVersion, hvalues s.integrity.status, hgit, hreason]

end

theorem plain_digestedJson (h : validSnapshot s sha256 = true) : (digestedJson s).plain = true := by
  have hwell := wellFormed_canon h
  have hvalues := plain_values hwell
  have hrevision : (canonicalizeSnapshot.canon s).revisionIdentity.all JsonValue.plain = true :=
    plain_option hwell (by simp)
  refine plain_objectOf (by simp) ?_
  simp [hvalues (canonicalizeSnapshot.canon s).schemaVersion,
    hvalues (canonicalizeSnapshot.canon s).modelVersion,
    hvalues (canonicalizeSnapshot.canon s).repositoryIdentity, hrevision,
    plain_declarationsJson hwell, plain_derivedJson hwell, plain_observedJson hwell,
    plain_analysisJson hwell, plain_graphJson hwell, plain_undigestedIntegrityJson hwell]

theorem member_digestedJson (s : RepositorySemanticSnapshot) :
    member (digestedJson s) "derived" = derivedJson (canonicalizeSnapshot.canon s) ∧
      member (digestedJson s) "observed" = observedJson (canonicalizeSnapshot.canon s) ∧
      member (digestedJson s) "analysis" = analysisJson (canonicalizeSnapshot.canon s) ∧
      member (digestedJson s) "graph" = graphJson (canonicalizeSnapshot.canon s) := by
  refine ⟨?_, ?_, ?_, ?_⟩ <;> exact member_objectOf (by simp) (by simp)

theorem isUndeclared_inKeyOrder {v : JsonValue} (h : v.plain = true) :
    isUndeclared (inKeyOrder v) = isUndeclared v := by
  rw [isUndeclared, textMember_inKeyOrder h]
  rfl

theorem undeclaredRelations_eq (h : wellFormed s = true) : undeclaredRelations s =
    ((elementsMember (inKeyOrder (graphJson s)) "relations").filter isUndeclared) := by
  have hrelations : elementsMember (graphJson s) "relations" = s.list .relations := by
    rw [RepositorySemanticSnapshot.list, elementsMember, member, graphJson, arrayOf]
    cases s.collections .relations <;> rfl
  rw [elementsMember, member_inKeyOrder (plain_graphJson h), elementsOf_inKeyOrder]
  change _ = ((elementsMember (graphJson s) "relations").map inKeyOrder).filter isUndeclared
  rw [hrelations, undeclaredRelations, List.filter_map]
  congr 1
  exact List.filter_congr fun v hv => (isUndeclared_inKeyOrder (plain_items h .relations v hv)).symm

theorem sameUndeclared_of_text (h : validSnapshot s sha256 = true)
    (h' : validSnapshot s' sha256 = true)
    (htext : stableStringifyValue (digestedJson s') = stableStringifyValue (digestedJson s)) :
    SameUndeclared (canonicalizeSnapshot.canon s) (canonicalizeSnapshot.canon s') := by
  have hplain := plain_digestedJson h
  have hplain' := plain_digestedJson h'
  have hsame : inKeyOrder (digestedJson s') = inKeyOrder (digestedJson s) :=
    (rekeyed_iff hplain' hplain).1 ((stableStringifyValue_eq_iff hplain' hplain).1 htext)
  obtain ⟨hderived, hobserved, hanalysis, hgraph⟩ := member_digestedJson s
  obtain ⟨hderived', hobserved', hanalysis', hgraph'⟩ := member_digestedJson s'
  have hmember : ∀ name, inKeyOrder (member (digestedJson s') name) =
      inKeyOrder (member (digestedJson s) name) := by
    intro name
    rw [← member_inKeyOrder hplain', ← member_inKeyOrder hplain, hsame]
  refine ⟨?_, ?_, ?_, ?_⟩
  · rw [← hderived, ← hderived', hmember]
  · rw [← hobserved, ← hobserved', hmember]
  · rw [← hanalysis, ← hanalysis', hmember]
  · rw [undeclaredRelations_eq (wellFormed_canon h), undeclaredRelations_eq (wellFormed_canon h'),
      ← hgraph, ← hgraph', hmember]

end Digested

section Plans

variable {context : MutationContext} {state : ServiceState} {base candidate : RepositorySemanticSnapshot}
  {request : SemanticMutationRequest} {sequence : ℕ} {p : MutationPlan}

theorem refreshIntegrity_eq (validator : Validator) (s : RepositorySemanticSnapshot)
    (status : JsonValue) : refreshIntegrity validator s status =
      { s with integrity := (refreshIntegrity validator s status).integrity } := by
  unfold refreshIntegrity
  dsimp only
  split <;> rfl

theorem buildPlan_frame (h : buildPlan context base request sequence = .ok p)
    (hcandidate : p.candidateSnapshot = some candidate) :
    validSnapshot base context.validator.sha256 = true ∧
      validSnapshot candidate context.validator.sha256 = true ∧
      SameUndeclared (canonicalizeSnapshot.canon base) candidate := by
  obtain ⟨built, transaction, hplanned⟩ := buildPlan_eq h hcandidate
  obtain ⟨progress, hloop, hpassed, -⟩ := buildCandidate_eq hplanned.built_eq hplanned.candidate_eq
  have hframe := foldlM_frame hloop
  rw [hplanned.baseSnapshot] at hframe
  refine ⟨hplanned.valid, ?_, ?_⟩
  · rw [hpassed.canonical]
    exact validSnapshot_canon hpassed.valid
  · rw [hpassed.canonical, refreshIntegrity_eq]
    exact hframe.canon

theorem buildNumbered_current (state : ServiceState) (base : RepositorySemanticSnapshot)
    (request : SemanticMutationRequest) (sequence : Option ℕ) :
    (buildNumbered context state base request sequence).1.current = state.current := by
  cases sequence <;> rfl

variable {state' : ServiceState}

theorem buildPlan_of_numbered {sequence : Option ℕ}
    (h : buildNumbered context state base request sequence = (state', .ok p)) :
    ∃ n, buildPlan context base request n = .ok p := by
  cases sequence with
  | some n => exact ⟨n, congrArg Prod.snd h⟩
  | none => exact ⟨state.transactionSequence + 1, congrArg Prod.snd h⟩

theorem current_of_numbered {sequence : Option ℕ} {result : Except String MutationPlan}
    (h : buildNumbered context state base request sequence = (state', result)) :
    state'.current = state.current := by
  have hcurrent := @buildNumbered_current context state base request sequence
  rwa [h] at hcurrent

theorem base_of_diagnostics (h : buildPlan context base request sequence = .ok p)
    (hdiagnostics : p.diagnostics = []) :
    validSnapshot base context.validator.sha256 = true ∧
      plannedBase context base = canonicalizeSnapshot.canon base := by
  obtain ⟨built, hbuilt, h⟩ := bind_eq_ok.1 h
  have hsame : p.diagnostics = built.diagnostics := by
    cases hcandidate : built.candidate with
    | none =>
      rw [hcandidate] at h
      cases h
      rfl
    | some candidate =>
      rw [hcandidate] at h
      obtain ⟨transaction, -, h⟩ := bind_eq_ok.1 h
      obtain ⟨writes, -, h⟩ := bind_eq_ok.1 h
      cases h
      rfl
  rw [hsame] at hdiagnostics
  refine @validateState_of_diagnostics _ _ request ?_
  unfold builtFor at hbuilt
  dsimp only at hbuilt
  split_ifs at hbuilt with hnone
  · cases hbuilt
    exact hdiagnostics
  · exact not_not.1 hnone

theorem fields_of_buildPlan (h : buildPlan context base request sequence = .ok p) :
    p.baseSnapshot = plannedBase context base ∧ p.request = request ∧
      p.baseSnapshotDigest = snapshotDigestOf context (plannedBase context base) := by
  obtain ⟨built, -, h⟩ := bind_eq_ok.1 h
  cases hcandidate : built.candidate with
  | none =>
    rw [hcandidate] at h
    cases h
    exact ⟨rfl, rfl, rfl⟩
  | some candidate =>
    rw [hcandidate] at h
    obtain ⟨transaction, -, h⟩ := bind_eq_ok.1 h
    obtain ⟨writes, -, h⟩ := bind_eq_ok.1 h
    cases h
    exact ⟨rfl, rfl, rfl⟩

end Plans

section Digests

variable {context : MutationContext} {s base : RepositorySemanticSnapshot}

def digestedText (s : RepositorySemanticSnapshot) : String := stableStringifyValue (digestedJson s)

theorem digestedText_canon (s : RepositorySemanticSnapshot) :
    digestedText (canonicalizeSnapshot.canon s) = digestedText s := by
  rw [digestedText, digestedText, digestedJson, canonicalizeSnapshot.canon_canon]
  rfl

theorem digestedText_plannedBase (context : MutationContext) (s : RepositorySemanticSnapshot) :
    digestedText (plannedBase context s) = digestedText s := by
  unfold plannedBase
  cases hstate : validateState context s with
  | ok canonical =>
    obtain ⟨-, rfl⟩ := validateState_ok hstate
    exact digestedText_canon s
  | error diagnostics => rfl

theorem contentDigest_inj {value value' : String}
    (h : stableStringifyValue (contentDigest "sha256" value) =
      stableStringifyValue (contentDigest "sha256" value')) : value = value' := by
  have hwell : ∀ text, (contentDigest "sha256" text).wellFormed = true := by
    intro text
    simp only [contentDigest, JsonValue.wellFormed, wellFormedProperties, Bool.and_true,
      List.map_cons, List.map_nil]
    decide
  have hsame := stableStringifyValue_inj (hwell value) (hwell value') h
  simpa [contentDigest] using hsame

theorem sameUndeclared_of_digest (hbase : validSnapshot base context.validator.sha256 = true)
    (hzero : ∀ text, context.validator.sha256 text ≠ String.ofList (List.replicate 64 '0'))
    (hcollision : context.validator.sha256 (digestedText base) =
      context.validator.sha256 (digestedText s) → digestedText base = digestedText s)
    (h : stableStringifyValue (snapshotDigestOf context s) = stableStringifyValue
      (snapshotDigestOf context (canonicalizeSnapshot.canon base))) :
    SameUndeclared (canonicalizeSnapshot.canon s) (canonicalizeSnapshot.canon base) := by
  have hcanonical : snapshotDigestOf context (canonicalizeSnapshot.canon base) =
      contentDigest "sha256" (context.validator.sha256 (digestedText base)) := by
    rw [snapshotDigestOf, if_pos (validSnapshot_canon hbase), digests_canon]
    rfl
  rw [hcanonical, snapshotDigestOf] at h
  by_cases hvalid : validSnapshot s context.validator.sha256 = true
  · rw [if_pos hvalid] at h
    exact sameUndeclared_of_text hvalid hbase (hcollision (contentDigest_inj h).symm)
  · rw [if_neg hvalid] at h
    exact absurd (contentDigest_inj h).symm (hzero _)

end Digests

section Applying

def acceptedSnapshot (outcome : Except String MutationResult) : Option RepositorySemanticSnapshot :=
  match outcome with
  | .ok (.accepted snapshot _ _ _ _) => some snapshot
  | _ => none

/-- A call that does not accept its plan leaves the current snapshot, and one that does leaves a valid
snapshot with the same undeclared content. -/
structure Atomic (context : MutationContext) (state : ServiceState) (call : Call MutationResult) :
    Prop where
  rejected : acceptedSnapshot call.2 = none → call.1.current = state.current
  accepted : ∀ snapshot, acceptedSnapshot call.2 = some snapshot → call.1.current = snapshot ∧
    validSnapshot snapshot context.validator.sha256 = true ∧
    SameUndeclared (canonicalizeSnapshot.canon state.current) snapshot

variable {context : MutationContext} {state state' : ServiceState} {base : RepositorySemanticSnapshot}
  {p : MutationPlan} {call : Call MutationResult}

theorem Atomic.of_current (h : Atomic context state' call) (hcurrent : state'.current = state.current) :
    Atomic context state call := by
  obtain ⟨hrejected, haccepted⟩ := h
  rw [hcurrent] at hrejected haccepted
  exact ⟨hrejected, haccepted⟩

theorem atomic_rejectedWith (state : ServiceState) (diagnostics : List MutationDiagnostic) :
    Atomic context state (rejectedWith state diagnostics) :=
  ⟨fun _ => rfl, fun _ h => by cases h⟩

theorem atomic_error (state : ServiceState) (message : String) :
    Atomic context state (state, .error message) :=
  ⟨fun _ => rfl, fun _ h => by cases h⟩

variable {validatedPlan : MutationPlan} {sequence : ℕ}

theorem commitPlan_atomic {request : SemanticMutationRequest}
    (h : buildPlan context base request sequence = .ok p)
    (hsame : validSnapshot base context.validator.sha256 = true →
      SameUndeclared (canonicalizeSnapshot.canon state.current) (canonicalizeSnapshot.canon base)) :
    Atomic context state (commitPlan state p) := by
  unfold commitPlan
  cases hcandidate : p.candidateSnapshot with
  | none => exact atomic_rejectedWith state _
  | some candidate =>
    cases p.transaction with
    | none => exact atomic_rejectedWith state _
    | some transaction =>
      obtain ⟨hbase, hvalid, hframe⟩ := buildPlan_frame h hcandidate
      refine ⟨fun hnone => (by cases hnone), fun snapshot hsnapshot => ?_⟩
      cases hsnapshot
      exact ⟨rfl, hvalid, (hsame hbase).trans hframe⟩

section

variable (h : buildPlan context p.baseSnapshot p.request sequence = .ok validatedPlan)
include h

theorem commitNumbered_atomic
    (hsame : validSnapshot p.baseSnapshot context.validator.sha256 = true →
      SameUndeclared (canonicalizeSnapshot.canon state.current)
        (canonicalizeSnapshot.canon p.baseSnapshot)) :
    Atomic context state (commitNumbered context state p validatedPlan) := by
  unfold commitNumbered
  split
  · split_ifs with happlied
    · cases hnumbered : buildNumbered context state p.baseSnapshot p.request none with
      | mk state' result =>
        have hcurrent := current_of_numbered hnumbered
        cases result with
        | error message => exact (atomic_error state' message).of_current hcurrent
        | ok planToApply =>
          obtain ⟨n, hplan⟩ := buildPlan_of_numbered hnumbered
          rw [← hcurrent] at hsame
          exact (commitPlan_atomic hplan hsame).of_current hcurrent
    · exact commitPlan_atomic h hsame
  · exact atomic_rejectedWith state _

/-- The step lemma: what one call does is atomic if what it does in the end is. -/
theorem applyValidated_atomic {again : ServiceState → MutationPlan → Option (Call MutationResult)}
    (hzero : ∀ text, context.validator.sha256 text ≠ String.ofList (List.replicate 64 '0'))
    (hcollision : context.validator.sha256 (digestedText p.baseSnapshot) =
      context.validator.sha256 (digestedText state.current) →
        digestedText p.baseSnapshot = digestedText state.current)
    (hagain : ∀ state' rebased call, state'.current = state.current →
      digestedText rebased.baseSnapshot = digestedText state.current →
        again state' rebased = some call → Atomic context state' call)
    (hcall : applyValidated context again state p validatedPlan = some call) :
    Atomic context state call := by
  unfold applyValidated at hcall
  split_ifs at hcall with htext hdiagnostics hdigest
  · cases hcall
    exact atomic_rejectedWith state _
  · cases hcall
    exact atomic_rejectedWith state _
  · unfold rebasePlan at hcall
    split at hcall
    · cases hcall
      exact atomic_error state _
    · dsimp only at hcall
      split_ifs at hcall with hoverlap
      · cases hcall
        exact atomic_rejectedWith state _
      · cases hnumbered : buildNumbered context state state.current validatedPlan.request none with
        | mk state' result =>
          have hcurrent := current_of_numbered hnumbered
          rw [hnumbered] at hcall
          cases result with
          | error message =>
            cases hcall
            exact (atomic_error state' message).of_current hcurrent
          | ok rebased =>
            dsimp only at hcall
            split_ifs at hcall with hrebased
            · cases hcall
              exact (atomic_rejectedWith state' _).of_current hcurrent
            · obtain ⟨n, hplan⟩ := buildPlan_of_numbered hnumbered
              have hbase := (fields_of_buildPlan hplan).1
              refine (hagain state' rebased call hcurrent ?_ hcall).of_current hcurrent
              rw [hbase, digestedText_plannedBase]
  · cases hcall
    refine commitNumbered_atomic h fun hvalid => ?_
    have hbase := base_of_diagnostics h (not_not.1 hdiagnostics)
    rw [(fields_of_buildPlan h).2.2, hbase.2] at hdigest
    exact sameUndeclared_of_digest hvalid hzero hcollision (not_not.1 hdigest)

end

/-- The run lemma. -/
theorem applyFor_atomic (fuel : ℕ)
    (hzero : ∀ text, context.validator.sha256 text ≠ String.ofList (List.replicate 64 '0'))
    (hcollision : context.validator.sha256 (digestedText p.baseSnapshot) =
      context.validator.sha256 (digestedText state.current) →
        digestedText p.baseSnapshot = digestedText state.current)
    (h : applyFor context fuel state p = some call) : Atomic context state call := by
  induction fuel generalizing state p call with
  | zero => cases h
  | succ fuel ih =>
    rw [applyFor] at h
    cases hnumbered : buildNumbered context state p.baseSnapshot p.request
      (p.transaction.map SemanticTransaction.sequence) with
    | mk state' result =>
      have hcurrent := current_of_numbered hnumbered
      rw [hnumbered] at h
      cases result with
      | error message =>
        cases h
        exact (atomic_error state' message).of_current hcurrent
      | ok validatedPlan =>
        obtain ⟨n, hplan⟩ := buildPlan_of_numbered hnumbered
        rw [← hcurrent] at hcollision
        refine (applyValidated_atomic hplan hzero hcollision ?_ h).of_current hcurrent
        intro state'' rebased call hsame hrebased hcall
        refine ih (fun _ => ?_) hcall
        rw [hrebased, hsame]

end Applying

section Returning

variable {context : MutationContext} {state state' : ServiceState} {p : MutationPlan}

/-- A plan of the current snapshot without diagnostics is never planned again. -/
theorem applyFor_rebased {request : SemanticMutationRequest} {rebased : MutationPlan} {n : ℕ}
    (hplan : buildPlan context state.current request n = .ok rebased)
    (hdiagnostics : rebased.diagnostics = []) (hcurrent : state'.current = state.current) :
    ∃ call, ∀ fuel, applyFor context (fuel + 1) state' rebased = some call := by
  obtain ⟨hvalid, hcanonical⟩ := base_of_diagnostics hplan hdiagnostics
  have hbase := (fields_of_buildPlan hplan).1.trans hcanonical
  cases hnumbered : buildNumbered context state' rebased.baseSnapshot rebased.request
    (rebased.transaction.map SemanticTransaction.sequence) with
  | mk state'' result =>
    have hcurrent' := (current_of_numbered hnumbered).trans hcurrent
    cases result with
    | error message =>
      refine ⟨(state'', .error message), fun fuel => ?_⟩
      rw [applyFor, hnumbered]
    | ok validatedPlan =>
      obtain ⟨m, hvalidated⟩ := buildPlan_of_numbered hnumbered
      by_cases htext : rebased.text ≠ validatedPlan.text
      · refine ⟨rejectedWith state'' [invalidPlan], fun fuel => ?_⟩
        rw [applyFor, hnumbered]
        exact if_pos htext
      by_cases hnone : validatedPlan.diagnostics ≠ []
      · refine ⟨rejectedWith state'' validatedPlan.diagnostics, fun fuel => ?_⟩
        rw [applyFor, hnumbered]
        exact (if_neg htext).trans (if_pos hnone)
      refine ⟨commitNumbered context state'' rebased validatedPlan, fun fuel => ?_⟩
      have hbase' := (base_of_diagnostics hvalidated (not_not.1 hnone)).2
      have hdigest : snapshotDigestOf context state''.current = validatedPlan.baseSnapshotDigest := by
        rw [(fields_of_buildPlan hvalidated).2.2, hbase', hbase, canonicalizeSnapshot.canon_canon,
          hcurrent', snapshotDigestOf, snapshotDigestOf, if_pos hvalid,
          if_pos (validSnapshot_canon hvalid), digests_canon]
      rw [applyFor, hnumbered]
      refine (if_neg htext).trans ((if_neg hnone).trans (if_neg ?_))
      rw [hdigest]
      exact not_not.2 rfl

theorem rebasePlan_returns (context : MutationContext) (state : ServiceState)
    (validatedPlan : MutationPlan) :
    ∃ call, ∀ fuel, rebasePlan context (applyFor context (fuel + 1)) state validatedPlan = some call := by
  unfold rebasePlan
  cases changedDeclarationIds validatedPlan.baseSnapshot state.current with
  | error message => exact ⟨_, fun _ => rfl⟩
  | ok changed =>
    dsimp only
    by_cases hoverlap : validatedPlan.affectedEntities.filter (· ∈ changed) ≠ []
    · exact ⟨_, fun _ => if_pos hoverlap⟩
    simp only [if_neg hoverlap]
    cases hnumbered : buildNumbered context state state.current validatedPlan.request none with
    | mk state' result =>
      have hcurrent := current_of_numbered hnumbered
      cases result with
      | error message => exact ⟨_, fun _ => rfl⟩
      | ok rebased =>
        dsimp only
        by_cases hdiagnostics : rebased.diagnostics ≠ []
        · exact ⟨_, fun _ => if_pos hdiagnostics⟩
        simp only [if_neg hdiagnostics]
        obtain ⟨n, hplan⟩ := buildPlan_of_numbered hnumbered
        exact applyFor_rebased hplan (not_not.1 hdiagnostics) hcurrent

/-- A call of `apply` calls itself once at most. -/
theorem applyFor_returns (context : MutationContext) (state : ServiceState) (p : MutationPlan) :
    ∃ call, ∀ fuel, applyFor context (fuel + 2) state p = some call := by
  cases hnumbered : buildNumbered context state p.baseSnapshot p.request
    (p.transaction.map SemanticTransaction.sequence) with
  | mk state' result =>
    cases result with
    | error message =>
      refine ⟨(state', .error message), fun fuel => ?_⟩
      rw [applyFor, hnumbered]
    | ok validatedPlan =>
      suffices hvalidated : ∃ call, ∀ fuel, applyValidated context (applyFor context (fuel + 1)) state' p
          validatedPlan = some call by
        obtain ⟨call, hcall⟩ := hvalidated
        refine ⟨call, fun fuel => ?_⟩
        rw [applyFor, hnumbered]
        exact hcall fuel
      unfold applyValidated
      by_cases htext : p.text ≠ validatedPlan.text
      · exact ⟨_, fun _ => if_pos htext⟩
      by_cases hnone : validatedPlan.diagnostics ≠ []
      · exact ⟨_, fun _ => (if_neg htext).trans (if_pos hnone)⟩
      simp only [if_neg htext, if_neg hnone]
      by_cases hdigest : stableStringifyValue (snapshotDigestOf context state'.current) ≠
          stableStringifyValue validatedPlan.baseSnapshotDigest
      · simp only [if_pos hdigest]
        exact rebasePlan_returns context state' validatedPlan
      · exact ⟨_, fun _ => if_neg hdigest⟩

end Returning

section Altered

variable {context : MutationContext} {state state' : ServiceState} {p rebuilt : MutationPlan}

def MutationPlan.field (p : MutationPlan) (name : String) : Option JsonValue := member? p.json name

def Altered (p rebuilt : MutationPlan) : Prop :=
  ∃ name, (p.field name).map inKeyOrder ≠ (rebuilt.field name).map inKeyOrder

theorem text_ne_of_altered (h : Altered p rebuilt) (hp : p.json.plain = true)
    (hrebuilt : rebuilt.json.plain = true) : p.text ≠ rebuilt.text := by
  obtain ⟨name, hname⟩ := h
  intro htext
  have hsame : inKeyOrder p.json = inKeyOrder rebuilt.json :=
    (rekeyed_iff hp hrebuilt).1 ((stableStringifyValue_eq_iff hp hrebuilt).1 htext)
  apply hname
  rw [MutationPlan.field, MutationPlan.field, ← member?_inKeyOrder hp, ← member?_inKeyOrder hrebuilt,
    hsame]

theorem applyFor_altered
    (hrebuilt : buildNumbered context state p.baseSnapshot p.request
      (p.transaction.map SemanticTransaction.sequence) = (state', .ok rebuilt))
    (h : p.text ≠ rebuilt.text) (fuel : ℕ) :
    applyFor context (fuel + 1) state p = some (rejectedWith state' [invalidPlan]) := by
  rw [applyFor, hrebuilt]
  exact if_pos h

end Altered

end Mottainai.Semantics
