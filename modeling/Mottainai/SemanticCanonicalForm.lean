import Mottainai.SemanticSchema

/-!
# When the canonical form of a snapshot does not depend on the order

Most collections are sorted by a key that validation keeps unique, or by the whole text of an item.
Three are not: two entries of the semantic delta may have one key, two verification summaries, and
two assessments, whose texts are put together from two ids. The digests of a valid snapshot depend
on the order of its collections exactly where some two of its items have one key.
-/

namespace Mottainai.Semantics

open JsonValues

section Fitting

/-- Of a well-formed value with this schema, the canonical form has it too and is well formed, and
no list of the value has two different items with one key. -/
structure Fits (schema : Schema) (c : Canonical JsonValue) : Prop where
  distinct : ∀ v, v.wellFormed = true → schema v = true → c.distinct v
  accepted : ∀ v, schema v = true → schema (c.canon v) = true
  wellFormed : ∀ v, v.wellFormed = true → schema v = true → (c.canon v).wellFormed = true

@[simp] theorem fits_keep (schema : Schema) : Fits schema Canonical.keep :=
  ⟨fun _ _ _ => trivial, fun _ h => h, fun _ h _ => h⟩

def IsText (schema : Schema) : Prop := ∀ v, schema v = true → ∃ text, v = .string text

@[simp] theorem isText_string (test : List Char → Bool) : IsText (Schema.string test) :=
  fun _ h => Schema.exists_of_string h

@[simp] theorem isText_oneOf (values : List String) : IsText (Schema.oneOf values) := by
  intro v h
  cases v with
  | string text => exact ⟨text, rfl⟩
  | _ => cases h

/-- Every value with this schema is an array of strings. -/
def IsTexts (schema : Schema) : Prop := ∃ element, schema = Schema.array element ∧ IsText element

variable {fields : List Schema.Field} {properties : Properties} {entry : String × JsonValue}
variable {element : Schema} {kind : String}

@[simp] theorem isTexts_array (h : IsText element) :
    IsTexts (Schema.array element) := ⟨element, rfl, h⟩

theorem fits_sorted {key : JsonValue → String}
    (h : ∀ v w, v.wellFormed = true → w.wellFormed = true → element v = true → element w = true →
      key v = key w → v = w) :
    Fits (Schema.array element) (Canonical.array (Canonical.sorted Canonical.keep key)) := by
  have hcanon : ∀ elements, (Canonical.array (Canonical.sorted Canonical.keep key)).canon
      (.array elements) = .array (sortBy key (elements.map id)) := fun _ => rfl
  constructor
  · rintro _ hwell hschema elements rfl
    rw [JsonValue.wellFormed, wellFormedElements_iff] at hwell
    rw [Schema.array_iff] at hschema
    exact ⟨fun _ _ => trivial, fun a ha b hb =>
      h a b (hwell a ha) (hwell b hb) (hschema a ha) (hschema b hb)⟩
  · intro v hschema
    obtain ⟨elements, rfl, helements⟩ := Schema.exists_of_array hschema
    rw [hcanon, List.map_id, Schema.array_iff]
    exact fun w hw => helements w (mem_sortBy.1 hw)
  · intro v hwell hschema
    obtain ⟨elements, rfl, -⟩ := Schema.exists_of_array hschema
    rw [JsonValue.wellFormed, wellFormedElements_iff] at hwell
    rw [hcanon, List.map_id, JsonValue.wellFormed, wellFormedElements_iff]
    exact fun w hw => hwell w (mem_sortBy.1 hw)

@[simp] theorem fits_texts {schema : Schema} (h : IsTexts schema) :
    Fits schema Canonical.texts := by
  obtain ⟨element, rfl, h⟩ := h
  refine fits_sorted fun v w _ _ hv hw heq => ?_
  obtain ⟨text, rfl⟩ := h v hv
  obtain ⟨text', rfl⟩ := h w hw
  exact congrArg JsonValue.string heq

@[simp] theorem fits_values (element : Schema) : Fits (Schema.array element)
    (Canonical.array (Canonical.sorted Canonical.keep stableStringifyValue)) :=
  fits_sorted fun _ _ hv hw _ _ heq => stableStringifyValue_inj hv hw heq

theorem property_of_mem (hwell : (JsonValue.object properties).wellFormed = true)
    (h : entry ∈ properties) : property properties entry.1 = some entry.2 := by
  rw [JsonValue.wellFormed, Bool.and_eq_true] at hwell
  have hnodup := nodup_of_increasing hwell.1
  clear hwell
  induction properties with
  | nil => cases h
  | cons entry' properties ih =>
    rw [List.map_cons, List.nodup_cons] at hnodup
    rcases List.mem_cons.1 h with rfl | h
    · simp [property]
    · have hne : entry'.1 ≠ entry.1 := fun heq =>
        hnodup.1 (heq ▸ List.mem_map_of_mem h)
      have hrest := ih h hnodup.2
      simp only [property, List.find?_cons] at hrest ⊢
      simpa [hne] using hrest

theorem field_of_mem (hwell : (JsonValue.object properties).wellFormed = true)
    (hschema : Schema.object fields (.object properties) = true) (h : entry ∈ properties) :
    ∃ field ∈ fields, field.name = entry.1 ∧ entry.2.wellFormed = true ∧
      field.schema entry.2 = true := by
  have hproperty := property_of_mem hwell h
  rw [JsonValue.wellFormed, Bool.and_eq_true, wellFormedProperties_iff] at hwell
  obtain ⟨_, heq, haccepts, hstrict⟩ := Schema.exists_of_object hschema
  obtain rfl := JsonValue.object.inj heq
  obtain ⟨field, hfield, hname⟩ := hstrict entry h
  have hvalue := haccepts field hfield
  rw [Schema.Field.accepts, hname, hproperty] at hvalue
  exact ⟨field, hfield, hname, hwell.2 entry h, hvalue⟩

theorem fits_object {rules : String → String → Canonical JsonValue}
    {hkind : ∀ kind, rules kind "kind" = .keep}
    (h : ∀ properties, Schema.object fields (.object properties) = true → ∀ field ∈ fields,
      Fits field.schema (rules (Canonical.kindOf properties) field.name)) :
    Fits (Schema.object fields) (Canonical.object rules hkind) := by
  have hcanon : ∀ properties, (Canonical.object rules hkind).canon (.object properties) = .object
      (Canonical.mapValues (fun name => (rules (Canonical.kindOf properties) name).canon)
        properties) := fun _ => rfl
  constructor
  · rintro _ hwell hschema properties rfl entry hentry
    obtain ⟨field, hfield, hname, hform, hvalue⟩ := field_of_mem hwell hschema hentry
    exact hname ▸ (h properties hschema field hfield).distinct entry.2 hform hvalue
  · intro v hschema
    obtain ⟨properties, rfl, haccepts, hstrict⟩ := Schema.exists_of_object hschema
    rw [hcanon]
    simp only [Schema.object, Bool.and_eq_true, List.all_eq_true, List.any_eq_true, beq_iff_eq]
    constructor
    · intro field hfield
      have hvalue := haccepts field hfield
      rw [Schema.Field.accepts] at hvalue ⊢
      rw [Canonical.property_mapValues]
      cases hproperty : property properties field.name with
      | none => rwa [hproperty] at hvalue
      | some value =>
        rw [hproperty] at hvalue
        exact (h properties hschema field hfield).accepted value hvalue
    · intro entry hentry
      obtain ⟨entry, hmem, rfl⟩ := List.mem_map.1 hentry
      exact hstrict entry hmem
  · intro v hwell hschema
    obtain ⟨properties, rfl, -, -⟩ := Schema.exists_of_object hschema
    have hvalues : ∀ entry ∈ properties,
        ((rules (Canonical.kindOf properties) entry.1).canon entry.2).wellFormed = true := by
      intro entry hentry
      obtain ⟨field, hfield, hname, hform, hvalue⟩ := field_of_mem hwell hschema hentry
      exact hname ▸ (h properties hschema field hfield).wellFormed entry.2 hform hvalue
    rw [JsonValue.wellFormed, Bool.and_eq_true] at hwell
    rw [hcanon, JsonValue.wellFormed, Bool.and_eq_true, wellFormedProperties_iff,
      Canonical.mapValues, List.map_map]
    refine ⟨hwell.1, fun entry hentry => ?_⟩
    obtain ⟨entry, hmem, rfl⟩ := List.mem_map.1 hentry
    exact hvalues entry hmem

@[simp] theorem isText_nonempty : IsText Schema.nonempty := isText_string _

@[simp] theorem isText_logicalId : IsText logicalIdSchema := isText_string _

@[simp] theorem isText_effectId : IsText effectIdSchema := isText_string _

@[simp] theorem fits_provenance : Fits provenanceSchema canonicalizeProvenance := by
  refine fits_object fun _ _ => ?_
  simp only [List.forall_mem_cons, Schema.required, Schema.optional]
  have hambiguity : Fits ambiguitySchema (Canonical.object
      (fun _ name => if name = "candidates" then Canonical.texts else Canonical.keep)
      fun _ => rfl) :=
    fits_object fun _ _ => by simp [Schema.required, Schema.optional]
  simp [hambiguity]

@[simp] theorem fits_definition : Fits contractSchema canonicalizeDefinition := by
  refine fits_object fun _ _ => ?_
  simp only [List.forall_mem_cons, Schema.required, Schema.optional]
  refine ⟨fits_keep _, ?_, nofun⟩
  rw [if_pos trivial]
  exact fits_object fun _ _ => by simp

theorem kindOf_of_object (hmem : Schema.required "kind" (Schema.oneOf [kind]) ∈ fields)
    (h : Schema.object fields (.object properties) = true) :
    Canonical.kindOf properties = kind := by
  obtain ⟨_, heq, haccepts, -⟩ := Schema.exists_of_object h
  obtain rfl := JsonValue.object.inj heq
  have hkind := haccepts _ hmem
  simp only [Schema.Field.accepts, Schema.required] at hkind
  cases hvalue : property properties "kind" with
  | none =>
    rw [hvalue] at hkind
    cases hkind
  | some value =>
    rw [hvalue] at hkind
    obtain ⟨text, rfl⟩ := isText_oneOf _ value hkind
    rw [Canonical.kindOf, hvalue]
    simpa [Schema.oneOf, text?] using hkind

theorem fits_entity (h : ∀ field ∈ fields, Fits field.schema (entityRule kind field.name)) :
    Fits (entityOfKind kind fields) canonicalizeEntity := by
  refine fits_object fun properties hschema => ?_
  have hkind : Canonical.kindOf properties = kind := kindOf_of_object (by simp) hschema
  rw [hkind]
  have hbase : ∀ field ∈ entityBaseShape, Fits field.schema (entityRule kind field.name) := by
    simp [entityBaseShape, Schema.required, Schema.optional, entityRule]
  intro field hfield
  rcases List.mem_append.1 hfield with hfield | hfield
  · exact hbase field hfield
  · rcases List.mem_cons.1 hfield with rfl | hfield
    · simp [Schema.required, entityRule]
    · exact h field hfield

theorem fits_provenanceOf
    (h : ∀ field ∈ fields, field.name = "provenance" → field.schema = provenanceSchema) :
    Fits (Schema.object fields) canonicalizeProvenanceOf := by
  refine fits_object fun _ _ field hfield => ?_
  by_cases hname : field.name = "provenance"
  · rw [if_pos hname, h field hfield hname]
    exact fits_provenance
  · rw [if_neg hname]
    exact fits_keep _

theorem fits_sortTexts {names : List String} (hkind : "kind" ∉ names)
    (h : ∀ field ∈ fields, field.name ∈ names → IsTexts field.schema) :
    Fits (Schema.object fields) (sortTexts names hkind) := by
  refine fits_object fun _ _ field hfield => ?_
  by_cases hname : field.name ∈ names
  · rw [if_pos hname]
    exact fits_texts (h field hfield hname)
  · rw [if_neg hname]
    exact fits_keep _

theorem fits_item (c : Collection) : Fits (itemSchema c) (canonicalizeItem c) := by
  cases c with
  | components | capabilities | contracts | invariants | decisions | rationales | constraints
  | files | symbols | packages | externalDependencies | externalApis | evidences | tests =>
    exact fits_entity (by simp [Schema.required, Schema.optional, entityRule])
  | declaredFacts | derivedFacts | observedFacts | analysisFacts | verificationPerspectives
  | declaredRequirements | derivedRequirements | inferredRequirements | verificationEvidence
  | claims | relations =>
    exact fits_provenanceOf (by simp [Schema.required, Schema.optional])
  | effectPolicies | dependencyPolicies | terminology | unknowns | assessments | summaries =>
    exact fits_sortTexts (by decide) (by simp [Schema.required, Schema.optional])
  | reviewGuidance | stability | decisionLinks | symbolOwnership | semanticDebt | deltaEntries
  | recommendedSourceReads | diagnostics | trackedFiles | extractors => exact fits_keep _

end Fitting

section Forms

variable {name : String}

theorem member?_object {rules : String → String → Canonical JsonValue}
    {hkind : ∀ kind, rules kind "kind" = .keep} (h : ∀ kind, rules kind name = .keep)
    (v : JsonValue) : member? ((Canonical.object rules hkind).canon v) name = member? v name := by
  cases v with
  | object properties =>
    have hproperty := Canonical.property_mapValues
      (fun name => (rules (Canonical.kindOf properties) name).canon) properties name
    simp only [h] at hproperty
    exact hproperty.trans (congrFun Option.map_id _)
  | _ => rfl

theorem member?_sortTexts {names : List String} (hkind : "kind" ∉ names) (h : name ∉ names)
    (v : JsonValue) : member? ((sortTexts names hkind).canon v) name = member? v name :=
  member?_object (fun _ => if_neg h) v

theorem member?_provenanceOf (h : name ≠ "provenance") (v : JsonValue) :
    member? (canonicalizeProvenanceOf.canon v) name = member? v name :=
  member?_object (fun _ => if_neg h) v

theorem member?_entity_id (v : JsonValue) :
    member? (canonicalizeEntity.canon v) "id" = member? v "id" :=
  member?_object (fun _ => rfl) v

theorem idOf_canon (c : Collection) (v : JsonValue) :
    idOf ((canonicalizeItem c).canon v) = idOf v := by
  have hmember : member? ((canonicalizeItem c).canon v) "id" = member? v "id" := by
    cases c with
    | components | capabilities | contracts | invariants | decisions | rationales | constraints
    | files | symbols | packages | externalDependencies | externalApis | evidences | tests =>
      exact member?_entity_id v
    | declaredFacts | derivedFacts | observedFacts | analysisFacts | verificationPerspectives
    | declaredRequirements | derivedRequirements | inferredRequirements | verificationEvidence
    | claims | relations => exact member?_provenanceOf (by decide) v
    | effectPolicies | dependencyPolicies | terminology | unknowns | assessments | summaries =>
      exact member?_sortTexts (by decide) (by decide) v
    | reviewGuidance | stability | decisionLinks | symbolOwnership | semanticDebt | deltaEntries
    | recommendedSourceReads | diagnostics | trackedFiles | extractors => rfl
  rw [idOf, textMember, member, hmember]
  rfl

theorem member_wellFormed {v : JsonValue} (h : v.wellFormed = true) (name : String) :
    (member v name).wellFormed = true := by
  unfold member member?
  cases v with
  | object properties =>
    rw [JsonValue.wellFormed, Bool.and_eq_true, wellFormedProperties_iff] at h
    simp only [property]
    cases hfind : properties.find? fun p => p.1 = name with
    | none => rfl
    | some entry => exact h.2 entry (List.mem_of_find?_eq_some hfind)
  | _ => rfl

theorem array_inj_of_text {vs ws : List JsonValue} (hvs : ∀ v ∈ vs, v.wellFormed = true)
    (hws : ∀ w ∈ ws, w.wellFormed = true)
    (h : stableStringifyValue (.array vs) = stableStringifyValue (.array ws)) : vs = ws := by
  rw [← wellFormedElements_iff] at hvs hws
  exact JsonValue.array.inj (stableStringifyValue_inj hvs hws h)

theorem member_eq_string {fields : List Schema.Field} {item : JsonValue} {schema : Schema}
    (h : Schema.object fields item = true) (hfield : Schema.required name schema ∈ fields)
    (htext : IsText schema) : member item name = .string (textMember item name) := by
  obtain ⟨properties, rfl, haccepts, -⟩ := Schema.exists_of_object h
  have haccept := haccepts _ hfield
  simp only [Schema.Field.accepts, Schema.required] at haccept
  rw [textMember, member, member?]
  cases hvalue : property properties name with
  | none =>
    rw [hvalue] at haccept
    cases haccept
  | some value =>
    rw [hvalue] at haccept
    obtain ⟨text, rfl⟩ := htext value haccept
    rfl

end Forms

section Unique

variable {s : RepositorySemanticSnapshot} {sha256 : String → String} {α : Type}

theorem check_eq_nil {failed : Bool} {d : SemanticDiagnostic} :
    check failed d = [] ↔ failed = false := by
  cases failed <;> simp [check]

variable {c : Collection} {key : JsonValue → String} {seen : List String} {items : List α}

theorem forEach_eq_nil {f : α → ℕ → List SemanticDiagnostic} :
    forEach items f = [] ↔ ∀ item index, items[index]? = some item → f item index = [] := by
  rw [forEach, List.flatMap_eq_nil_iff]
  constructor
  · intro h item index hitem
    exact h (item, index) (List.mk_mem_zipIdx_iff_getElem?.2 hitem)
  · rintro h ⟨item, index⟩ hitem
    exact h item index (List.mk_mem_zipIdx_iff_getElem?.1 hitem)

theorem nodup_of_checkDuplicate (seen : List String) {key : α → String}
    (h : ∀ item index, items[index]? = some item → ∃ d,
      checkDuplicate seen items key item index d = []) : (items.map key).Nodup := by
  rw [List.Nodup, List.pairwise_map, List.pairwise_iff_getElem]
  intro i j hi hj hij heq
  obtain ⟨d, hd⟩ := h items[j] j (List.getElem?_eq_getElem hj)
  rw [checkDuplicate, check_eq_nil, decide_eq_false_iff_not] at hd
  refine hd (List.mem_append_right _ ?_)
  rw [← heq]
  exact List.mem_map_of_mem (List.mem_take_iff_getElem.2 ⟨i, by omega, rfl⟩)

def uniqueKey : Collection → Option (JsonValue → String)
  | .symbolOwnership => some fun ownership => textMember ownership "symbolId"
  | .assessments => some assessmentKey
  | .trackedFiles => some fun file => textMember file "path"
  | .effectPolicies | .dependencyPolicies | .reviewGuidance | .stability | .terminology
  | .decisionLinks | .semanticDebt | .deltaEntries | .unknowns | .recommendedSourceReads
  | .diagnostics | .summaries | .extractors => none
  | _ => some idOf

theorem nodup_entities (h : checkEntities s = []) : ((entities s).map idOf).Nodup := by
  refine nodup_of_checkDuplicate [] fun entity index hentity => ?_
  rw [entities, List.getElem?_map, Option.map_eq_some_iff] at hentity
  obtain ⟨⟨entity, layer, authority⟩, hitem, rfl⟩ := hentity
  have hchecks := forEach_eq_nil.1 h _ _ hitem
  simp only [List.append_eq_nil_iff] at hchecks
  exact ⟨_, hchecks.1.1.1.1⟩

theorem sublist_entities
    (hc : c ∈ ([.components, .capabilities, .contracts,
    .invariants, .decisions, .rationales, .constraints, .files, .symbols, .packages,
    .externalDependencies, .externalApis, .evidences, .tests] : List Collection)) :
    (s.list c).Sublist (entities s) := by
  have hentities : entities s = s.project :: (([.components, .capabilities, .contracts,
      .invariants, .decisions, .rationales, .constraints, .files, .symbols, .packages,
      .externalDependencies, .externalApis, .evidences, .tests] :
        List Collection).map s.list).flatten := by
    simp [entities, snapshotEntities, Function.comp_def]
  rw [hentities]
  exact (List.sublist_flatten_of_mem (List.mem_map_of_mem hc)).cons _

theorem nodup_requirements {container authority : String}
    (h : checkRequirements s seen c container authority = []) : ((s.list c).map idOf).Nodup := by
  refine nodup_of_checkDuplicate seen fun requirement index hrequirement => ?_
  have hchecks := forEach_eq_nil.1 h _ _ hrequirement
  exact ⟨_, (List.append_eq_nil_iff.1 hchecks).1⟩

theorem nodup_facts {layer authority : String} (h : checkFacts s seen c layer authority = []) :
    ((s.list c).map idOf).Nodup := by
  refine nodup_of_checkDuplicate seen fun fact index hfact => ?_
  have hchecks := forEach_eq_nil.1 h _ _ hfact
  simp only [List.append_eq_nil_iff] at hchecks
  exact ⟨_, hchecks.1.1⟩

theorem nodup_uniqueKey (h : validateReferences s sha256 = []) (hkey : uniqueKey c = some key) :
    ((s.list c).map key).Nodup := by
  simp only [validateReferences, List.append_eq_nil_iff] at h
  obtain ⟨⟨⟨⟨⟨⟨⟨⟨⟨⟨⟨⟨⟨⟨-, hentities⟩, hperspectives⟩, hdeclared⟩, hderived⟩, hevidence⟩, hanalysis⟩,
    hfacts⟩, hclaims⟩, hrelations⟩, hownership⟩, -⟩, -⟩, hfiles⟩, -⟩ := h
  simp only [checkVerificationAnalysis, List.append_eq_nil_iff] at hanalysis
  obtain ⟨⟨⟨-, hinferred⟩, hassessments⟩, -⟩ := hanalysis
  simp only [checkAllFacts, List.append_eq_nil_iff] at hfacts
  obtain ⟨⟨⟨hdeclaredFacts, hderivedFacts⟩, hobservedFacts⟩, hanalysisFacts⟩ := hfacts
  cases c with
  | components | capabilities | contracts | invariants | decisions | rationales | constraints
  | files | symbols | packages | externalDependencies | externalApis | evidences | tests =>
    cases hkey
    exact (nodup_entities hentities).sublist ((sublist_entities (by decide)).map idOf)
  | declaredFacts => cases hkey; exact nodup_facts hdeclaredFacts
  | derivedFacts => cases hkey; exact nodup_facts hderivedFacts
  | observedFacts => cases hkey; exact nodup_facts hobservedFacts
  | analysisFacts => cases hkey; exact nodup_facts hanalysisFacts
  | declaredRequirements => cases hkey; exact nodup_requirements hdeclared
  | derivedRequirements => cases hkey; exact nodup_requirements hderived
  | inferredRequirements => cases hkey; exact nodup_requirements hinferred
  | verificationPerspectives =>
    cases hkey
    simp only [checkPerspectives] at hperspectives
    refine nodup_of_checkDuplicate [] fun perspective index hperspective => ?_
    have hchecks := forEach_eq_nil.1 hperspectives _ _ hperspective
    simp only [List.append_eq_nil_iff] at hchecks
    exact ⟨_, hchecks.1.1⟩
  | verificationEvidence =>
    cases hkey
    simp only [checkVerificationEvidence] at hevidence
    refine nodup_of_checkDuplicate [] fun evidence index hitem => ?_
    have hchecks := forEach_eq_nil.1 hevidence _ _ hitem
    simp only [List.append_eq_nil_iff] at hchecks
    exact ⟨_, hchecks.1.1.1.1.1⟩
  | claims =>
    cases hkey
    refine nodup_of_checkDuplicate [] fun claim index hclaim => ?_
    have hchecks := forEach_eq_nil.1 hclaims _ _ hclaim
    simp only [List.append_eq_nil_iff] at hchecks
    exact ⟨_, hchecks.1.1⟩
  | relations =>
    cases hkey
    refine nodup_of_checkDuplicate [] fun relation index hrelation => ?_
    have hchecks := forEach_eq_nil.1 hrelations _ _ hrelation
    simp only [List.append_eq_nil_iff] at hchecks
    exact ⟨_, hchecks.1.1.1.1⟩
  | symbolOwnership =>
    cases hkey
    simp only [checkOwnership, checkSymbolOwnership, List.append_eq_nil_iff] at hownership
    refine nodup_of_checkDuplicate [] fun ownership index hitem => ?_
    have hchecks := forEach_eq_nil.1 hownership.1.1 _ _ hitem
    simp only [List.append_eq_nil_iff] at hchecks
    exact ⟨_, hchecks.1.1.1⟩
  | assessments =>
    cases hkey
    refine nodup_of_checkDuplicate [] fun assessment index hitem => ?_
    have hchecks := forEach_eq_nil.1 hassessments _ _ hitem
    exact ⟨_, (List.append_eq_nil_iff.1 hchecks).2⟩
  | trackedFiles =>
    cases hkey
    simp only [checkTrackedFiles] at hfiles
    exact nodup_of_checkDuplicate [] fun file index hfile =>
      ⟨_, forEach_eq_nil.1 hfiles _ _ hfile⟩
  | effectPolicies | dependencyPolicies | reviewGuidance | stability | terminology
  | decisionLinks | semanticDebt | deltaEntries | unknowns | recommendedSourceReads
  | diagnostics | summaries | extractors => cases hkey

theorem eq_of_uniqueKey (h : validateReferences s sha256 = []) (hkey : uniqueKey c = some key)
    {a b : JsonValue} (ha : a ∈ s.list c) (hb : b ∈ s.list c) (heq : key a = key b) : a = b :=
  List.inj_on_of_nodup_map (nodup_uniqueKey h hkey) ha hb heq

end Unique

section Exact

variable {s : RepositorySemanticSnapshot} {sha256 : String → String}
variable {a b : JsonValue} {c : Collection} {item : JsonValue}

theorem wellFormed_item (h : validSnapshot s sha256 = true) (hitem : item ∈ s.list c) :
    item.wellFormed = true := by
  simp only [validSnapshot, wellFormed, Bool.and_eq_true] at h
  exact List.all_eq_true.1 (List.all_eq_true.1 h.1.1.2 c (mem_allCollections c)) item hitem

theorem schema_item (h : validSnapshot s sha256 = true) (hitem : item ∈ s.list c) :
    itemSchema c item = true := by
  simp only [validSnapshot, schemaAccepted, Bool.and_eq_true] at h
  have hcollection := List.all_eq_true.1 h.1.2.2 c (mem_allCollections c)
  rw [RepositorySemanticSnapshot.list] at hitem
  rw [collectionAccepted] at hcollection
  cases hitems : s.collections c with
  | none =>
    rw [hitems] at hitem
    cases hitem
  | some items =>
    rw [hitems] at hitem hcollection
    rw [Bool.and_eq_true] at hcollection
    exact List.all_eq_true.1 hcollection.1 item hitem

theorem references_valid (h : validSnapshot s sha256 = true) : validateReferences s sha256 = [] := by
  simp only [validSnapshot, Bool.and_eq_true, List.isEmpty_iff] at h
  exact h.2

structure OneItemForEachKey (s : RepositorySemanticSnapshot) : Prop where
  entries : ∀ a ∈ s.list .deltaEntries, ∀ b ∈ s.list .deltaEntries,
    textMember a "subject" = textMember b "subject" → textMember a "kind" = textMember b "kind" →
      idOf a = idOf b → a = b
  summaries : ∀ a ∈ s.list .summaries, ∀ b ∈ s.list .summaries,
    textMember a "scope" = textMember b "scope" → textMember a "targetId" = textMember b "targetId" →
      canonicalizeVerificationSummary.permuted a b
  assessments : ∀ a ∈ s.list .assessments, ∀ b ∈ s.list .assessments,
    idOf (member a "target") ++ ":" ++ textMember a "requirementId" =
        idOf (member b "target") ++ ":" ++ textMember b "requirementId" →
      canonicalizeVerificationAssessment.permuted a b

theorem distinct_snapshot_iff : canonicalizeSnapshot.distinct s ↔
    (∀ c, Canonical.DistinctKeys (canonicalizeItem c) (sortKey c) (s.list c)) ∧
      canonicalizeCommentPolicy.distinct s.commentPolicy := by
  refine and_congr_left fun _ => forall_congr' fun c => ?_
  change (∀ items ∈ s.collections c, Canonical.DistinctKeys _ _ items) ↔ _
  rw [RepositorySemanticSnapshot.list]
  cases s.collections c with
  | none => simp [Canonical.DistinctKeys]
  | some items => simp

section

variable (h : validSnapshot s sha256 = true)
include h

theorem eq_of_text (ha : a ∈ s.list c) (hb : b ∈ s.list c)
    (heq : stableStringifyValue ((canonicalizeItem c).canon a) =
      stableStringifyValue ((canonicalizeItem c).canon b)) :
    (canonicalizeItem c).canon a = (canonicalizeItem c).canon b :=
  stableStringifyValue_inj
    ((fits_item c).wellFormed a (wellFormed_item h ha) (schema_item h ha))
    ((fits_item c).wellFormed b (wellFormed_item h hb) (schema_item h hb)) heq

theorem eq_of_id (hkey : uniqueKey c = some idOf) (ha : a ∈ s.list c) (hb : b ∈ s.list c)
    (heq : idOf ((canonicalizeItem c).canon a) = idOf ((canonicalizeItem c).canon b)) :
    (canonicalizeItem c).canon a = (canonicalizeItem c).canon b := by
  rw [idOf_canon, idOf_canon] at heq
  rw [eq_of_uniqueKey (references_valid h) hkey ha hb heq]

theorem eq_of_relationKey (ha : a ∈ s.list .relations) (hb : b ∈ s.list .relations)
    (heq : sortKey .relations (canonicalizeRelation.canon a) =
      sortKey .relations (canonicalizeRelation.canon b)) :
    canonicalizeRelation.canon a = canonicalizeRelation.canon b := by
  refine eq_of_id h (c := .relations) rfl ha hb ?_
  have hmembers : ∀ v : JsonValue, sortKey .relations (canonicalizeRelation.canon v) =
      stableStringifyValue
        (.array [member v "kind", member v "from", member v "to", member v "id"]) := by
    intro v
    have hsame : ∀ name, name ≠ "provenance" →
        member (canonicalizeRelation.canon v) name = member v name := by
      intro name hname
      rw [member, canonicalizeRelation, member?_provenanceOf hname]
      rfl
    simp only [sortKey]
    rw [hsame "kind" (by decide), hsame "from" (by decide), hsame "to" (by decide),
      hsame "id" (by decide)]
  rw [hmembers, hmembers] at heq
  have hwell : ∀ {v}, v ∈ s.list .relations → ∀ w ∈ [member v "kind", member v "from",
      member v "to", member v "id"], w.wellFormed = true := by
    intro v hv w hw
    simp only [List.mem_cons, List.not_mem_nil, or_false] at hw
    rcases hw with rfl | rfl | rfl | rfl <;> exact member_wellFormed (wellFormed_item h hv) _
  have hlists := array_inj_of_text (hwell ha) (hwell hb) heq
  have hid : member a "id" = member b "id" := by
    simp only [List.cons.injEq] at hlists
    exact hlists.2.2.2.1
  rw [idOf_canon, idOf_canon, idOf, idOf, textMember, textMember, hid]

theorem eq_of_path (ha : a ∈ s.list .trackedFiles) (hb : b ∈ s.list .trackedFiles)
    (heq : sortKey .trackedFiles a = sortKey .trackedFiles b) : a = b := by
  have hpath : member a "path" = member b "path" :=
    stableStringifyValue_inj (member_wellFormed (wellFormed_item h ha) _)
      (member_wellFormed (wellFormed_item h hb) _) heq
  refine eq_of_uniqueKey (references_valid h) (c := .trackedFiles) rfl ha hb ?_
  rw [textMember, textMember, hpath]

theorem entryKey_eq_iff (ha : a ∈ s.list .deltaEntries) (hb : b ∈ s.list .deltaEntries) :
    sortKey .deltaEntries a = sortKey .deltaEntries b ↔
      textMember a "subject" = textMember b "subject" ∧
        textMember a "kind" = textMember b "kind" ∧ idOf a = idOf b := by
  have hkey : ∀ {v}, v ∈ s.list .deltaEntries → sortKey .deltaEntries v = stableStringifyValue
      (.array [.string (textMember v "subject"), .string (textMember v "kind"),
        .string (idOf v)]) := by
    intro v hv
    have hschema : semanticDeltaEntrySchema v = true := schema_item h hv
    simp only [sortKey]
    rw [member_eq_string hschema (by simp) isText_logicalId,
      member_eq_string hschema (List.mem_of_getElem? (i := 2) rfl) (isText_oneOf _),
      member_eq_string hschema (List.mem_of_getElem? (i := 0) rfl) isText_logicalId]
    rfl
  rw [hkey ha, hkey hb]
  constructor
  · intro heq
    have hlists := array_inj_of_text (by simp [JsonValue.wellFormed])
      (by simp [JsonValue.wellFormed]) heq
    simpa using hlists
  · rintro ⟨hsubject, hkind, hid⟩
    rw [hsubject, hkind, hid]

end

theorem scope_has_no_colon {summary : JsonValue} (h : verificationSummarySchema summary = true) :
    ':' ∉ (textMember summary "scope").toList := by
  obtain ⟨properties, rfl, haccepts, -⟩ := Schema.exists_of_object h
  have hscope := haccepts (Schema.required "scope" _) List.mem_cons_self
  simp only [Schema.Field.accepts, Schema.required] at hscope
  rw [textMember, member, member?]
  cases hvalue : property properties "scope" with
  | none =>
    rw [hvalue] at hscope
    cases hscope
  | some value =>
    rw [hvalue] at hscope
    obtain ⟨text, rfl⟩ := isText_oneOf _ value hscope
    have htext : text ∈ ["symbol", "component", "project"] := of_decide_eq_true hscope
    simp only [List.mem_cons, List.not_mem_nil, or_false] at htext
    rcases htext with rfl | rfl | rfl <;> decide

theorem summaryKey_eq_iff (h : validSnapshot s sha256 = true) (ha : a ∈ s.list .summaries)
    (hb : b ∈ s.list .summaries) :
    sortKey .summaries (canonicalizeVerificationSummary.canon a) =
        sortKey .summaries (canonicalizeVerificationSummary.canon b) ↔
      textMember a "scope" = textMember b "scope" ∧
        textMember a "targetId" = textMember b "targetId" := by
  have hkey : ∀ v : JsonValue, sortKey .summaries (canonicalizeVerificationSummary.canon v) =
      textMember v "scope" ++ ":" ++ textMember v "targetId" := by
    intro v
    simp only [sortKey, textMember, member, canonicalizeVerificationSummary]
    rw [member?_sortTexts _ (by decide), member?_sortTexts _ (by decide)]
  rw [hkey, hkey]
  constructor
  · intro heq
    have hlists := congrArg String.toList heq
    simp only [String.toList_append, List.append_assoc] at hlists
    change _ ++ ':' :: _ = _ ++ ':' :: _ at hlists
    obtain ⟨hscope, htarget⟩ := append_separator_inj (scope_has_no_colon (schema_item h ha))
      (scope_has_no_colon (schema_item h hb)) hlists
    exact ⟨String.toList_inj.1 hscope, String.toList_inj.1 htarget⟩
  · rintro ⟨hscope, htarget⟩
    rw [hscope, htarget]

theorem assessmentKey_canon (v : JsonValue) :
    sortKey .assessments (canonicalizeVerificationAssessment.canon v) =
      idOf (member v "target") ++ ":" ++ textMember v "requirementId" := by
  simp only [sortKey, textMember, member, canonicalizeVerificationAssessment]
  rw [member?_sortTexts _ (by decide), member?_sortTexts _ (by decide)]
  rfl

variable (h : validSnapshot s sha256 = true)
include h

theorem distinct_item {v : JsonValue} (hv : v ∈ s.list c) : (canonicalizeItem c).distinct v :=
  (fits_item c).distinct v (wellFormed_item h hv) (schema_item h hv)

theorem distinctKeys_of_valid
    (hc : c ∉ ([.deltaEntries, .assessments, .summaries] : List Collection)) :
    Canonical.DistinctKeys (canonicalizeItem c) (sortKey c) (s.list c) := by
  refine ⟨fun v hv => distinct_item h hv, fun a ha b hb heq => ?_⟩
  cases c with
  | components | capabilities | contracts | invariants | decisions | rationales | constraints
  | declaredFacts | verificationPerspectives | declaredRequirements | files | symbols | packages
  | externalDependencies | externalApis | derivedFacts | derivedRequirements | evidences | tests
  | observedFacts | verificationEvidence | analysisFacts | claims | inferredRequirements =>
    exact eq_of_id h rfl ha hb heq
  | effectPolicies | dependencyPolicies | terminology | unknowns | reviewGuidance | stability
  | decisionLinks | symbolOwnership | semanticDebt | recommendedSourceReads | diagnostics
  | extractors => exact eq_of_text h ha hb heq
  | relations => exact eq_of_relationKey h ha hb heq
  | trackedFiles => exact eq_of_path h ha hb heq
  | deltaEntries | summaries | assessments => exact absurd (by decide) hc

/-- Of the canonical form of a valid snapshot, only these keys can depend on the order. -/
theorem distinct_iff_of_valid : canonicalizeSnapshot.distinct s ↔ OneItemForEachKey s := by
  have hpolicy : canonicalizeCommentPolicy.distinct s.commentPolicy := by
    have hfits : Fits canonicalProsePolicySchema canonicalizeCommentPolicy :=
      fits_sortTexts (by decide) (by simp [Schema.required])
    simp only [validSnapshot, wellFormed, schemaAccepted, Bool.and_eq_true] at h
    refine hfits.distinct _ (List.all_eq_true.1 h.1.1.1 _ (by simp)) ?_
    exact h.1.2.1.1.1.1.1.1.2
  rw [distinct_snapshot_iff, and_iff_left hpolicy]
  constructor
  · intro hdistinct
    refine ⟨fun a ha b hb hsubject hkind hid => ?_, fun a ha b hb hscope htarget => ?_,
      fun a ha b hb hkey => ?_⟩
    · exact (hdistinct .deltaEntries).2 a ha b hb
        ((entryKey_eq_iff h ha hb).2 ⟨hsubject, hkind, hid⟩)
    · exact Canonical.permuted_of _ ((hdistinct .summaries).2 a ha b hb
        ((summaryKey_eq_iff h ha hb).2 ⟨hscope, htarget⟩))
    · refine Canonical.permuted_of _ ((hdistinct .assessments).2 a ha b hb ?_)
      exact (assessmentKey_canon a).trans (hkey.trans (assessmentKey_canon b).symm)
  · rintro ⟨hentries, hsummaries, hassessments⟩ c
    by_cases hc : c ∈ ([.deltaEntries, .assessments, .summaries] : List Collection)
    · refine ⟨fun v hv => distinct_item h hv, fun a ha b hb heq => ?_⟩
      simp only [List.mem_cons, List.not_mem_nil, or_false] at hc
      rcases hc with rfl | rfl | rfl
      · obtain ⟨hsubject, hkind, hid⟩ := (entryKey_eq_iff h ha hb).1 heq
        exact hentries a ha b hb hsubject hkind hid
      · have hkey := (assessmentKey_canon a).symm.trans (heq.trans (assessmentKey_canon b))
        exact (Canonical.canon_eq _ (distinct_item h ha) (hassessments a ha b hb hkey)).symm
      · obtain ⟨hscope, htarget⟩ := (summaryKey_eq_iff h ha hb).1 heq
        exact (Canonical.canon_eq _ (distinct_item h ha)
          (hsummaries a ha b hb hscope htarget)).symm
    · exact distinctKeys_of_valid h hc

end Exact

/-- The digests are those of the canonical form. -/
theorem digests_eq_of_canon {s s' : RepositorySemanticSnapshot} (sha256 : String → String)
    (h : canonicalizeSnapshot.canon s' = canonicalizeSnapshot.canon s) :
    computeIntegrityDigestsFromValidated s' sha256 =
      computeIntegrityDigestsFromValidated s sha256 := by
  unfold computeIntegrityDigestsFromValidated
  rw [h]

section Bare

def bareProvenance : JsonValue := .object [("kind", .string "declared"),
  ("producer", .object [("name", .string "editor"), ("version", .string "1")]),
  ("sourceRevision", .object [("repositoryId", .string "repo:example")])]

def bareProject : JsonValue := .object [("authority", .string "declared"),
  ("canonicalName", .string "example"), ("id", .string "project:example"),
  ("kind", .string "project"), ("name", .string "example"), ("provenance", bareProvenance),
  ("responsibility", .string "Serve as an example."), ("reviewLevel", .string "L1"),
  ("stability", .string "stable")]

def barePolicy : JsonValue := .object [("canonicalForm", .string "formal-english"),
  ("canonicalLanguage", .string "en"), ("humanLocalization", .string "projection"),
  ("inlineDirectives", .array []), ("jsdoc", .string "projection"),
  ("llmTokenCompression", .string "projection"), ("semanticCommentKinds", .array []),
  ("sourceCodeSemantics", .string "implementation-only")]

/-- A digest that is not checked, because the snapshot is stale. -/
def bareDigest : JsonValue :=
  contentDigest "sha256" (String.ofList (List.replicate 64 'a'))

def bareSnapshot (collections : Collection → List JsonValue) : RepositorySemanticSnapshot where
  schemaVersion := .number "2"
  modelVersion := .string "symbol-first-v1"
  repositoryIdentity := .object [("canonicalName", .string "example"),
    ("id", .string "repo:example")]
  revisionIdentity := none
  project := bareProject
  commentPolicy := barePolicy
  health := .object [("modelGaps", .number "0"), ("score", .number "0"),
    ("staleEvidence", .number "0"), ("status", .string "unknown")]
  reviewLevel := .string "L0"
  deltaVersion := .number "1"
  deltaIntent := .string "semantic-change"
  deltaUnauthorized := .boolean false
  verificationAuthority := none
  integrity := {
    repositoryId := .string "repo:example"
    git := none
    worktree := .object [("id", .string "worktree:main")]
    schemaVersion := .number "2"
    semanticStateDigest := bareDigest
    modelDigest := bareDigest
    snapshotDigest := bareDigest
    status := .string "stale"
    statusReason := some (.string "edited by hand") }
  collections := fun c => if isVerification c then none else some (collections c)

def bareEntry (summary : String) : JsonValue := .object [("id", .string "delta:contract"),
  ("kind", .string "contract"), ("reviewLevel", .string "L2"), ("subject", .string "project:example"),
  ("summary", .string summary)]

def deltaSnapshot (entries : List JsonValue) : RepositorySemanticSnapshot :=
  bareSnapshot fun c => if c = .deltaEntries then entries else []

theorem permuted_deltaSnapshot {entries entries' : List JsonValue} (h : entries.Perm entries') :
    canonicalizeSnapshot.permuted (deltaSnapshot entries) (deltaSnapshot entries') := by
  refine ⟨((deltaSnapshot entries').collections, barePolicy), ⟨fun c => ?_, ?_⟩, rfl⟩
  · by_cases hc : c = .deltaEntries
    · subst hc
      exact .some ⟨entries, Canonical.forall₂_permuted_refl _ entries, h⟩
    · have hsame : (deltaSnapshot entries').collections c =
          (deltaSnapshot entries).collections c := by
        simp only [deltaSnapshot, bareSnapshot, if_neg hc]
      change (Canonical.optional (canonicalizeCollection c)).permuted _
        ((deltaSnapshot entries').collections c)
      rw [hsame]
      exact (Canonical.optional (canonicalizeCollection c)).permuted_refl _
  · exact canonicalizeCommentPolicy.permuted_refl _

end Bare

end Mottainai.Semantics
