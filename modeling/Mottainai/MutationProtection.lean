import Mottainai.SemanticMutationService
import Mottainai.SemanticRelisting

/-!
# Protected entities and the mutations of a plan

An item of a snapshot belongs to an entity if it declares it or is attached to it. What belongs to
an entity changes only by a mutation that affects it, or by one that puts an item of others in the
place of one of its items. A mutation marks what it affects where it sees that it is protected, and
it does not see this of an entity that is only declared to be stable, or of one whose first
declaration of several is not. If no mutation of a request takes something away from a protected
entity or overlooks one, then what has changed of a protected entity is among the protected changes.
-/

namespace Mottainai.Semantics

open JsonValues JavaScriptValues SemanticIds

section Protected

/-- The entity is protected, by itself or by a declaration of its stability. -/
def Protected (s : RepositorySemanticSnapshot) (id : String) : Prop :=
  isProtectedEntity (entityOf s id) = true ∨
    ∃ item ∈ s.list .stability, subjectOf item = id ∧ isProtecting item = true

/-- The item declares the entity, or it is a policy, a guidance, a link or an ownership that is
attached to it. -/
def belongs (c : Collection) (item : JsonValue) (id : String) : Prop :=
  match c with
  | .components | .capabilities | .contracts | .invariants | .decisions | .rationales
  | .constraints => idOf item = id
  | .effectPolicies | .dependencyPolicies | .reviewGuidance => subjectOf item = id
  | .decisionLinks => subjectOf item = id ∨ textMember item "decisionId" = id
  | .terminology => id ∈ textsMember item "relatedEntityIds"
  | .symbolOwnership => textMember item "symbolId" = id ∨ text? (member? item "componentId") = some id
  | .relations => isOwnershipOf (textMember item "to") item = true ∧
      (textMember item "from" = id ∨ textMember item "to" = id)
  | _ => False

/-- Something that belongs to the entity is in one of the snapshots only. -/
def Differs (s s' : RepositorySemanticSnapshot) (id : String) : Prop :=
  ∃ c item, belongs c item id ∧ ¬ (item ∈ s.list c ↔ item ∈ s'.list c)

theorem Differs.trans {s s' s'' : RepositorySemanticSnapshot} {id : String} (h : Differs s s'' id) :
    Differs s s' id ∨ Differs s' s'' id := by
  obtain ⟨c, item, hbelongs, hitem⟩ := h
  by_cases hfirst : item ∈ s.list c ↔ item ∈ s'.list c
  · exact Or.inr ⟨c, item, hbelongs, fun hsecond => hitem (hfirst.trans hsecond)⟩
  · exact Or.inl ⟨c, item, hbelongs, hfirst⟩

end Protected

section Lists

variable {s : RepositorySemanticSnapshot} {c c' : Collection} {items : List JsonValue}
  {keyOf : JsonValue → String} {value item : JsonValue} {name : String}

@[simp] theorem list_withList_same : (s.withList c items).list c = items := by
  simp [RepositorySemanticSnapshot.withList, RepositorySemanticSnapshot.list]

theorem list_withList_other (h : c' ≠ c) : (s.withList c items).list c' = s.list c' := by
  simp [RepositorySemanticSnapshot.withList, RepositorySemanticSnapshot.list, h]

@[simp] theorem project_withList : (s.withList c items).project = s.project := rfl

theorem replaceByKey_cases (values : List JsonValue) :
    (values.find? (fun item => keyOf item = keyOf value) = none ∧
      replaceByKey keyOf values value = values ++ [value]) ∨
    ∃ before old after, values = before ++ old :: after ∧
      values.find? (fun item => keyOf item = keyOf value) = some old ∧ keyOf old = keyOf value ∧
      replaceByKey keyOf values value = before ++ value :: after := by
  unfold replaceByKey
  cases hindex : values.findIdx? (fun item => keyOf item = keyOf value) with
  | none =>
    left
    rw [List.findIdx?_eq_none_iff] at hindex
    exact ⟨List.find?_eq_none.2 fun item hitem => by simpa using hindex item hitem, rfl⟩
  | some index =>
    right
    obtain ⟨hlt, hkey, hbefore⟩ := List.findIdx?_eq_some_iff_getElem.1 hindex
    refine ⟨values.take index, values[index], values.drop (index + 1), ?_, ?_, by simpa using hkey, ?_⟩
    · rw [List.getElem_cons_drop, List.take_append_drop]
    · rw [List.find?_eq_some_iff_getElem]
      exact ⟨hkey, index, hlt, rfl, fun j hj => by simpa using hbefore j hj⟩
    · change values.set index value = _
      rw [List.set_eq_take_append_cons_drop, if_pos hlt]

/-- What is put in or taken out. -/
theorem mem_replaceByKey {values : List JsonValue}
    (h : ¬ (item ∈ values ↔ item ∈ replaceByKey keyOf values value)) :
    item = value ∨ values.find? (fun item => keyOf item = keyOf value) = some item := by
  rcases @replaceByKey_cases keyOf value values with
    ⟨-, heq⟩ | ⟨before, old, after, rfl, hfind, -, heq⟩
  · rw [heq] at h
    by_contra hne
    push Not at hne
    exact h (by simp [hne.1])
  · rw [heq] at h
    by_contra hne
    push Not at hne
    have hold : item ≠ old := fun hold => hne.2 (hold ▸ hfind)
    exact h (by simp [hne.1, hold])

variable {other : String}

theorem property_insertMember_other (h : other ≠ name) (properties : Properties) :
    property (insertMember name value properties) other = property properties other := by
  have hname : ¬ name = other := fun heq => h heq.symm
  induction properties with
  | nil => simp [insertMember, property, hname]
  | cons entry properties ih =>
    simp only [property] at ih
    unfold insertMember
    split
    · next hentry =>
      have hentry' : ¬ entry.1 = other := hentry ▸ hname
      simp [property, hname, hentry']
    · split
      · simp [property, List.find?_cons, hname]
      · simp only [property, List.find?_cons]
        split
        · rfl
        · exact ih

theorem member?_withMember_other (h : other ≠ name) (item : JsonValue) :
    member? (withMember name value item) other = member? item other := by
  cases item with
  | object properties => exact property_insertMember_other h properties
  | _ => rfl

theorem textMember_declared (hauthority : other ≠ "authority")
    (hprovenance : other ≠ "provenance") (item : JsonValue) :
    textMember (entityWithDeclaredAuthority item value) other = textMember item other := by
  rw [textMember, member, entityWithDeclaredAuthority, member?_withMember_other hprovenance,
    member?_withMember_other hauthority]
  rfl

end Lists

section Overlooking

variable (before : RepositorySemanticSnapshot)

def declaredFirst (id : String) : Bool :=
  ((before.list .stability).find? fun item => subjectOf item = id).any isProtecting

/-- The item with the key of the new one is taken away from the entity. -/
def takesAway (c : Collection) (keyOf : JsonValue → String) (value : JsonValue) (id : String) : Prop :=
  ∃ old, (before.list c).find? (fun item => keyOf item = keyOf value) = some old ∧
    belongs c old id ∧ ¬ belongs c value id

def selectedSymbol (selector : SymbolSelector) (resolver : SymbolBindingResolver) :
    Option JsonValue := (resolveSymbol before selector resolver).1

def relatedOwners (symbolId : String) : List String :=
  ((before.list .relations).filter (isOwnershipOf symbolId)).map (textMember · "from")

/-- The declaration of the ownership of a symbol names the entity, but neither a relation nor the new
ownership does. -/
def forgetsOwner (selector : SymbolSelector) (ownership : SymbolOwnershipInput)
    (resolver : SymbolBindingResolver) (id : String) : Prop :=
  ∃ symbol old, selectedSymbol before selector resolver = some symbol ∧
    old ∈ before.list .symbolOwnership ∧ belongs .symbolOwnership old id ∧ id ≠ idOf symbol ∧
    id ∉ relatedOwners before (idOf symbol) ∧ id ∉ ownership.owners

/-- Something that belongs to the entity is replaced by something that does not. -/
def Moved (resolver : SymbolBindingResolver) (mutation : SemanticMutation) (id : String) : Prop :=
  match mutation with
  | .effectPolicy policy => takesAway before .effectPolicies idOf policy id
  | .dependencyPolicy policy => takesAway before .dependencyPolicies idOf policy id
  | .reviewGuidance guidance => takesAway before .reviewGuidance idOf guidance id
  | .decisionLink link => takesAway before .decisionLinks decisionLinkKey link id
  | .terminology link => ∃ old ∈ before.list .terminology,
      textMember old "term" = textMember link "term" ∧ belongs .terminology old id ∧
        ¬ belongs .terminology link id
  | .symbolOwnership selector ownership => forgetsOwner before selector ownership resolver id
  | _ => False

/-- The mutation is about the entity, but does not see that it is protected: an entity that is only
declared to be, or one whose first declaration of several does not say so. -/
def Unseen (resolver : SymbolBindingResolver) (mutation : SemanticMutation) (id : String) : Prop :=
  match mutation with
  | .component value | .capability value | .contract value | .invariant value | .constraint value =>
      id = idOf value ∧ isProtectedEntity (entityOf before id) = false ∧
        isProtectedEntity (some value) = false
  | .decision value => id = idOf value ∧ isProtectedEntity (some value) = false
  | .rationale value => id = idOf value ∧ isProtectedSubject (before.replace .rationales idOf
      (entityWithDeclaredAuthority value (declaredProvenance before))) id = false
  | .effectPolicy policy | .dependencyPolicy policy =>
      id = subjectOf policy ∧ isProtectedSubject before id = false
  | .reviewGuidance guidance => id = subjectOf guidance ∧ isProtectedSubject before id = false ∧
      textMember guidance "level" ≠ "L3" ∧
      ∀ old, (before.list .reviewGuidance).find? (fun item => idOf item = idOf guidance) = some old →
        textMember old "level" ≠ "L3"
  | .decisionLink link => (id = subjectOf link ∨ id = textMember link "decisionId") ∧
      isProtectedSubject before id = false
  | .terminology link => id ∈ textsMember link "relatedEntityIds" ∧
      isProtectedSubject before id = false
  | .symbolOwnership selector ownership => isProtectedSubject before id = false ∧
      ∃ symbol, selectedSymbol before selector resolver = some symbol ∧
        (id = idOf symbol ∨ id ∈ relatedOwners before (idOf symbol) ∨ id ∈ ownership.owners)
  | .stability _ | .semanticDebt _ => False

/-- Nothing is moved away from an entity that was protected in the base snapshot, and the protection
of none is overlooked. -/
structure Attentive (base : RepositorySemanticSnapshot) (resolver : SymbolBindingResolver)
    (mutation : SemanticMutation) : Prop where
  moved : ∀ id, Protected base id → ¬ Moved before resolver mutation id
  unseen : ∀ id, Protected before id → ¬ Unseen before resolver mutation id

end Overlooking

section Entities

variable {s : RepositorySemanticSnapshot} {c : Collection} {items : List JsonValue} {id : String}

theorem entityOf_withList_other (h : c ∉ entityCollections) :
    entityOf (s.withList c items) id = entityOf s id := by
  have hlists : entityCollections.flatMap (s.withList c items).list =
      entityCollections.flatMap s.list := by
    rw [List.flatMap_def, List.flatMap_def]
    refine congrArg List.flatten (List.map_congr_left fun c' hc' => list_withList_other ?_)
    rintro rfl
    exact h hc'
  rw [entityOf, entityOf, entities_eq, entities_eq, hlists, project_withList]

theorem isProtectedSubject_withList_other (h : c ∉ entityCollections) (hstability : c ≠ .stability) :
    isProtectedSubject (s.withList c items) id = isProtectedSubject s id := by
  rw [isProtectedSubject, isProtectedSubject, entityOf_withList_other h,
    list_withList_other hstability.symm]

theorem protected_withList_other (h : c ∉ entityCollections) (hstability : c ≠ .stability) :
    Protected (s.withList c items) id ↔ Protected s id := by
  rw [Protected, Protected, entityOf_withList_other h, list_withList_other hstability.symm]

variable {value : JsonValue}

theorem find?_replaceByKey_other {values : List JsonValue} (hid : id ≠ idOf value) :
    (replaceByKey idOf values value).find? (fun item => idOf item = id) =
      values.find? fun item => idOf item = id := by
  have hvalue : ¬ idOf value = id := fun heq => hid heq.symm
  rcases @replaceByKey_cases idOf value values with
    ⟨-, heq⟩ | ⟨before, old, after, rfl, -, hold, heq⟩
  · rw [heq, List.find?_append]
    simp [hvalue]
  · have hold' : ¬ idOf old = id := hold ▸ hvalue
    rw [heq, List.find?_append, List.find?_append]
    simp [hvalue, hold']

/-- Another entity is found as before. -/
theorem entityOf_replace_other (hid : id ≠ idOf value) :
    entityOf (s.replace c idOf value) id = entityOf s id := by
  have hlists : ∀ c', ((s.replace c idOf value).list c').find? (fun item => idOf item = id) =
      (s.list c').find? fun item => idOf item = id := by
    intro c'
    by_cases hc : c' = c
    · subst hc
      rw [RepositorySemanticSnapshot.replace, list_withList_same, find?_replaceByKey_other hid]
    · rw [RepositorySemanticSnapshot.replace, list_withList_other hc]
  rw [entityOf, entityOf, entities_eq, entities_eq, List.find?_cons, List.find?_cons,
    List.find?_flatMap, List.find?_flatMap]
  simp only [hlists]
  rfl

end Entities

section Steps

variable {base s : RepositorySemanticSnapshot} {resolver : SymbolBindingResolver}
  {mutation : SemanticMutation} {applied : Applied} {id : String}

theorem isProtecting_declared (value provenance : JsonValue) :
    isProtecting (entityWithDeclaredAuthority value provenance) = isProtecting value := by
  rw [isProtecting, isProtecting, textMember_declared (by decide) (by decide)]

theorem isProtectedEntity_declared (value provenance : JsonValue) :
    isProtectedEntity (some (entityWithDeclaredAuthority value provenance)) =
      isProtectedEntity (some value) := by
  have htext : ∀ name ∈ ["kind", "reviewLevel", "enforcement"],
      textMember (entityWithDeclaredAuthority value provenance) name = textMember value name := by
    intro name hname
    apply textMember_declared
    · rintro rfl
      exact absurd hname (by decide)
    · rintro rfl
      exact absurd hname (by decide)
  simp only [isProtectedEntity, isProtecting_declared, htext "kind" (by decide),
    htext "reviewLevel" (by decide), htext "enforcement" (by decide)]

theorem idOf_declared (value provenance : JsonValue) :
    idOf (entityWithDeclaredAuthority value provenance) = idOf value :=
  textMember_declared (by decide) (by decide) value

variable {ownership : SymbolOwnershipInput} {c : Collection} {keyOf : JsonValue → String}
variable {selector : SymbolSelector} {input : JsonValue} {item : JsonValue}
variable {relations : List JsonValue} {marks : List String} {value : JsonValue} {link : JsonValue}

/-- Only one collection is changed, by one item that is put in and one that is taken out. -/
theorem differs_replace (h : Differs s (s.replace c keyOf value) id) :
    belongs c value id ∨ ∃ old, (s.list c).find? (fun item => keyOf item = keyOf value) = some old ∧
      belongs c old id := by
  obtain ⟨c', item, hbelongs, hitem⟩ := h
  by_cases hc : c' = c
  · subst hc
    rw [RepositorySemanticSnapshot.replace, list_withList_same] at hitem
    rcases mem_replaceByKey hitem with rfl | hold
    · exact Or.inl hbelongs
    · exact Or.inr ⟨item, hold, hbelongs⟩
  · rw [RepositorySemanticSnapshot.replace, list_withList_other hc] at hitem
    exact absurd Iff.rfl hitem

/-- Unless an item is taken away from the entity, the new one belongs to it. -/
theorem belongs_of_differs_replace (h : Differs s (s.replace c keyOf value) id)
    (hmoved : ¬ takesAway s c keyOf value id) : belongs c value id := by
  rcases differs_replace h with hvalue | ⟨old, hold, hbelongs⟩
  · exact hvalue
  · by_contra hvalue
    exact hmoved ⟨old, hold, hbelongs, hvalue⟩

/-- What a mutation does for an entity, where something of it differs afterwards: it affects it, and
if it does not overlook that it is protected, it marks it. -/
structure Touches (s : RepositorySemanticSnapshot) (applied : Applied) (id : String) (unseen : Prop) :
    Prop where
  affected : id ∈ applied.affected
  marked : Protected s id → ¬ unseen → id ∈ applied.protectedChanges

/-- A mark of one entity under a condition. -/
theorem mem_mark {p : Bool} {id' : String} : id ∈ (if p then [id'] else []) ↔ p = true ∧ id = id' := by
  cases p <;> simp

theorem mem_markProtectedSubjects {ids : List String} :
    id ∈ markProtectedSubjects s ids ↔ id ∈ ids ∧ isProtectedSubject s id = true := List.mem_filter

/-- What is taken out for an entity has the identifier of the entity. -/
theorem eq_idOf_of_differs (hbelongs : ∀ item id, belongs c item id ↔ idOf item = id)
    (h : Differs s (s.replace c idOf (entityWithDeclaredAuthority input (declaredProvenance s)))
      id) : id = idOf input := by
  rcases differs_replace h with hvalue | ⟨old, hold, hitem⟩
  · rw [hbelongs, idOf_declared] at hvalue
    exact hvalue.symm
  · have hkey : idOf old = idOf (entityWithDeclaredAuthority input (declaredProvenance s)) := by
      simpa using List.find?_some hold
    rw [hbelongs, hkey, idOf_declared] at hitem
    exact hitem.symm

theorem touches_entity (hbelongs : ∀ item id, belongs c item id ↔ idOf item = id)
    (h : Differs s (applyEntity s c input).snapshot id) :
    Touches s (applyEntity s c input) id (id = idOf input ∧
      isProtectedEntity (entityOf s id) = false ∧ isProtectedEntity (some input) = false) := by
  have hid := eq_idOf_of_differs hbelongs h
  refine ⟨List.mem_singleton.2 (hid.trans (idOf_declared _ _).symm), fun _ hunseen => ?_⟩
  change id ∈ (if isProtectedEntity (entityOf s (idOf input)) ||
    isProtectedEntity (some (entityWithDeclaredAuthority input (declaredProvenance s))) then
      [idOf (entityWithDeclaredAuthority input (declaredProvenance s))] else [])
  rw [mem_mark, isProtectedEntity_declared, idOf_declared, ← hid]
  refine ⟨?_, rfl⟩
  by_contra hneither
  rw [Bool.not_eq_true, Bool.or_eq_false_iff] at hneither
  exact hunseen ⟨hid, hneither⟩

theorem touches_rationale (h : Differs s (applyRationale s input).snapshot id) :
    Touches s (applyRationale s input) id (id = idOf input ∧
      isProtectedSubject (applyRationale s input).snapshot id = false) := by
  have hid := eq_idOf_of_differs (fun _ _ => Iff.rfl) h
  have haffected := List.mem_singleton.2 (hid.trans (idOf_declared input (declaredProvenance s)).symm)
  refine ⟨haffected, fun _ hunseen => mem_markProtectedSubjects.2 ⟨haffected, ?_⟩⟩
  by_contra hprotected
  exact hunseen ⟨hid, Bool.eq_false_iff.2 hprotected⟩

theorem touches_decision (h : Differs s (applyDecision s input).snapshot id) :
    Touches s (applyDecision s input) id
      (id = idOf input ∧ isProtectedEntity (some input) = false) := by
  have hid := eq_idOf_of_differs (fun _ _ => Iff.rfl) h
  refine ⟨List.mem_singleton.2 (hid.trans (idOf_declared _ _).symm), fun _ hunseen => ?_⟩
  refine mem_mark.2 ⟨?_, hid.trans (idOf_declared _ _).symm⟩
  rw [isProtectedEntity_declared]
  by_contra hprotected
  exact hunseen ⟨hid, Bool.eq_false_iff.2 hprotected⟩

theorem touches_about (hbelongs : ∀ item id, belongs c item id ↔ subjectOf item = id)
    (hentity : c ∉ entityCollections) (hstability : c ≠ .stability)
    (h : Differs s (applyAbout s c idOf item marks).snapshot id)
    (hmoved : ¬ takesAway s c idOf item id) :
    Touches s (applyAbout s c idOf item marks) id
      (id = subjectOf item ∧ isProtectedSubject s id = false ∧ id ∉ marks) := by
  have hid : id = subjectOf item := ((hbelongs _ _).1 (belongs_of_differs_replace h hmoved)).symm
  refine ⟨List.mem_singleton.2 hid, fun _ hunseen => List.mem_append.2 ?_⟩
  by_contra hneither
  rw [not_or, mem_markProtectedSubjects, RepositorySemanticSnapshot.replace,
    isProtectedSubject_withList_other hentity hstability] at hneither
  refine hunseen ⟨hid, ?_, hneither.1⟩
  exact Bool.eq_false_iff.2 fun hprotected => hneither.2 ⟨List.mem_singleton.2 hid, hprotected⟩

theorem touches_decisionLink (h : Differs s (applyDecisionLink s link).snapshot id)
    (hmoved : ¬ takesAway s .decisionLinks decisionLinkKey link id) :
    Touches s (applyDecisionLink s link) id
      ((id = subjectOf link ∨ id = textMember link "decisionId") ∧
        isProtectedSubject s id = false) := by
  have hid : id = subjectOf link ∨ id = textMember link "decisionId" :=
    (belongs_of_differs_replace h hmoved).imp Eq.symm Eq.symm
  have haffected : id ∈ [subjectOf link, textMember link "decisionId"] := by simpa using hid
  refine ⟨haffected, fun _ hunseen => mem_markProtectedSubjects.2 ⟨haffected, ?_⟩⟩
  rw [RepositorySemanticSnapshot.replace, isProtectedSubject_withList_other (by decide) (by decide)]
  by_contra hprotected
  exact hunseen ⟨hid, Bool.eq_false_iff.2 hprotected⟩

theorem touches_terminology (h : Differs s (applyTerminology s link).snapshot id)
    (hmoved : ¬ Moved s resolver (.terminology link) id) :
    Touches s (applyTerminology s link) id
      (id ∈ textsMember link "relatedEntityIds" ∧ isProtectedSubject s id = false) := by
  have hid : id ∈ textsMember link "relatedEntityIds" := by
    obtain ⟨c, item, hbelongs, hitem⟩ := h
    by_cases hc : c = .terminology
    · subst hc
      change ¬ (_ ↔ item ∈ (s.withList _ _).list _) at hitem
      rw [list_withList_same, List.mem_append, List.mem_filter, List.mem_singleton] at hitem
      by_cases hterm : textMember item "term" = textMember link "term"
      · by_cases hnew : item = link
        · exact hnew ▸ hbelongs
        · by_contra hrelated
          have hmem : item ∈ s.list .terminology := by simpa [hterm, hnew] using hitem
          exact hmoved ⟨item, hmem, hterm, hbelongs, hrelated⟩
      · have hnew : item ≠ link := fun heq => hterm (heq ▸ rfl)
        exact absurd (by simp [hterm, hnew]) hitem
    · change ¬ (_ ↔ item ∈ (s.withList _ _).list _) at hitem
      rw [list_withList_other hc] at hitem
      exact absurd Iff.rfl hitem
  refine ⟨?_, fun _ hunseen => mem_markProtectedSubjects.2 ⟨hid, ?_⟩⟩
  · change id ∈ if textsMember link "relatedEntityIds" = [] then _ else _
    rw [if_neg (List.ne_nil_of_mem hid)]
    exact hid
  · rw [isProtectedSubject_withList_other (by decide) (by decide)]
    by_contra hprotected
    exact hunseen ⟨hid, Bool.eq_false_iff.2 hprotected⟩

theorem ends_ownershipRelation {kind source target : String} {relation : JsonValue}
    (h : ownershipRelation s kind source target = .ok relation) :
    textMember relation "from" = source ∧ textMember relation "to" = target := by
  obtain ⟨edge, -, hrelation⟩ := bind_eq_ok.1 h
  cases hrelation
  exact ⟨rfl, rfl⟩

theorem ends_ownershipRelations {kind target : String} {owners : List String}
    (h : owners.mapM (fun owner => ownershipRelation s kind owner target) = .ok relations) :
    ∀ relation ∈ relations, textMember relation "from" ∈ owners ∧ textMember relation "to" = target := by
  induction owners generalizing relations with
  | nil =>
    cases h
    simp
  | cons owner owners ih =>
    rw [List.mapM_cons] at h
    obtain ⟨first, hfirst, h⟩ := bind_eq_ok.1 h
    obtain ⟨others, hothers, h⟩ := bind_eq_ok.1 h
    cases h
    intro relation hrelation
    rcases List.mem_cons.1 hrelation with rfl | hother
    · obtain ⟨hfrom, hto⟩ := ends_ownershipRelation hfirst
      exact ⟨hfrom ▸ List.mem_cons_self, hto⟩
    · obtain ⟨hfrom, hto⟩ := ih hothers relation hother
      exact ⟨List.mem_cons_of_mem owner hfrom, hto⟩

theorem applyOwnership_cases (h : applyOwnership s selector ownership resolver = .ok applied) :
    applied.snapshot = s ∨ ∃ symbol declared relations,
      selectedSymbol s selector resolver = some symbol ∧
      (∀ relation ∈ relations, textMember relation "from" ∈ ownership.owners ∧
        textMember relation "to" = idOf symbol) ∧
      applied.snapshot =
        (s.replace .symbolOwnership idOf (ownership.declaration declared (idOf symbol))).withList
          .relations (((s.list .relations).filter fun relation =>
            !isOwnershipOf (idOf symbol) relation) ++ relations) ∧
      applied.affected = idOf symbol :: relatedOwners s (idOf symbol) ++ ownership.owners ∧
      applied.protectedChanges = markProtectedSubjects s applied.affected := by
  unfold applyOwnership at h
  cases hresolved : resolveSymbol s selector resolver with
  | mk symbol rest =>
    obtain ⟨resolution, diagnostics⟩ := rest
    rw [hresolved] at h
    cases symbol with
    | none =>
      cases h
      exact Or.inl rfl
    | some symbol =>
      dsimp only at h
      split at h
      · cases h
        exact Or.inl rfl
      · obtain ⟨declared, -, h⟩ := bind_eq_ok.1 h
        obtain ⟨relations, hrelations, h⟩ := bind_eq_ok.1 h
        cases h
        refine Or.inr ⟨symbol, String.ofList declared, relations, ?_, ?_, rfl, rfl, rfl⟩
        · rw [selectedSymbol, hresolved]
        · exact ends_ownershipRelations hrelations

theorem belongs_declaration {declared symbolId : String}
    (h : belongs .symbolOwnership (ownership.declaration declared symbolId) id) :
    id = symbolId ∨ id ∈ ownership.owners := by
  cases ownership with
  | managed componentId =>
    rcases h with hsymbol | hcomponent
    · exact Or.inl hsymbol.symm
    · exact Or.inr (List.mem_singleton.2 (Option.some.inj hcomponent).symm)
  | shared sharedComponentIds =>
    rcases h with hsymbol | hcomponent
    · exact Or.inl hsymbol.symm
    · exact absurd hcomponent (by simp [SymbolOwnershipInput.declaration, member?, property, text?])

theorem belongs_ownership {symbolId : String} (hitem : item ∈ s.list .relations)
    (howner : isOwnershipOf symbolId item = true) (h : belongs .relations item id) :
    id = symbolId ∨ id ∈ relatedOwners s symbolId := by
  have hto : textMember item "to" = symbolId := by
    simp only [isOwnershipOf, Bool.and_eq_true, decide_eq_true_eq] at howner
    exact howner.2
  rcases h.2 with hid | hid
  · exact Or.inr (List.mem_map.2 ⟨item, List.mem_filter.2 ⟨hitem, howner⟩, hid⟩)
  · exact Or.inl (hid.symm.trans hto)

theorem affected_ownership {symbol : JsonValue} {declared : String}
    (hsymbol : selectedSymbol s selector resolver = some symbol)
    (hrelations : ∀ relation ∈ relations, textMember relation "from" ∈ ownership.owners ∧
      textMember relation "to" = idOf symbol)
    (h : Differs s ((s.replace .symbolOwnership idOf
      (ownership.declaration declared (idOf symbol))).withList .relations
        (((s.list .relations).filter fun relation => !isOwnershipOf (idOf symbol) relation) ++
          relations)) id) (hmoved : ¬ forgetsOwner s selector ownership resolver id) :
    id = idOf symbol ∨ id ∈ relatedOwners s (idOf symbol) ∨ id ∈ ownership.owners := by
  obtain ⟨c, item, hbelongs, hitem⟩ := h
  by_cases hrelation : c = .relations
  · subst hrelation
    rw [list_withList_same, List.mem_append, List.mem_filter] at hitem
    by_cases hnew : item ∈ relations
    · obtain ⟨hfrom, hto⟩ := hrelations item hnew
      rcases hbelongs.2 with hid | hid
      · exact Or.inr (Or.inr (hid ▸ hfrom))
      · exact Or.inl (hid.symm.trans hto)
    · have hold : item ∈ s.list .relations ∧ isOwnershipOf (idOf symbol) item = true := by
        by_contra hneither
        apply hitem
        simp only [hnew, or_false, Bool.not_eq_true']
        rw [not_and, Bool.not_eq_true] at hneither
        exact ⟨fun hmem => ⟨hmem, hneither hmem⟩, And.left⟩
      exact (belongs_ownership hold.1 hold.2 hbelongs).imp_right Or.inl
  · rw [list_withList_other hrelation] at hitem
    rcases differs_replace ⟨c, item, hbelongs, hitem⟩ with hvalue | ⟨old, hold, hbelongs⟩
    · exact (belongs_declaration hvalue).imp_right Or.inr
    · by_contra hneither
      push Not at hneither
      exact hmoved ⟨symbol, old, hsymbol, List.mem_of_find?_eq_some hold, hbelongs, hneither⟩

theorem touches_ownership (happlied : applyOwnership s selector ownership resolver = .ok applied)
    (h : Differs s applied.snapshot id) (hmoved : ¬ forgetsOwner s selector ownership resolver id) :
    Touches s applied id (Unseen s resolver (.symbolOwnership selector ownership) id) := by
  rcases applyOwnership_cases happlied with
    hsame | ⟨symbol, declared, relations, hsymbol, hrelations, hsnapshot, haffected, hmarked⟩
  · obtain ⟨c, item, -, hitem⟩ := h
    rw [hsame] at hitem
    exact absurd Iff.rfl hitem
  · rw [hsnapshot] at h
    have hid := affected_ownership hsymbol hrelations h hmoved
    have hmem : id ∈ applied.affected := by
      rw [haffected]
      simpa [or_assoc] using hid
    refine ⟨hmem, fun _ hunseen => ?_⟩
    rw [hmarked, mem_markProtectedSubjects]
    refine ⟨hmem, ?_⟩
    by_contra hprotected
    exact hunseen ⟨Bool.eq_false_iff.2 hprotected, symbol, hsymbol, hid⟩

theorem not_differs_about (hbelongs : ∀ item id, ¬ belongs c item id) :
    ¬ Differs s (applyAbout s c keyOf item marks).snapshot id := by
  intro h
  rcases differs_replace h with hvalue | ⟨old, -, hold⟩
  · exact hbelongs item id hvalue
  · exact hbelongs old id hold

/-- The step lemma: what belongs to an entity is changed by a mutation that affects the entity, and
marks it if it sees that it is protected. -/
theorem applyMutation_touches (happlied : applyMutation s mutation resolver = .ok applied)
    (h : Differs s applied.snapshot id) (hmoved : ¬ Moved s resolver mutation id) :
    Touches s applied id (Unseen s resolver mutation id) := by
  cases mutation with
  | component value | capability value | contract value | invariant value | constraint value =>
    cases happlied
    exact touches_entity (fun _ _ => Iff.rfl) h
  | symbolOwnership selector ownership => exact touches_ownership happlied h hmoved
  | rationale value =>
    cases happlied
    exact touches_rationale h
  | decision value =>
    cases happlied
    exact touches_decision h
  | decisionLink link =>
    cases happlied
    exact touches_decisionLink h hmoved
  | effectPolicy policy | dependencyPolicy policy =>
    cases happlied
    have htouches := touches_about (fun _ _ => Iff.rfl) (by decide) (by decide) h hmoved
    exact ⟨htouches.affected, fun hprotected hunseen =>
      htouches.marked hprotected fun hall => hunseen ⟨hall.1, hall.2.1⟩⟩
  | reviewGuidance guidance =>
    cases happlied
    have htouches := touches_about (fun _ _ => Iff.rfl) (by decide) (by decide) h hmoved
    refine ⟨htouches.affected, fun hprotected hunseen => htouches.marked hprotected fun hall => ?_⟩
    refine hunseen ⟨hall.1, hall.2.1, ?_⟩
    have hraised := hall.2.2
    rw [mem_mark] at hraised
    have hlevel : ¬ (((s.list .reviewGuidance).find? fun item => idOf item = idOf guidance).any
        (fun item => textMember item "level" = "L3") || textMember guidance "level" = "L3") = true :=
      fun hlevel => hraised ⟨hlevel, hall.1⟩
    rw [Bool.not_eq_true, Bool.or_eq_false_iff] at hlevel
    refine ⟨by simpa using hlevel.2, fun old hold => ?_⟩
    rw [hold] at hlevel
    simpa using hlevel.1
  | terminology link =>
    cases happlied
    exact touches_terminology h hmoved
  | stability declaration =>
    cases happlied
    exact absurd h (not_differs_about (c := .stability) fun _ _ hfalse => hfalse)
  | semanticDebt debt =>
    cases happlied
    exact absurd h (not_differs_about (c := .semanticDebt) fun _ _ hfalse => hfalse)

end Steps

section Staying

variable {s : RepositorySemanticSnapshot} {resolver : SymbolBindingResolver}
  {mutation : SemanticMutation} {applied : Applied} {id : String}

variable {c : Collection}

theorem protected_replace_other (hc : c ≠ .stability) {value : JsonValue} (hid : id ≠ idOf value) :
    Protected (s.replace c idOf value) id ↔ Protected s id := by
  rw [Protected, Protected, entityOf_replace_other hid, RepositorySemanticSnapshot.replace,
    list_withList_other hc.symm]

theorem stays_entity (hc : c ≠ .stability) {input : JsonValue} (h : Protected s id) :
    id ∈ (applyEntity s c input).protectedChanges ∨
      Protected (applyEntity s c input).snapshot id := by
  by_cases hid : id = idOf input
  · rcases h with hown | hdeclared
    · left
      refine mem_mark.2 ⟨?_, hid.trans (idOf_declared _ _).symm⟩
      rw [← hid, hown, Bool.true_or]
    · right
      refine Or.inr ?_
      change ∃ item ∈ (s.withList c _).list .stability, _
      rwa [list_withList_other hc.symm]
  · exact Or.inr ((protected_replace_other hc fun heq => hid (heq.trans (idOf_declared _ _))).2 h)

theorem stays_stability {declaration : JsonValue} (h : Protected s id) :
    id ∈ (applyStability s declaration).protectedChanges ∨
      Protected (applyStability s declaration).snapshot id := by
  have hlists : (applyStability s declaration).snapshot =
      s.withList .stability (replaceByKey subjectOf (s.list .stability) declaration) := rfl
  rcases h with hown | ⟨item, hitem, hsubject, hprotecting⟩
  · right
    refine Or.inl ?_
    rwa [hlists, entityOf_withList_other (by decide)]
  · by_cases hkept : item ∈ replaceByKey subjectOf (s.list .stability) declaration
    · right
      refine Or.inr ⟨item, ?_, hsubject, hprotecting⟩
      rwa [hlists, list_withList_same]
    · left
      rcases mem_replaceByKey (fun hiff => hkept (hiff.1 hitem)) with rfl | hfind
      · refine List.mem_append.2 (Or.inl (mem_mark.2 ⟨?_, hsubject.symm⟩))
        rw [hprotecting, Bool.or_true]
      · have hkey : subjectOf item = subjectOf declaration := by simpa using List.find?_some hfind
        refine List.mem_append.2 (Or.inl (mem_mark.2 ⟨?_, hsubject.symm.trans hkey⟩))
        rw [hfind, Option.any_some, hprotecting, Bool.true_or]

/-- An entity stays protected until a mutation marks it, unless one overlooks that it is. -/
theorem applyMutation_stays (happlied : applyMutation s mutation resolver = .ok applied)
    (h : Protected s id) (hseen : ¬ Unseen s resolver mutation id) :
    id ∈ applied.protectedChanges ∨ Protected applied.snapshot id := by
  cases mutation with
  | component value | capability value | contract value | invariant value | constraint value =>
    cases happlied
    exact stays_entity (by decide) h
  | symbolOwnership selector ownership =>
    right
    rcases applyOwnership_cases happlied with
      hsame | ⟨symbol, declared, relations, -, -, hsnapshot, -, -⟩
    · rwa [hsame]
    · rw [hsnapshot, protected_withList_other (by decide) (by decide),
        RepositorySemanticSnapshot.replace, protected_withList_other (by decide) (by decide)]
      exact h
  | rationale value =>
    cases happlied
    by_cases hid : id = idOf value
    · left
      refine mem_markProtectedSubjects.2 ⟨List.mem_singleton.2 (hid.trans (idOf_declared _ _).symm), ?_⟩
      by_contra hprotected
      exact hseen ⟨hid, Bool.eq_false_iff.2 hprotected⟩
    · exact Or.inr ((protected_replace_other (by decide)
        fun heq => hid (heq.trans (idOf_declared _ _))).2 h)
  | decision value =>
    cases happlied
    by_cases hid : id = idOf value
    · left
      refine mem_mark.2 ⟨?_, hid.trans (idOf_declared _ _).symm⟩
      rw [isProtectedEntity_declared]
      by_contra hprotected
      exact hseen ⟨hid, Bool.eq_false_iff.2 hprotected⟩
    · exact Or.inr ((protected_replace_other (by decide)
        fun heq => hid (heq.trans (idOf_declared _ _))).2 h)
  | decisionLink value | effectPolicy value | dependencyPolicy value | reviewGuidance value
  | terminology value | semanticDebt value =>
    cases happlied
    exact Or.inr ((protected_withList_other (by decide) (by decide)).2 h)
  | stability declaration =>
    cases happlied
    exact stays_stability h

end Staying

section Overlooked

variable {s : RepositorySemanticSnapshot} {resolver : SymbolBindingResolver}
  {mutation : SemanticMutation} {applied : Applied} {id : String}

end Overlooked

open SemanticDiff (ReviewLevel)

section Rounds

structure Round where
  before : RepositorySemanticSnapshot
  mutation : SemanticMutation
  applied : Applied

def Round.after (round : Round) : RepositorySemanticSnapshot := round.applied.snapshot

/-- The rounds of the loop of `buildCandidate`. -/
def rounds (resolver : SymbolBindingResolver) :
    RepositorySemanticSnapshot → List SemanticMutation → Except String (List Round)
  | _, [] => .ok []
  | s, mutation :: mutations => do
      let applied ← applyMutation s mutation resolver
      let rest ← rounds resolver applied.snapshot mutations
      pure (⟨s, mutation, applied⟩ :: rest)

def lastAfter (s : RepositorySemanticSnapshot) (rs : List Round) : RepositorySemanticSnapshot :=
  rs.foldl (fun _ round => round.after) s

variable {resolver : SymbolBindingResolver} {base s : RepositorySemanticSnapshot}
  {mutations : List SemanticMutation} {rs : List Round} {id : String}

theorem rounds_cons {mutation : SemanticMutation}
    (h : rounds resolver s (mutation :: mutations) = .ok rs) :
    ∃ applied rest, applyMutation s mutation resolver = .ok applied ∧
      rounds resolver applied.snapshot mutations = .ok rest ∧ rs = ⟨s, mutation, applied⟩ :: rest := by
  obtain ⟨applied, happlied, h⟩ := bind_eq_ok.1 h
  obtain ⟨rest, hrest, h⟩ := bind_eq_ok.1 h
  cases h
  exact ⟨applied, rest, happlied, hrest, rfl⟩

theorem applyMutation_of_mem (h : rounds resolver s mutations = .ok rs) {round : Round}
    (hround : round ∈ rs) :
    applyMutation round.before round.mutation resolver = .ok round.applied := by
  induction mutations generalizing s rs with
  | nil =>
    cases h
    cases hround
  | cons mutation mutations ih =>
    obtain ⟨applied, rest, happlied, hrest, rfl⟩ := rounds_cons h
    rcases List.mem_cons.1 hround with rfl | hmem
    · exact happlied
    · exact ih hrest hmem

theorem length_rounds (h : rounds resolver s mutations = .ok rs) : rs.length = mutations.length := by
  induction mutations generalizing s rs with
  | nil =>
    cases h
    rfl
  | cons mutation mutations ih =>
    obtain ⟨applied, rest, -, hrest, rfl⟩ := rounds_cons h
    rw [List.length_cons, List.length_cons, ih hrest]

/-- What the loop has collected is what its rounds give. -/
theorem rounds_of_foldlM {progress progress' : Progress}
    (h : mutations.foldlM (applyNext resolver) progress = .ok progress') :
    ∃ rs, rounds resolver progress.candidate mutations = .ok rs ∧
      progress'.candidate = lastAfter progress.candidate rs ∧
      progress'.protectedChanges =
        progress.protectedChanges ++ rs.flatMap (·.applied.protectedChanges) ∧
      progress'.mutationAffectedEntities = progress.mutationAffectedEntities ++
        rs.map fun round => sortKeys round.applied.affected.dedup := by
  induction mutations generalizing progress with
  | nil =>
    cases h
    exact ⟨[], rfl, rfl, by simp, by simp⟩
  | cons mutation mutations ih =>
    rw [List.foldlM_cons] at h
    obtain ⟨next, hnext, h⟩ := bind_eq_ok.1 h
    obtain ⟨applied, happlied, hnext⟩ := bind_eq_ok.1 hnext
    cases hnext
    obtain ⟨rest, hrest, hlast, hmarks, haffected⟩ := ih h
    refine ⟨⟨progress.candidate, mutation, applied⟩ :: rest, ?_, hlast, ?_, ?_⟩
    · rw [rounds, happlied]
      change (rounds resolver applied.snapshot mutations >>= fun rest => _) = _
      rw [hrest]
      rfl
    · simpa using hmarks
    · simpa using haffected

theorem exists_round_differs (h : rounds resolver s mutations = .ok rs)
    (hdiffers : Differs s (lastAfter s rs) id) :
    ∃ round ∈ rs, Differs round.before round.after id := by
  induction mutations generalizing s rs with
  | nil =>
    cases h
    obtain ⟨c, item, -, hitem⟩ := hdiffers
    exact absurd Iff.rfl hitem
  | cons mutation mutations ih =>
    obtain ⟨applied, rest, -, hrest, rfl⟩ := rounds_cons h
    rcases @Differs.trans _ applied.snapshot _ _ hdiffers with hfirst | hlater
    · exact ⟨_, List.mem_cons_self, hfirst⟩
    · obtain ⟨round, hround, hdiffers⟩ := ih hrest hlater
      exact ⟨round, List.mem_cons_of_mem _ hround, hdiffers⟩

/-- The run lemma: a protected entity of which something is changed in a round is marked in that
round, or in an earlier one after which it is not protected any more. -/
theorem marked_of_round_differs (h : rounds resolver s mutations = .ok rs)
    (hattentive : ∀ round ∈ rs, Attentive round.before base resolver round.mutation)
    (hbase : Protected base id) (hprotected : Protected s id)
    (hdiffers : ∃ round ∈ rs, Differs round.before round.after id) :
    id ∈ rs.flatMap (·.applied.protectedChanges) := by
  induction mutations generalizing s rs with
  | nil =>
    cases h
    obtain ⟨round, hround, -⟩ := hdiffers
    cases hround
  | cons mutation mutations ih =>
    obtain ⟨applied, rest, happlied, hrest, rfl⟩ := rounds_cons h
    obtain ⟨hmoved, hunseen⟩ := hattentive _ List.mem_cons_self
    rw [List.flatMap_cons, List.mem_append]
    obtain ⟨round, hround, hround'⟩ := hdiffers
    rcases List.mem_cons.1 hround with rfl | hlater
    · have htouches := applyMutation_touches happlied hround' (hmoved id hbase)
      exact Or.inl (htouches.marked hprotected (hunseen id hprotected))
    · rcases applyMutation_stays happlied hprotected (hunseen id hprotected) with hmark | hstays
      · exact Or.inl hmark
      · exact Or.inr (ih hrest (fun round hround => hattentive round (List.mem_cons_of_mem _ hround))
          hstays ⟨round, hlater, hround'⟩)

end Rounds

section CanonicalForms

variable {s s' : RepositorySemanticSnapshot} {c : Collection} {item : JsonValue} {id : String}

theorem list_canon (s : RepositorySemanticSnapshot) (c : Collection) :
    (canonicalizeSnapshot.canon s).list c =
      sortBy (sortKey c) ((s.list c).map (canonicalizeItem c).canon) := by
  change (((s.collections c).map (canonicalizeCollection c).canon).getD []) =
    sortBy (sortKey c) (((s.collections c).getD []).map (canonicalizeItem c).canon)
  cases s.collections c <;> rfl

theorem mem_list_canon : item ∈ (canonicalizeSnapshot.canon s).list c ↔
    ∃ v ∈ s.list c, (canonicalizeItem c).canon v = item := by
  rw [list_canon, mem_sortBy, List.mem_map]

theorem belongs_canon : belongs c ((canonicalizeItem c).canon item) id ↔ belongs c item id := by
  have hpolicy : ∀ names (hnames : "kind" ∉ names), "subject" ∉ names →
      subjectOf ((sortTexts names hnames).canon item) = subjectOf item := by
    intro names hnames hsubject
    rw [subjectOf, textMember, member, member?_sortTexts hnames hsubject]
    rfl
  cases c with
  | components | capabilities | contracts | invariants | decisions | rationales | constraints =>
    change idOf _ = id ↔ idOf item = id
    rw [canonicalizeItem, idOf, textMember_entity fun _ => rfl]
    rfl
  | effectPolicies | dependencyPolicies =>
    change subjectOf _ = id ↔ subjectOf item = id
    rw [canonicalizeItem, hpolicy _ _ (by decide)]
  | terminology => exact mem_textsMember_sortTexts (by decide)
  | relations =>
    have htext : ∀ name, name ≠ "provenance" →
        textMember ((canonicalizeItem .relations).canon item) name = textMember item name :=
      fun name hname => textMember_provenanceOf hname item
    simp only [belongs, isOwnershipOf, htext "from" (by decide), htext "to" (by decide),
      htext "kind" (by decide), htext "authority" (by decide)]
  | _ => rfl

/-- Between a canonical form and that of another snapshot, an entity only differs if it does before
the other one is brought into its canonical form. -/
theorem differs_of_canon
    (h : Differs (canonicalizeSnapshot.canon s) (canonicalizeSnapshot.canon s') id) :
    Differs (canonicalizeSnapshot.canon s) s' id := by
  obtain ⟨c, item, hbelongs, hitem⟩ := h
  have hcanonical : ∀ v ∈ (canonicalizeSnapshot.canon s).list c, (canonicalizeItem c).canon v = v := by
    intro v hv
    obtain ⟨w, -, rfl⟩ := mem_list_canon.1 hv
    exact (canonicalizeItem c).canon_canon w
  by_cases hfirst : item ∈ (canonicalizeSnapshot.canon s).list c
  · refine ⟨c, item, hbelongs, fun hiff => hitem ⟨fun _ => ?_, fun _ => hfirst⟩⟩
    exact mem_list_canon.2 ⟨item, hiff.1 hfirst, hcanonical item hfirst⟩
  · have hsecond : item ∈ (canonicalizeSnapshot.canon s').list c := by
      by_contra hsecond
      exact hitem ⟨fun h => absurd h hfirst, fun h => absurd h hsecond⟩
    obtain ⟨v, hv, rfl⟩ := mem_list_canon.1 hsecond
    refine ⟨c, v, belongs_canon.1 hbelongs, fun hiff => hfirst ?_⟩
    rw [hcanonical v (hiff.2 hv)]
    exact hiff.2 hv

end CanonicalForms

section Plans

variable {context : MutationContext} {state : ServiceState} {base candidate : RepositorySemanticSnapshot}
  {request : SemanticMutationRequest} {built : Candidate} {sequence : ℕ} {p : MutationPlan}

theorem collections_refreshIntegrity (validator : Validator) (s : RepositorySemanticSnapshot)
    (status : JsonValue) : (refreshIntegrity validator s status).collections = s.collections := by
  unfold refreshIntegrity
  dsimp only
  split <;> rfl

/-- A candidate comes out of the loop without diagnostics, and was validated in the end. -/
structure Passed (validator : Validator) (base : RepositorySemanticSnapshot) (progress : Progress)
    (candidate : RepositorySemanticSnapshot) : Prop where
  diagnostics : progress.diagnostics = []
  nonDeclared : nonDeclaredText base = nonDeclaredText progress.candidate
  valid : validSnapshot (refreshIntegrity validator progress.candidate base.integrity.status)
    validator.sha256 = true
  canonical : candidate = canonicalizeSnapshot.canon
    (refreshIntegrity validator progress.candidate base.integrity.status)

variable {validator : Validator} {s : RepositorySemanticSnapshot}

theorem checkCandidate_eq {progress : Progress}
    (h : (checkCandidate validator base progress).candidate = some candidate) :
    Passed validator base progress candidate ∧
      checkCandidate validator base progress = progress.built (some candidate) [] := by
  unfold checkCandidate at h ⊢
  dsimp only at h ⊢
  split_ifs at h ⊢ with hdiagnostics htext hvalid hprose
  · cases h
  · cases h
  · cases h
  · cases h
    exact ⟨⟨not_not.1 hdiagnostics, not_not.1 htext, hvalid, rfl⟩, rfl⟩
  · cases h

theorem buildCandidate_eq {resolver : SymbolBindingResolver}
    (h : buildCandidate validator base request resolver = .ok built)
    (hcandidate : built.candidate = some candidate) :
    ∃ progress, request.mutations.foldlM (applyNext resolver) ⟨base, [], [], [], [], [], []⟩ =
        .ok progress ∧ Passed validator base progress candidate ∧
      built = progress.built (some candidate) [] := by
  unfold buildCandidate at h
  dsimp only at h
  split_ifs at h with hrequest
  · cases h
    cases hcandidate
  · obtain ⟨progress, hprogress, h⟩ := bind_eq_ok.1 h
    cases h
    exact ⟨progress, hprogress, checkCandidate_eq hcandidate⟩

theorem buildPlan_of {progress : Progress} {refreshed : RepositorySemanticSnapshot}
    {transaction : SemanticTransaction} {writes : List JsonValue}
    (hstate : validateState context base = .ok (canonicalizeSnapshot.canon base))
    (hdigest : request.expectedSnapshotDigest = none) (hrequest : validateMutationRequest request = [])
    (hloop : request.mutations.foldlM (applyNext context.resolver)
      ⟨canonicalizeSnapshot.canon base, [], [], [], [], [], []⟩ = .ok progress)
    (hdiagnostics : progress.diagnostics = [])
    (hframe : nonDeclaredText (canonicalizeSnapshot.canon base) = nonDeclaredText progress.candidate)
    (hrefreshed : refreshed = refreshIntegrity context.validator progress.candidate
      (canonicalizeSnapshot.canon base).integrity.status)
    (hvalid : validSnapshot refreshed context.validator.sha256 = true)
    (hprose : validateCanonicalProse refreshed = [])
    (htransaction : transactionFor request (canonicalizeSnapshot.canon refreshed)
      (progress.built (some (canonicalizeSnapshot.canon refreshed)) []) sequence = .ok transaction)
    (hwrites : context.sourceWrites (canonicalizeSnapshot.canon base)
      (canonicalizeSnapshot.canon refreshed)
        (if request.mutations.isEmpty then none else some transaction) = .ok writes) :
    buildPlan context base request sequence = .ok (planOf context base request
      (progress.built (some (canonicalizeSnapshot.canon refreshed)) []) writes (some transaction)) := by
  have hbase : plannedBase context base = canonicalizeSnapshot.canon base := by
    rw [plannedBase, hstate]
  have hnone : baseDiagnostics context base request = [] := by
    rw [baseDiagnostics, hstate, hdigest]
    rfl
  have hbuilt : builtFor context base request =
      .ok (progress.built (some (canonicalizeSnapshot.canon refreshed)) []) := by
    rw [builtFor, hnone, hbase, buildCandidate, hrequest, hloop]
    change Except.ok (checkCandidate _ _ _) = _
    rw [checkCandidate, hdiagnostics, hframe, ← hrefreshed, if_neg (not_not.2 rfl),
      if_neg (not_not.2 rfl), if_pos hvalid, hprose]
    rfl
  rw [buildPlan, hbuilt]
  change (transactionFor request _ _ sequence >>= fun transaction => _) = _
  rw [htransaction]
  change (context.sourceWrites _ _ _ >>= fun writes => _) = _
  rw [hbase, hwrites]
  rfl

structure Planned (context : MutationContext) (base : RepositorySemanticSnapshot)
    (request : SemanticMutationRequest) (sequence : ℕ) (p : MutationPlan)
    (candidate : RepositorySemanticSnapshot) (built : Candidate) (transaction : SemanticTransaction) :
    Prop where
  valid : validSnapshot base context.validator.sha256 = true
  baseSnapshot : p.baseSnapshot = canonicalizeSnapshot.canon base
  built_eq : buildCandidate context.validator p.baseSnapshot request context.resolver = .ok built
  candidate_eq : built.candidate = some candidate
  transaction_eq : transactionFor request candidate built sequence = .ok transaction
  plan_eq : ∃ writes, p = planOf context base request built writes (some transaction)

theorem validateState_ok {s canonical : RepositorySemanticSnapshot}
    (h : validateState context s = .ok canonical) :
    validSnapshot s context.validator.sha256 = true ∧ canonical = canonicalizeSnapshot.canon s := by
  unfold validateState at h
  dsimp only at h
  split_ifs at h with hvalid hprose
  cases h
  exact ⟨hvalid, rfl⟩

theorem plannedBase_of {canonical : RepositorySemanticSnapshot}
    (h : validateState context base = .ok canonical) : plannedBase context base = canonical := by
  rw [plannedBase, h]

theorem snapshotDiagnostics_ne_nil (h : ¬ validSnapshot s validator.sha256 = true) :
    snapshotDiagnostics validator s ≠ [] := by
  unfold snapshotDiagnostics
  split_ifs with hschema
  · intro hnone
    apply h
    rw [validSnapshot, hschema, Bool.true_and, List.isEmpty_iff]
    exact List.map_eq_nil_iff.1 hnone
  · exact validator.schemaDiagnostics_ne_nil s

theorem validateState_error {diagnostics : List MutationDiagnostic}
    (h : validateState context s = .error diagnostics) : diagnostics ≠ [] := by
  unfold validateState at h
  dsimp only at h
  split_ifs at h with hvalid hprose
  · cases h
    exact hprose
  · cases h
    exact snapshotDiagnostics_ne_nil hvalid

theorem validateState_of_diagnostics (h : baseDiagnostics context base request = []) :
    validSnapshot base context.validator.sha256 = true ∧
      plannedBase context base = canonicalizeSnapshot.canon base := by
  unfold baseDiagnostics at h
  rw [List.append_eq_nil_iff] at h
  unfold plannedBase
  cases hstate : validateState context base with
  | ok canonical =>
    obtain ⟨hvalid, rfl⟩ := validateState_ok hstate
    exact ⟨hvalid, rfl⟩
  | error diagnostics =>
    rw [hstate] at h
    exact absurd h.1 (validateState_error hstate)

theorem buildPlan_eq (h : buildPlan context base request sequence = .ok p)
    (hcandidate : p.candidateSnapshot = some candidate) :
    ∃ built transaction, Planned context base request sequence p candidate built transaction := by
  obtain ⟨built, hbuilt, h⟩ := bind_eq_ok.1 h
  cases hbuiltCandidate : built.candidate with
  | none =>
    rw [hbuiltCandidate] at h
    cases h
    rw [planOf, hbuiltCandidate] at hcandidate
    cases hcandidate
  | some candidate' =>
    rw [hbuiltCandidate] at h
    obtain ⟨transaction, htransaction, h⟩ := bind_eq_ok.1 h
    obtain ⟨writes, -, h⟩ := bind_eq_ok.1 h
    cases h
    obtain rfl : candidate' = candidate := Option.some.inj (hbuiltCandidate.symm.trans hcandidate)
    unfold builtFor at hbuilt
    dsimp only at hbuilt
    split_ifs at hbuilt with hdiagnostics
    · cases hbuilt
      cases hbuiltCandidate
    · obtain ⟨hvalid, hbase⟩ := validateState_of_diagnostics (not_not.1 hdiagnostics)
      exact ⟨built, transaction, hvalid, hbase, hbuilt, hbuiltCandidate, htransaction, writes, rfl⟩

end Plans

section Entries

theorem mapM_getElem? {α β : Type} {f : α → Except String β} {l : List α} {l' : List β}
    (h : l.mapM f = .ok l') {index : ℕ} {a : α} (ha : l[index]? = some a) :
    ∃ b, l'[index]? = some b ∧ f a = .ok b := by
  induction l generalizing l' index with
  | nil => cases ha
  | cons first rest ih =>
    rw [List.mapM_cons] at h
    obtain ⟨b, hb, h⟩ := bind_eq_ok.1 h
    obtain ⟨bs, hbs, h⟩ := bind_eq_ok.1 h
    cases h
    cases index with
    | zero =>
      cases ha
      exact ⟨b, rfl, hb⟩
    | succ index => exact ih hbs ha

variable {request : SemanticMutationRequest} {candidate : RepositorySemanticSnapshot}
  {built : Candidate} {sequence : ℕ} {transaction : SemanticTransaction} {id : String}

theorem reviewLevel_of_affected (h : transactionFor request candidate built sequence = .ok transaction)
    {index : ℕ} (hindex : index < request.mutations.length) {affected : List String}
    (haffected : built.mutationAffectedEntities[index]? = some affected) (hid : id ∈ affected)
    (hprotected : id ∈ built.protectedChanges) :
    ∃ entry, transaction.entries[index]? = some entry ∧ entry.reviewLevel = .L3 := by
  obtain ⟨entries, hentries, h⟩ := bind_eq_ok.1 h
  cases h
  have hmutation : request.mutations.zipIdx[index]? = some (request.mutations[index], index) := by
    rw [List.getElem?_zipIdx, List.getElem?_eq_getElem hindex]
    simp
  obtain ⟨entry, hentry, hfor⟩ := mapM_getElem? hentries hmutation
  refine ⟨entry, hentry, ?_⟩
  obtain ⟨edge, -, hfor⟩ := bind_eq_ok.1 hfor
  cases hfor
  dsimp only
  rw [haffected, if_pos]
  exact List.any_eq_true.2 ⟨id, hid, decide_eq_true hprotected⟩

theorem transactionFor_single {mutation : SemanticMutation} (h : request.mutations = [mutation])
    {edge : List Char} (hid : SemanticIds.createLogicalId "delta".toList ((toString 0).toList ++ '-' ::
      encodeURIComponent ((built.mutationSubjects[0]?).getD (idOf candidate.project))) = .ok edge) :
    ∃ transaction, transactionFor request candidate built sequence = .ok transaction := by
  have hentry : ∃ entry, deltaEntryFor candidate built mutation 0 = .ok entry := by
    unfold deltaEntryFor
    dsimp only
    rw [hid]
    exact ⟨_, rfl⟩
  obtain ⟨entry, hentry⟩ := hentry
  unfold transactionFor
  rw [h, List.zipIdx_cons, List.zipIdx_nil, List.mapM_cons]
  dsimp only
  rw [hentry]
  exact ⟨_, rfl⟩

end Entries

section Flagged

variable {context : MutationContext} {state : ServiceState} {request : SemanticMutationRequest}
  {p : MutationPlan} {candidate : RepositorySemanticSnapshot}

/-- Every protected entity of which something differs in the candidate is among the protected changes
of the plan, and the entries of the mutations that changed it have the highest review level. -/
def Flagged (resolver : SymbolBindingResolver) (request : SemanticMutationRequest) (p : MutationPlan)
    (candidate : RepositorySemanticSnapshot) : Prop :=
  ∀ id, Protected p.baseSnapshot id → Differs p.baseSnapshot candidate id →
    id ∈ p.protectedChanges ∧ ∃ (rs : List Round) (transaction : SemanticTransaction),
      rounds resolver p.baseSnapshot request.mutations = .ok rs ∧ p.transaction = some transaction ∧
        (∃ round ∈ rs, Differs round.before round.after id) ∧
        ∀ (index : ℕ) (round : Round), rs[index]? = some round →
          Differs round.before round.after id → ∃ entry : SemanticDeltaEntry,
            transaction.entries[index]? = some entry ∧ entry.reviewLevel = .L3

theorem mem_sortKeys_dedup {ids : List String} {id : String} : id ∈ sortKeys ids.dedup ↔ id ∈ ids := by
  rw [sortKeys, List.mem_insertionSort, List.mem_dedup]

end Flagged

section Bare

def networkPolicy (subject : String) (rest : List String) : JsonValue := .object [("allow", .array []),
  ("deny", .array ((("network" :: rest)).map .string)), ("id", .string "policy:network"),
  ("rationaleIds", .array []), ("subject", .string subject)]

def policySnapshot : RepositorySemanticSnapshot := bareSnapshot fun c =>
  if c = .effectPolicies then [networkPolicy "project:example" []] else []

def bareValidator : Validator where
  sha256 := fun _ => String.ofList (List.replicate 64 'a')
  schemaDiagnostics := fun _ => [invalidPlan]
  schemaDiagnostics_ne_nil := fun _ => List.cons_ne_nil _ _

def bareContext : MutationContext where
  validator := bareValidator
  resolver := fun locator _ => .missing locator none
  sourceWrites := fun _ _ _ => .ok []

def policyRequest (policy : JsonValue) : SemanticMutationRequest where
  mutations := [.effectPolicy policy]
  intent := .semanticChange
  reason := some "Replace the policy of the project."
  authorizedDeltaKinds := some [.effect]
  provenance := ⟨"editor", none, none, none⟩
  expectedSnapshotDigest := none

def policyService : ServiceState := createSemanticMutationService policySnapshot

theorem policyRequest_valid (policy : JsonValue) :
    validateMutationRequest (policyRequest policy) = [] := by
  unfold validateMutationRequest
  rw [if_neg (by simp [policyRequest]; decide), if_neg (by simp [policyRequest]; decide),
    if_neg (by simp [policyRequest])]
  simp [policyRequest, SemanticMutation.deltaKind]

theorem policySnapshot_valid : validateState bareContext policySnapshot =
    .ok (canonicalizeSnapshot.canon policySnapshot) := by
  have hvalid : validSnapshot policySnapshot bareContext.validator.sha256 = true := by decide
  rw [validateState, if_pos hvalid]
  rfl

theorem plan_policyRequest (policy : JsonValue) {refreshed : RepositorySemanticSnapshot}
    (hrefreshed : refreshed = refreshIntegrity bareValidator
      ((canonicalizeSnapshot.canon policySnapshot).replace .effectPolicies idOf policy)
      (.string "stale"))
    (hvalid : validSnapshot refreshed bareValidator.sha256 = true)
    (hprose : validateCanonicalProse refreshed = [])
    {id : List Char} (hentry : SemanticIds.createLogicalId "delta".toList
      ((toString 0).toList ++ '-' :: encodeURIComponent (subjectOf policy)) = .ok id) :
    ∃ p, (plan bareContext policyService (policyRequest policy)).2 = .ok p ∧
      p.candidateSnapshot = some (canonicalizeSnapshot.canon refreshed) ∧
      p.baseSnapshot = canonicalizeSnapshot.canon policySnapshot ∧
      p.protectedChanges = sortKeys (markProtectedSubjects
        ((canonicalizeSnapshot.canon policySnapshot).replace .effectPolicies idOf policy)
        [subjectOf policy]).dedup := by
  let base := canonicalizeSnapshot.canon policySnapshot
  let progress : Progress := {
    candidate := base.replace .effectPolicies idOf policy
    affected := [subjectOf policy]
    protectedChanges := markProtectedSubjects (base.replace .effectPolicies idOf policy)
      [subjectOf policy]
    bindings := []
    mutationSubjects := [subjectOf policy]
    mutationAffectedEntities := [sortKeys [subjectOf policy].dedup]
    diagnostics := [] }
  obtain ⟨transaction, htransaction⟩ := @transactionFor_single (policyRequest policy)
    (canonicalizeSnapshot.canon refreshed)
    (progress.built (some (canonicalizeSnapshot.canon refreshed)) []) 1 _ rfl _ hentry
  refine ⟨_, @buildPlan_of bareContext policySnapshot (policyRequest policy) 1 progress refreshed
    transaction _ policySnapshot_valid rfl (policyRequest_valid policy) rfl rfl rfl hrefreshed hvalid
      hprose htransaction rfl, rfl, ?_, rfl⟩
  exact plannedBase_of policySnapshot_valid

/-- The candidate of a request to put this policy in the place of the one of the project. -/
def policyCandidate (policy : JsonValue) : RepositorySemanticSnapshot :=
  refreshIntegrity bareValidator
    ((canonicalizeSnapshot.canon policySnapshot).replace .effectPolicies idOf policy) (.string "stale")

theorem project_protected : Protected (canonicalizeSnapshot.canon policySnapshot) "project:example" :=
  Or.inl (by decide)

end Bare

end Mottainai.Semantics
