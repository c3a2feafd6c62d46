import Mottainai.CanonCandidates

/-!
# When the order of selectors is not seen

An entity that several explicit selectors resolve to is described by the first of them. The order of
the selectors is not seen if all of them would describe it in the same way. The associations of the
entities, and the order of the candidates, go by ids alone.
-/

namespace Mottainai.CanonCandidates

open JavaScriptValues JsonValues OrderedMaps OrderedMaps.OrderedMap ContextRuntime

section First

variable {semantic : RepositorySemanticSnapshot} {key : String}

theorem firstResolved_append (left right : List (CanonC3Selector × SemanticEntity)) (key : String) :
    firstResolved (left ++ right) key = (firstResolved left key).or (firstResolved right key) :=
  List.find?_append

def resolvedOf (semantic : RepositorySemanticSnapshot) (selectors : List SelectorInput) :
    List (CanonC3Selector × SemanticEntity) := selectors.filterMap (resolved? semantic)

theorem firstResolved_again {resolved : List (CanonC3Selector × SemanticEntity)}
    {again : Option (CanonC3Selector × SemanticEntity)} (h : ∀ found, again = some found → found ∈ resolved)
    (key : String) : firstResolved (resolved ++ again.toList) key = firstResolved resolved key := by
  rw [firstResolved_append]
  cases again with
  | none => exact Option.or_none
  | some found =>
    cases hfirst : firstResolved resolved key with
    | some first => rfl
    | none =>
      rw [firstResolved, List.find?_eq_none] at hfirst
      have hne := hfirst found (h found rfl)
      rw [Option.none_or, Option.toList_some]
      exact List.find?_cons_of_neg hne

theorem filterMap_set {m : OrderedMap String SelectorInput} {selector : SelectorInput}
    (hfiled : Filed selectorKey m) (hmem : selectorKey selector ∈ m.keys)
    (hsame : ∀ other ∈ m.values, selectorKey other = selectorKey selector →
      resolved? semantic other = resolved? semantic selector) :
    resolvedOf semantic (m.set (selectorKey selector) selector).values = resolvedOf semantic m.values := by
  have hentries : (m.set (selectorKey selector) selector).entries = m.entries.map fun entry =>
      if entry.1 = selectorKey selector then (selectorKey selector, selector) else entry := if_pos hmem
  rw [resolvedOf, resolvedOf, OrderedMap.values, OrderedMap.values, hentries, List.map_map,
    List.filterMap_map, List.filterMap_map]
  refine List.filterMap_congr fun entry hentry => ?_
  simp only [Function.comp_apply]
  split_ifs with hkey
  · exact (hsame entry.2 (mem_values.2 ⟨entry.1, hentry⟩) ((hfiled entry hentry).symm.trans hkey)).symm
  · rfl

theorem firstResolved_foldl_set (rest : List SelectorInput) (m : OrderedMap String SelectorInput)
    (before : List SelectorInput) (hfiled : Filed selectorKey m) (hplain : ∀ selector ∈ m.values, PlainSelector selector)
    (hrest : ∀ selector ∈ rest, PlainSelector selector)
    (hfirst : ∀ key, firstResolved (resolvedOf semantic m.values) key =
      firstResolved (resolvedOf semantic before) key) (key : String) :
    firstResolved (resolvedOf semantic
        (rest.foldl (fun distinct selector => distinct.set (selectorKey selector) selector) m).values) key =
      firstResolved (resolvedOf semantic (before ++ rest)) key := by
  induction rest generalizing m before with
  | nil =>
    rw [List.append_nil]
    exact hfirst key
  | cons selector rest ih =>
    have hselector := hrest selector List.mem_cons_self
    have hsplit : before ++ selector :: rest = (before ++ [selector]) ++ rest := by simp
    have hone : resolvedOf semantic [selector] = (resolved? semantic selector).toList := by
      rw [resolvedOf]
      cases h : resolved? semantic selector <;> simp [h]
    have happend : ∀ selectors, resolvedOf semantic (selectors ++ [selector]) =
        resolvedOf semantic selectors ++ (resolved? semantic selector).toList := by
      intro selectors
      rw [← hone]
      exact List.filterMap_append
    rw [List.foldl_cons, hsplit]
    refine ih _ _ (hfiled.set selector) (fun other hother => ?_)
      (fun other hother => hrest other (List.mem_cons_of_mem _ hother)) fun key => ?_
    · rcases of_mem_values_set hother with hold | rfl
      · exact hplain other hold
      · exact hselector
    · rw [happend]
      by_cases hmem : selectorKey selector ∈ m.keys
      · have hsame : ∀ other ∈ m.values, selectorKey other = selectorKey selector →
            resolved? semantic other = resolved? semantic selector := fun other hother hkey =>
          resolved?_congr (hplain other hother) hselector hkey
        rw [filterMap_set hfiled hmem hsame]
        obtain ⟨entry, hentry, hkey⟩ := List.mem_map.1 hmem
        have hold : entry.2 ∈ m.values := mem_values.2 ⟨entry.1, hentry⟩
        have hagain := @firstResolved_again (resolvedOf semantic m.values) (resolved? semantic selector)
          (fun found hfound => List.mem_filterMap.2 ⟨entry.2, hold,
            (hsame entry.2 hold ((hfiled entry hentry).symm.trans hkey)).trans hfound⟩) key
        rw [← hagain, firstResolved_append, hfirst key, ← firstResolved_append]
      · have hentries : (m.set (selectorKey selector) selector).entries =
            m.entries ++ [(selectorKey selector, selector)] := if_neg hmem
        have hvalues : (m.set (selectorKey selector) selector).values = m.values ++ [selector] := by
          rw [OrderedMap.values, hentries, List.map_append]
          rfl
        rw [hvalues, happend, firstResolved_append, firstResolved_append, hfirst key]

theorem firstResolved_distinct {selectors : List SelectorInput} (h : ∀ selector ∈ selectors, PlainSelector selector)
    (key : String) : firstResolved (resolvedOf semantic (distinctSelectors selectors)) key =
      firstResolved (resolvedOf semantic selectors) key :=
  firstResolved_foldl_set selectors .empty [] nofun nofun h (fun _ => rfl) key

end First

section Associated

variable {locale : ContextRuntime.Locale} {semantic : RepositorySemanticSnapshot} {key : String}

theorem filed_entityById (semantic : RepositorySemanticSnapshot) : Filed SemanticEntity.id (entityById semantic) := by
  have hfold : ∀ (entities : List SemanticEntity) (m : OrderedMap String SemanticEntity),
      Filed SemanticEntity.id m →
      Filed SemanticEntity.id (entities.foldl (fun entities entity => entities.set entity.id entity) m) := by
    intro entities
    induction entities with
    | nil => exact fun _ h => h
    | cons entity entities ih => exact fun m h => ih _ (h.set entity)
  exact hfold _ _ nofun

/-- What is associated is described as its kind says. -/
def describedAs : SemanticEntity → CanonC3Selector × String
  | .test other => ({ type := .test, value := other.id }, "deterministic semantic test association")
  | .symbol other =>
      ({ type := .given .interface, value := other.id }, "deterministic semantic interface association")
  | .file other => ({ type := .test, value := other.id }, "")
  | .component other => ({ type := .test, value := other.id }, "")

variable {association : Association} {roots : List String}

theorem associationOf_spec {rootId : String} {relation : SemanticRelation}
    (h : associationOf semantic rootId relation = some association) :
    (entityById semantic).get association.entity.id = some association.entity ∧
      (association.selector, association.reason) = describedAs association.entity ∧
        association.relationId = relation.id := by
  obtain ⟨⟨entity, selector, reason⟩, hassociated, rfl⟩ := Option.map_eq_some_iff.1 h
  rw [associated] at hassociated
  by_cases hkind : relation.kind ∈ associationRelations
  · rw [if_pos hkind] at hassociated
    generalize (if relation.source = rootId then relation.target else relation.source) = otherId at hassociated
    split at hassociated
    · next other hget =>
      cases hassociated
      have hid := filed_entityById semantic _ (get_eq_some_iff.1 hget)
      exact ⟨hid ▸ hget, rfl, rfl⟩
    · next other hget =>
      by_cases himplements : relation.kind = "implements"
      · rw [if_pos himplements] at hassociated
        cases hassociated
        have hid := filed_entityById semantic _ (get_eq_some_iff.1 hget)
        exact ⟨hid ▸ hget, rfl, rfl⟩
      · rw [if_neg himplements] at hassociated
        cases hassociated
    · cases hassociated
  · rw [if_neg hkind] at hassociated
    cases hassociated

theorem mem_associations :
    association ∈ associations locale semantic roots ↔ ∃ rootId ∈ roots,
      ∃ relation ∈ relationForEntity locale semantic rootId,
        associationOf semantic rootId relation = some association := by
  simp only [associations, List.mem_flatMap, List.mem_filterMap]

theorem associatedDraft_congr {roots roots' : List String} {left right : Association}
    (hleft : left ∈ associations locale semantic roots) (hright : right ∈ associations locale semantic roots')
    (h : left.entity.id = right.entity.id) (ids : List String) :
    { associatedDraft left with relationIds := ids } = { associatedDraft right with relationIds := ids } := by
  obtain ⟨_, -, _, -, hleft⟩ := mem_associations.1 hleft
  obtain ⟨_, -, _, -, hright⟩ := mem_associations.1 hright
  obtain ⟨hentity, hdescribed, -⟩ := associationOf_spec hleft
  obtain ⟨hentity', hdescribed', -⟩ := associationOf_spec hright
  rw [h, hentity'] at hentity
  have hsame : right.entity = left.entity := Option.some.inj hentity
  rw [hsame, ← hdescribed] at hdescribed'
  obtain ⟨hselector, hreason⟩ := Prod.mk.inj hdescribed'
  simp only [associatedDraft, hsame, hselector, hreason]

theorem mem_idsFor {id : String} : id ∈ idsFor (associations locale semantic roots) key ↔
    ∃ rootId ∈ roots, ∃ relation ∈ relationForEntity locale semantic rootId, ∃ association,
      associationOf semantic rootId relation = some association ∧ association.entity.id = key ∧
        association.relationId = id := by
  rw [idsFor, List.mem_map]
  constructor
  · rintro ⟨association, hmem, rfl⟩
    obtain ⟨hmem, hkey⟩ := List.mem_filter.1 hmem
    obtain ⟨rootId, hroot, relation, hrelation, hsome⟩ := mem_associations.1 hmem
    exact ⟨rootId, hroot, relation, hrelation, association, hsome, by simpa using hkey, rfl⟩
  · rintro ⟨rootId, hroot, relation, hrelation, association, hsome, hkey, rfl⟩
    refine ⟨association, List.mem_filter.2 ⟨mem_associations.2 ⟨rootId, hroot, relation, hrelation, hsome⟩, ?_⟩, rfl⟩
    simpa using hkey

end Associated

section Sorting

theorem transCmp_on {α β : Type} (f : α → β) (cmp : β → β → Ordering) [Std.TransCmp cmp] :
    Std.TransCmp fun left right => cmp (f left) (f right) where
  eq_swap := Std.OrientedCmp.eq_swap
  isLE_trans := Std.TransCmp.isLE_trans

/-- A sort whose comparison tells the items apart forgets their order. -/
theorem mergeSort_perm_congr {α : Type} {l l' : List α} (cmp : α → α → Ordering) [Std.TransCmp cmp]
    (hperm : l.Perm l') (h : ∀ a ∈ l, ∀ b ∈ l, cmp a b = .eq → a = b) :
    l.mergeSort (fun a b => decide (cmp a b ≠ .gt)) = l'.mergeSort fun a b => decide (cmp a b ≠ .gt) := by
  have hle : ∀ a b, decide (cmp a b ≠ .gt) = true ↔ (cmp a b).isLE = true := by
    intro a b
    cases cmp a b <;> simp
  have htrans : ∀ a b c, decide (cmp a b ≠ .gt) = true → decide (cmp b c ≠ .gt) = true →
      decide (cmp a c ≠ .gt) = true := by
    intro a b c hab hbc
    rw [hle] at hab hbc ⊢
    exact Std.TransCmp.isLE_trans hab hbc
  have htotal : ∀ a b, (decide (cmp a b ≠ .gt) || decide (cmp b a ≠ .gt)) = true := by
    intro a b
    have hswap : cmp a b = (cmp b a).swap := Std.OrientedCmp.eq_swap
    rw [hswap]
    cases cmp b a <;> rfl
  refine List.Perm.eq_of_pairwise (fun a b ha hb hab hba => ?_) (List.pairwise_mergeSort htrans htotal l)
    (List.pairwise_mergeSort htrans htotal l')
    (((List.mergeSort_perm l _).trans hperm).trans (List.mergeSort_perm l' _).symm)
  refine h a ((List.mergeSort_perm l _).mem_iff.1 ha) b
    (hperm.mem_iff.2 ((List.mergeSort_perm l' _).mem_iff.1 hb)) ?_
  have hswap : cmp a b = (cmp b a).swap := Std.OrientedCmp.eq_swap
  rw [decide_eq_true_iff] at hab hba
  cases hcmp : cmp b a with
  | eq => rw [hswap, hcmp]; rfl
  | lt => exact absurd (hswap.trans (congrArg Ordering.swap hcmp)) hab
  | gt => exact absurd hcmp hba

variable {locale : ContextRuntime.Locale} [Std.TransCmp locale.localeCompare]

instance : Std.TransCmp (compareCandidates locale) := by
  have hsource := @transCmp_on _ _ CanonC3Candidate.sourceIdentity locale.localeCompare _
  have hselector := @transCmp_on _ _ (fun candidate : CanonC3Candidate =>
    candidate.selector.type.text ++ ":" ++ candidate.selector.value) locale.localeCompare _
  have hid := @transCmp_on _ _ CanonC3Candidate.candidateId locale.localeCompare _
  exact inferInstanceAs (Std.TransCmp (compareLex _ (compareLex _ _)))

theorem sortByLocale_congr {l l' : List String} (hl : l.Nodup) (hl' : l'.Nodup) (hmem : ∀ a, a ∈ l ↔ a ∈ l')
    (h : ∀ a ∈ l, ∀ b ∈ l, locale.localeCompare a b = .eq → a = b) :
    sortByLocale locale id l = sortByLocale locale id l' :=
  mergeSort_perm_congr locale.localeCompare ((List.perm_ext_iff_of_nodup hl hl').2 hmem) h

end Sorting

section Drafts

variable {locale : ContextRuntime.Locale} {semantic : RepositorySemanticSnapshot}
  {selectors selectors' : List SelectorInput}
  {key : String} {resolved : CanonC3Selector × SemanticEntity}

def explicitDrafts (semantic : RepositorySemanticSnapshot) (selectors : List SelectorInput) : Drafts :=
  (selectors.map (resolveSelector semantic)).foldl addResolved .empty

theorem get_explicitDrafts : (explicitDrafts semantic selectors).get key =
    (firstResolved (resolvedOf semantic selectors) key).map explicitDraft := by
  rw [explicitDrafts, get_foldl_addResolved allExplicit_empty, get_empty, Option.none_or, List.filterMap_map]
  rfl

def rootsOf (semantic : RepositorySemanticSnapshot) (selectors : List SelectorInput) : List String :=
  (explicitDrafts semantic selectors).values.map (·.entity.id)

theorem filed_explicitDrafts (semantic : RepositorySemanticSnapshot) (selectors : List SelectorInput) :
    FiledDrafts (explicitDrafts semantic selectors) :=
  @filed_foldl_addResolved .empty (fun _ _ hget => nomatch hget) _

theorem mem_rootsOf : key ∈ rootsOf semantic selectors ↔
    (firstResolved (resolvedOf semantic selectors) key).isSome = true := by
  have hget : key ∈ rootsOf semantic selectors ↔ ((explicitDrafts semantic selectors).get key).isSome = true := by
    rw [rootsOf, List.mem_map, Option.isSome_iff_exists]
    constructor
    · rintro ⟨draft, hmem, rfl⟩
      obtain ⟨k, hentry⟩ := mem_values.1 hmem
      have hget := get_eq_some_iff.2 hentry
      rw [filed_explicitDrafts semantic selectors k draft hget]
      exact ⟨draft, hget⟩
    · rintro ⟨draft, hget⟩
      exact ⟨draft, mem_values.2 ⟨key, get_eq_some_iff.1 hget⟩, filed_explicitDrafts semantic selectors key draft hget⟩
  rw [hget, get_explicitDrafts, Option.isSome_map]

def draftsOf (locale : ContextRuntime.Locale) (semantic : RepositorySemanticSnapshot)
    (selectors : List SelectorInput) : Drafts :=
  addAssociations locale semantic (explicitDrafts semantic selectors)

theorem filed_draftsOf (locale : ContextRuntime.Locale) (semantic : RepositorySemanticSnapshot)
    (selectors : List SelectorInput) :
    FiledDrafts (draftsOf locale semantic selectors) := by
  rw [draftsOf, addAssociations_eq]
  exact filed_foldl_addAssociated (filed_explicitDrafts semantic selectors) _

def relationIdsOf (locale : ContextRuntime.Locale) (semantic : RepositorySemanticSnapshot)
    (selectors : List SelectorInput)
    (key : String) : List String :=
  addIds [] (idsFor (associations locale semantic (rootsOf semantic selectors)) key)

theorem get_draftsOf_explicit (h : firstResolved (resolvedOf semantic selectors) key = some resolved) :
    (draftsOf locale semantic selectors).get key =
      some { explicitDraft resolved with relationIds := relationIdsOf locale semantic selectors key } := by
  rw [draftsOf, addAssociations_eq, get_foldl_addAssociated, get_explicitDrafts, h]
  rfl

theorem get_draftsOf_associated (h : firstResolved (resolvedOf semantic selectors) key = none) :
    (draftsOf locale semantic selectors).get key =
      ((associations locale semantic (rootsOf semantic selectors)).find? fun association =>
        association.entity.id = key).map fun association =>
          { associatedDraft association with relationIds := relationIdsOf locale semantic selectors key } := by
  rw [draftsOf, addAssociations_eq, get_foldl_addAssociated, get_explicitDrafts, h]
  rfl

variable (hroots : ∀ key, key ∈ rootsOf semantic selectors ↔ key ∈ rootsOf semantic selectors')

include hroots in
theorem mem_relationIdsOf_congr (key id : String) :
    id ∈ relationIdsOf locale semantic selectors key ↔ id ∈ relationIdsOf locale semantic selectors' key := by
  simp only [relationIdsOf, mem_addIds, mem_idsFor, hroots]

theorem nodup_relationIdsOf : (relationIdsOf locale semantic selectors key).Nodup := nodup_addIds List.nodup_nil _

theorem exists_relation_of_mem {id : String} (h : id ∈ relationIdsOf locale semantic selectors key) :
    ∃ relation ∈ semantic.relations, relation.id = id := by
  rw [relationIdsOf, mem_addIds, mem_idsFor] at h
  obtain hnil | ⟨rootId, -, relation, hrelation, association, hsome, -, rfl⟩ := h
  · cases hnil
  · obtain ⟨-, -, hid⟩ := associationOf_spec hsome
    exact ⟨relation, (List.mem_filter.1 (List.mem_mergeSort.1 hrelation)).1, hid.symm⟩

include hroots in
theorem mem_associations_congr (association : Association) :
    association ∈ associations locale semantic (rootsOf semantic selectors) ↔
      association ∈ associations locale semantic (rootsOf semantic selectors') := by
  simp only [mem_associations, hroots]

include hroots in
/-- What is only associated is described in the same way, whichever association comes first. -/
theorem associated_congr (key : String) (ids : List String) :
    (((associations locale semantic (rootsOf semantic selectors)).find? fun association =>
        association.entity.id = key).map fun association => { associatedDraft association with relationIds := ids }) =
      ((associations locale semantic (rootsOf semantic selectors')).find? fun association =>
        association.entity.id = key).map fun association => { associatedDraft association with relationIds := ids } := by
  cases hleft : (associations locale semantic (rootsOf semantic selectors)).find? fun association =>
      association.entity.id = key with
  | none =>
    rw [List.find?_eq_none] at hleft
    have hright : ((associations locale semantic (rootsOf semantic selectors')).find? fun association =>
        association.entity.id = key) = none :=
      List.find?_eq_none.2 fun association hmem => hleft association ((mem_associations_congr hroots association).2 hmem)
    rw [hright]
  | some left =>
    have hmem := (mem_associations_congr hroots left).1 (List.mem_of_find?_eq_some hleft)
    have hkey := List.find?_some hleft
    have hsome : ((associations locale semantic (rootsOf semantic selectors')).find? fun association =>
        association.entity.id = key).isSome = true := List.find?_isSome.2 ⟨left, hmem, hkey⟩
    obtain ⟨right, hright⟩ := Option.isSome_iff_exists.1 hsome
    rw [hright, Option.map_some, Option.map_some]
    have hkey' := List.find?_some hright
    exact congrArg some (associatedDraft_congr (List.mem_of_find?_eq_some hleft) (List.mem_of_find?_eq_some hright)
      ((of_decide_eq_true hkey).trans (of_decide_eq_true hkey').symm) ids)

end Drafts

section Entities

variable {locale : ContextRuntime.Locale} {semantic : RepositorySemanticSnapshot} {selectors : List SelectorInput} {key : String}
variable {selector : SelectorInput} {entity : SemanticEntity}

theorem mem_of_resolveUnique {Entity : Type} {entityId : Entity → String}
    {unknown ambiguous : String} {entities : List Entity} {entity : Entity}
    (h : (resolveUnique entityId selector unknown ambiguous entities).toOption = some entity) :
    entity ∈ entities := by
  rw [toOption_resolveUnique] at h
  split at h
  · cases h
    exact List.mem_singleton_self _
  · cases h

theorem mem_allEntities : entity ∈ allEntities semantic ↔
    (∃ component ∈ semantic.components, .component component = entity) ∨
      (∃ file ∈ semantic.files, .file file = entity) ∨
        (∃ symbol ∈ semantic.symbols, .symbol symbol = entity) ∨ ∃ test ∈ semantic.tests, .test test = entity := by
  simp only [allEntities, List.mem_append, List.mem_map, or_assoc]

theorem mem_of_resolved {resolved : CanonC3Selector × SemanticEntity}
    (h : resolved? semantic selector = some resolved) : resolved.2 ∈ allEntities semantic := by
  have hpath : (resolvePath semantic selector).toOption = some resolved → resolved.2 ∈ allEntities semantic := by
    rw [resolvePath]
    cases selector.value with
    | record _ => exact fun hsome => by cases hsome
    | text value =>
      cases hvalue : normalizedPath value with
      | none => simp only [hvalue]; exact fun hsome => by cases hsome
      | some path =>
        simp only [hvalue, toOption_map]
        intro hsome
        obtain ⟨file, hfile, rfl⟩ := Option.map_eq_some_iff.1 hsome
        exact mem_allEntities.2 (.inr (.inl ⟨file, List.mem_of_mem_filter (mem_of_resolveUnique hfile), rfl⟩))
  have hcomponent : (resolveComponent semantic selector).toOption = some resolved →
      resolved.2 ∈ allEntities semantic := by
    rw [resolveComponent]
    cases selector.value with
    | record _ => exact fun hsome => by cases hsome
    | text text =>
      by_cases hempty : trim text = ""
      · simp only [if_pos hempty]; exact fun hsome => by cases hsome
      · simp only [if_neg hempty, toOption_map]
        intro hsome
        obtain ⟨component, hcomponent, rfl⟩ := Option.map_eq_some_iff.1 hsome
        exact mem_allEntities.2 (.inl ⟨component, List.mem_of_mem_filter (mem_of_resolveUnique hcomponent), rfl⟩)
  have hsymbol : (resolveSymbol semantic selector).toOption = some resolved → resolved.2 ∈ allEntities semantic := by
    rw [resolveSymbol]
    cases normalizeSymbolSelector selector.value with
    | none => exact fun hsome => by cases hsome
    | some symbolSelector =>
      simp only [toOption_map]
      intro hsome
      obtain ⟨symbol, hsymbol, rfl⟩ := Option.map_eq_some_iff.1 hsome
      exact mem_allEntities.2 (.inr (.inr (.inl ⟨symbol, List.mem_of_mem_filter (mem_of_resolveUnique hsymbol), rfl⟩)))
  rw [resolved?, resolveSelector] at h
  cases htype : selector.type with
  | path => rw [htype] at h; exact hpath h
  | component => rw [htype] at h; exact hcomponent h
  | _ => rw [htype] at h; exact hsymbol h

theorem mem_of_entityById (h : (entityById semantic).get key = some entity) :
    entity ∈ allEntities semantic := by
  have hvalues : entity ∈ (entityById semantic).values := mem_values.2 ⟨key, get_eq_some_iff.1 h⟩
  rcases of_mem_values_foldl_set hvalues with hnone | hmem
  · cases hnone
  · exact hmem

theorem mem_of_draft {draft : CandidateDraft} (h : (draftsOf locale semantic selectors).get key = some draft) :
    draft.entity ∈ allEntities semantic := by
  cases hfirst : firstResolved (resolvedOf semantic selectors) key with
  | some resolved =>
    rw [get_draftsOf_explicit hfirst] at h
    cases h
    obtain ⟨selector, -, hresolved⟩ := List.mem_filterMap.1 (List.mem_of_find?_eq_some hfirst)
    exact mem_of_resolved hresolved
  | none =>
    rw [get_draftsOf_associated hfirst] at h
    obtain ⟨association, hassociation, rfl⟩ := Option.map_eq_some_iff.1 h
    obtain ⟨rootId, -, relation, -, hsome⟩ := mem_associations.1 (List.mem_of_find?_eq_some hassociation)
    exact mem_of_entityById (associationOf_spec hsome).1

end Entities

section Candidates

variable {locale : ContextRuntime.Locale} {sha256 : String → String} {semantic : RepositorySemanticSnapshot}
  {sourceGeneration : Option SourceGeneration} {selectors selectors' : List SelectorInput} {key : String}
  {candidate : CanonC3Candidate}

def described (locale : ContextRuntime.Locale) (sha256 : String → String) (semantic : RepositorySemanticSnapshot)
    (sourceGeneration : Option SourceGeneration) (resolved : CanonC3Selector × SemanticEntity) : CanonC3Candidate :=
  toCandidate locale sha256 semantic sourceGeneration (explicitDraft resolved)

theorem toCandidate_relationIds (draft : CandidateDraft) (ids : List String) :
    toCandidate locale sha256 semantic sourceGeneration { draft with relationIds := ids } =
      { toCandidate locale sha256 semantic sourceGeneration draft with relationIds := sortByLocale locale id ids } := rfl

/-- The comparison tells apart what it is asked to sort. -/
structure Separates (locale : ContextRuntime.Locale) (semantic : RepositorySemanticSnapshot) : Prop where
  entities : ∀ entity ∈ allEntities semantic, ∀ other ∈ allEntities semantic,
    locale.localeCompare ("c3:" ++ entity.id) ("c3:" ++ other.id) = .eq → entity.id = other.id
  relations : ∀ relation ∈ semantic.relations, ∀ other ∈ semantic.relations,
    locale.localeCompare relation.id other.id = .eq → relation.id = other.id

def candidateAt (locale : ContextRuntime.Locale) (sha256 : String → String) (semantic : RepositorySemanticSnapshot)
    (sourceGeneration : Option SourceGeneration) (selectors : List SelectorInput) (key : String) :
    Option CanonC3Candidate :=
  ((draftsOf locale semantic selectors).get key).map (toCandidate locale sha256 semantic sourceGeneration)

theorem entityId_of_candidateAt
    (h : candidateAt locale sha256 semantic sourceGeneration selectors key = some candidate) :
    candidate.entityId = key ∧ candidate.candidateId = "c3:" ++ key ∧
      ∃ entity ∈ allEntities semantic, entity.id = key := by
  obtain ⟨draft, hget, rfl⟩ := Option.map_eq_some_iff.1 h
  have hid := filed_draftsOf locale semantic selectors key draft hget
  exact ⟨hid, congrArg ("c3:" ++ ·) hid, draft.entity, mem_of_draft hget, hid⟩

theorem candidateAt_explicit {resolved : CanonC3Selector × SemanticEntity}
    (h : firstResolved (resolvedOf semantic selectors) key = some resolved) :
    candidateAt locale sha256 semantic sourceGeneration selectors key =
      some { described locale sha256 semantic sourceGeneration resolved with
        relationIds := sortByLocale locale id (relationIdsOf locale semantic selectors key) } := by
  rw [candidateAt, get_draftsOf_explicit h]
  rfl

theorem candidateAt_congr [Std.TransCmp locale.localeCompare] (hseparates : Separates locale semantic)
    (h : ∀ key, (firstResolved (resolvedOf semantic selectors) key).map
        (described locale sha256 semantic sourceGeneration) =
      (firstResolved (resolvedOf semantic selectors') key).map (described locale sha256 semantic sourceGeneration))
    (key : String) : candidateAt locale sha256 semantic sourceGeneration selectors key =
      candidateAt locale sha256 semantic sourceGeneration selectors' key := by
  have hroots : ∀ key, key ∈ rootsOf semantic selectors ↔ key ∈ rootsOf semantic selectors' := by
    intro key
    have hsome := congrArg Option.isSome (h key)
    rw [Option.isSome_map, Option.isSome_map] at hsome
    rw [mem_rootsOf, mem_rootsOf, hsome]
  have hids : sortByLocale locale id (relationIdsOf locale semantic selectors key) =
      sortByLocale locale id (relationIdsOf locale semantic selectors' key) := by
    refine sortByLocale_congr nodup_relationIdsOf nodup_relationIdsOf (mem_relationIdsOf_congr hroots key)
      fun left hleft right hright heq => ?_
    obtain ⟨relation, hrelation, rfl⟩ := exists_relation_of_mem hleft
    obtain ⟨other, hother, rfl⟩ := exists_relation_of_mem hright
    exact hseparates.relations relation hrelation other hother heq
  have hkey := h key
  cases hfirst : firstResolved (resolvedOf semantic selectors) key with
  | some resolved =>
    rw [hfirst, Option.map_some] at hkey
    obtain ⟨resolved', hfirst', hsame⟩ := Option.map_eq_some_iff.1 hkey.symm
    rw [candidateAt_explicit hfirst, candidateAt_explicit hfirst', hids, hsame]
  | none =>
    rw [hfirst, Option.map_none] at hkey
    have hfirst' := Option.map_eq_none_iff.1 hkey.symm
    rw [candidateAt, candidateAt, get_draftsOf_associated hfirst, get_draftsOf_associated hfirst',
      ← associated_congr hroots, Option.map_map, Option.map_map]
    congr 1
    funext association
    refine (toCandidate_relationIds (associatedDraft association) _).trans ?_
    rw [hids]
    rfl

theorem values_map_perm {α Key Value : Type} [DecidableEq Key] {m m' : OrderedMap Key Value} (f : Value → α)
    (h : ∀ key, (m.get key).map f = (m'.get key).map f) : (m.values.map f).Perm (m'.values.map f) := by
  have hmem : ∀ (m : OrderedMap Key Value) (entry : Key × α),
      entry ∈ m.entries.map (fun entry => (entry.1, f entry.2)) ↔ (m.get entry.1).map f = some entry.2 := by
    intro m entry
    rw [List.mem_map, Option.map_eq_some_iff]
    constructor
    · rintro ⟨⟨key, value⟩, hentry, rfl⟩
      exact ⟨value, get_eq_some_iff.2 hentry, rfl⟩
    · rintro ⟨value, hget, hvalue⟩
      exact ⟨(entry.1, value), get_eq_some_iff.1 hget, by rw [hvalue]⟩
  have hnodup : ∀ m : OrderedMap Key Value, (m.entries.map fun entry => (entry.1, f entry.2)).Nodup := by
    intro m
    refine List.Nodup.of_map Prod.fst ?_
    rw [List.map_map]
    exact m.nodup
  have hperm := (List.perm_ext_iff_of_nodup (hnodup m) (hnodup m')).2 fun entry => by rw [hmem, hmem, h]
  have hvalues := hperm.map Prod.snd
  rw [List.map_map, List.map_map] at hvalues
  rw [OrderedMap.values, OrderedMap.values, List.map_map, List.map_map]
  exact hvalues

theorem mem_draftsOf_values : candidate ∈ (draftsOf locale semantic selectors).values.map
      (toCandidate locale sha256 semantic sourceGeneration) ↔
    ∃ key, candidateAt locale sha256 semantic sourceGeneration selectors key = some candidate := by
  rw [List.mem_map]
  constructor
  · rintro ⟨draft, hmem, rfl⟩
    obtain ⟨key, hentry⟩ := mem_values.1 hmem
    exact ⟨key, Option.map_eq_some_iff.2 ⟨draft, get_eq_some_iff.2 hentry, rfl⟩⟩
  · rintro ⟨key, hsome⟩
    obtain ⟨draft, hget, rfl⟩ := Option.map_eq_some_iff.1 hsome
    exact ⟨draft, mem_values.2 ⟨key, get_eq_some_iff.1 hget⟩, rfl⟩

end Candidates

section Order

structure ExplicitSelector where
  selector : SelectorInput
  plain : PlainSelector selector

structure Collation extends ContextRuntime.Locale where
  trans : Std.TransCmp localeCompare

variable (collation : Collation) (sha256 : String → String) (c2 : List CanonValue)
  (selectors : List ExplicitSelector) (semantic : RepositorySemanticSnapshot)
  (sourceGeneration : Option SourceGeneration)

def candidatesOf : List CanonC3Candidate :=
  (selectCanonC3Candidates collation.toLocale sha256
    (inputOf c2 (selectors.map (·.selector)) semantic sourceGeneration)).candidates

/-- Permuting the explicit selectors and repeating some of them changes nothing. -/
def IndependentOfOrder : Prop := ∀ selectors' : List ExplicitSelector,
  (∀ selector, selector ∈ selectors' ↔ selector ∈ selectors) →
    candidatesOf collation sha256 c2 selectors' semantic sourceGeneration =
      candidatesOf collation sha256 c2 selectors semantic sourceGeneration

/-- The explicit selectors that resolve to one id make the same candidate of it. -/
def DescribedAlike : Prop := ∀ selector ∈ selectors, ∀ other ∈ selectors, ∀ left right,
  resolved? semantic selector.selector = some left → resolved? semantic other.selector = some right →
    left.2.id = right.2.id →
      described collation.toLocale sha256 semantic sourceGeneration left =
        described collation.toLocale sha256 semantic sourceGeneration right

variable {collation sha256 c2 selectors semantic sourceGeneration} {key : String}

/-- All selectors, with those of the second layer at the end. -/
def allSelectors (c2 : List CanonValue) (selectors : List ExplicitSelector) : List SelectorInput :=
  selectors.map (·.selector) ++ selectorsFromC2 (c2.map (·.value))

theorem plain_allSelectors {selector : SelectorInput} (h : selector ∈ allSelectors c2 selectors) :
    PlainSelector selector := by
  rcases List.mem_append.1 h with hgiven | hread
  · obtain ⟨given, -, rfl⟩ := List.mem_map.1 hgiven
    exact given.plain
  · exact plain_selectorsFromC2 hread

theorem firstResolved_allSelectors (key : String) :
    firstResolved (resolvedOf semantic (distinctSelectors (allSelectors c2 selectors))) key =
      (firstResolved (resolvedOf semantic (selectors.map (·.selector))) key).or
        (firstResolved (resolvedOf semantic (selectorsFromC2 (c2.map (·.value)))) key) := by
  rw [firstResolved_distinct fun selector => plain_allSelectors, allSelectors, resolvedOf, List.filterMap_append,
    firstResolved_append]
  rfl

variable {candidate : CanonC3Candidate}

theorem mem_candidatesOf :
    candidate ∈ candidatesOf collation sha256 c2 selectors semantic sourceGeneration ↔
      ∃ key, candidateAt collation.toLocale sha256 semantic sourceGeneration
        (distinctSelectors (allSelectors c2 selectors)) key = some candidate :=
  List.mem_mergeSort.trans mem_draftsOf_values

theorem described_of_cons {selector : ExplicitSelector}
    {resolved : CanonC3Selector × SemanticEntity}
    (hresolved : resolved? semantic selector.selector = some resolved)
    (hmem : candidate ∈ candidatesOf collation sha256 c2 (selector :: selectors) semantic sourceGeneration)
    (hid : candidate.entityId = resolved.2.id) :
    { candidate with relationIds := [] } =
      { described collation.toLocale sha256 semantic sourceGeneration resolved with relationIds := [] } := by
  obtain ⟨key, hkey⟩ := mem_candidatesOf.1 hmem
  have hresolvedId : key = resolved.2.id := (entityId_of_candidateAt hkey).1.symm.trans hid
  have hfirst : firstResolved (resolvedOf semantic ((selector :: selectors).map (·.selector))) key = some resolved := by
    rw [resolvedOf, List.map_cons, List.filterMap_cons, hresolved, firstResolved,
      List.find?_cons_of_pos (by simpa using hresolvedId.symm)]
  have hall := @firstResolved_allSelectors c2 (selector :: selectors) semantic key
  rw [hfirst, Option.some_or] at hall
  rw [candidateAt_explicit hall] at hkey
  rw [← Option.some.inj hkey]

theorem exists_candidate_of_cons {selector : ExplicitSelector} {resolved : CanonC3Selector × SemanticEntity}
    (hresolved : resolved? semantic selector.selector = some resolved) :
    ∃ candidate ∈ candidatesOf collation sha256 c2 (selector :: selectors) semantic sourceGeneration,
      candidate.entityId = resolved.2.id := by
  have hfirst : firstResolved (resolvedOf semantic ((selector :: selectors).map (·.selector))) resolved.2.id =
      some resolved := by
    rw [resolvedOf, List.map_cons, List.filterMap_cons, hresolved, firstResolved,
      List.find?_cons_of_pos (by simp)]
  have hall := @firstResolved_allSelectors c2 (selector :: selectors) semantic resolved.2.id
  rw [hfirst, Option.some_or] at hall
  exact ⟨_, mem_candidatesOf.2 ⟨_, candidateAt_explicit hall⟩, rfl⟩

/-- Each of two selectors can be put first. -/
theorem describedAlike_of_independent
    (h : IndependentOfOrder collation sha256 c2 selectors semantic sourceGeneration) :
    DescribedAlike collation sha256 selectors semantic sourceGeneration := by
  intro selector hselector other hother left right hleft hright hid
  have hfront : ∀ front ∈ selectors, candidatesOf collation sha256 c2 (front :: selectors) semantic sourceGeneration =
      candidatesOf collation sha256 c2 selectors semantic sourceGeneration := by
    intro front hfront
    refine h (front :: selectors) fun given => ?_
    rw [List.mem_cons]
    exact ⟨fun hmem => hmem.elim (fun heq => heq ▸ hfront) id, .inr⟩
  obtain ⟨candidate, hmem, hcandidate⟩ := @exists_candidate_of_cons collation sha256 c2 selectors semantic
    sourceGeneration selector left hleft
  have hfirst := described_of_cons hleft hmem hcandidate
  rw [hfront selector hselector, ← hfront other hother] at hmem
  have hsecond := described_of_cons hright hmem (hcandidate.trans hid)
  have hsame := hfirst.symm.trans hsecond
  have hempty : ∀ resolved, { described collation.toLocale sha256 semantic sourceGeneration resolved with
      relationIds := [] } = described collation.toLocale sha256 semantic sourceGeneration resolved := by
    intro resolved
    have hnil : sortByLocale collation.toLocale id ([] : List String) = [] := List.mergeSort_nil
    rw [described, toCandidate, explicitDraft, hnil]
  rwa [hempty, hempty] at hsame

theorem firstResolved_described {selectors' : List ExplicitSelector}
    (halike : DescribedAlike collation sha256 selectors semantic sourceGeneration)
    (hmem : ∀ selector, selector ∈ selectors' ↔ selector ∈ selectors) (key : String) :
    (firstResolved (resolvedOf semantic (selectors'.map (·.selector))) key).map
        (described collation.toLocale sha256 semantic sourceGeneration) =
      (firstResolved (resolvedOf semantic (selectors.map (·.selector))) key).map
        (described collation.toLocale sha256 semantic sourceGeneration) := by
  have hof : ∀ (selectors : List ExplicitSelector) {resolved},
      firstResolved (resolvedOf semantic (selectors.map (·.selector))) key = some resolved →
        resolved.2.id = key ∧ ∃ selector ∈ selectors, resolved? semantic selector.selector = some resolved := by
    intro selectors resolved hfirst
    have hkey := List.find?_some hfirst
    obtain ⟨input, hinput, hresolved⟩ := List.mem_filterMap.1 (List.mem_of_find?_eq_some hfirst)
    obtain ⟨selector, hselector, rfl⟩ := List.mem_map.1 hinput
    exact ⟨of_decide_eq_true hkey, selector, hselector, hresolved⟩
  have hsome : ∀ (selectors selectors' : List ExplicitSelector),
      (∀ selector, selector ∈ selectors' → selector ∈ selectors) →
      (firstResolved (resolvedOf semantic (selectors'.map (·.selector))) key).isSome = true →
        (firstResolved (resolvedOf semantic (selectors.map (·.selector))) key).isSome = true := by
    intro selectors selectors' hsub hsome
    obtain ⟨resolved, hresolved⟩ := Option.isSome_iff_exists.1 hsome
    obtain ⟨hkey, selector, hselector, hfound⟩ := hof selectors' hresolved
    exact List.find?_isSome.2 ⟨resolved, List.mem_filterMap.2
      ⟨selector.selector, List.mem_map_of_mem (hsub selector hselector), hfound⟩, decide_eq_true hkey⟩
  cases hleft : firstResolved (resolvedOf semantic (selectors'.map (·.selector))) key with
  | some left =>
    obtain ⟨right, hright⟩ := Option.isSome_iff_exists.1
      (hsome selectors selectors' (fun selector => (hmem selector).1) (Option.isSome_iff_exists.2 ⟨left, hleft⟩))
    obtain ⟨hkey, selector, hselector, hresolved⟩ := hof selectors' hleft
    obtain ⟨hkey', other, hother, hresolved'⟩ := hof selectors hright
    rw [hright, Option.map_some, Option.map_some]
    exact congrArg some (halike selector ((hmem selector).1 hselector) other hother left right hresolved hresolved'
      (hkey.trans hkey'.symm))
  | none =>
    cases hright : firstResolved (resolvedOf semantic (selectors.map (·.selector))) key with
    | none => rfl
    | some right =>
      have hback := hsome selectors' selectors (fun selector => (hmem selector).2)
        (Option.isSome_iff_exists.2 ⟨right, hright⟩)
      rw [hleft] at hback
      exact absurd hback Bool.false_ne_true

theorem independent_of_describedAlike (hseparates : Separates collation.toLocale semantic)
    (halike : DescribedAlike collation sha256 selectors semantic sourceGeneration) :
    IndependentOfOrder collation sha256 c2 selectors semantic sourceGeneration := by
  intro selectors' hmem
  have htrans := collation.trans
  have hfirst : ∀ key, (firstResolved (resolvedOf semantic (distinctSelectors (allSelectors c2 selectors'))) key).map
        (described collation.toLocale sha256 semantic sourceGeneration) =
      (firstResolved (resolvedOf semantic (distinctSelectors (allSelectors c2 selectors))) key).map
        (described collation.toLocale sha256 semantic sourceGeneration) := by
    intro key
    rw [firstResolved_allSelectors, firstResolved_allSelectors, Option.map_or, Option.map_or,
      firstResolved_described halike hmem]
  have hcandidates := candidateAt_congr hseparates hfirst
  refine mergeSort_perm_congr (compareCandidates collation.toLocale)
    (values_map_perm _ hcandidates) fun left hleft right hright heq => ?_
  obtain ⟨key, hkey⟩ := mem_draftsOf_values.1 hleft
  obtain ⟨key', hkey'⟩ := mem_draftsOf_values.1 hright
  obtain ⟨-, hid, entity, hentity, rfl⟩ := entityId_of_candidateAt hkey
  obtain ⟨-, hid', other, hother, rfl⟩ := entityId_of_candidateAt hkey'
  have hcompare := (Ordering.then_eq_eq.1 (Ordering.then_eq_eq.1 heq).2).2
  rw [hid, hid'] at hcompare
  rw [hseparates.entities entity hentity other hother hcompare, hkey'] at hkey
  exact (Option.some.inj hkey).symm

end Order

section Samples

def sampleSymbol : SymbolEntity :=
  { id := "symbol:run", name := "run", authority := "derived"
    producer := { name := "extractor", version := "1" }
    locator := { language := "ts", package := none, module_ := none, file := none, symbol := "run", signature := none }
    classification := "function" }

def oneSymbol : RepositorySemanticSnapshot :=
  { repositoryId := "repository", components := [], files := [], symbols := [sampleSymbol], tests := []
    relations := [], trackedFiles := [] }

def codePointCollation : Collation where
  localeCompare := compare
  toLowerCase := id
  trans := inferInstance

def textSelector (type : CanonC3SelectorType) (value : String) : ExplicitSelector := ⟨⟨type, .text value⟩, rfl⟩

theorem resolved_sampleSymbol {type : CanonC3SelectorType} {value : String} (htype : type = .symbol ∨ type = .interface)
    (hvalue : value = "run" ∨ value = "symbol:run") :
    resolved? oneSymbol (textSelector type value).selector =
      some ({ type := .given type, value := "symbol:run" }, .symbol sampleSymbol) := by
  obtain rfl | rfl := htype <;> obtain rfl | rfl := hvalue <;> rfl

theorem separates_oneSymbol : Separates codePointCollation.toLocale oneSymbol where
  entities entity hentity other hother _ := by
    rw [List.mem_singleton.1 hentity, List.mem_singleton.1 hother]
  relations := nofun

end Samples

end Mottainai.CanonCandidates
