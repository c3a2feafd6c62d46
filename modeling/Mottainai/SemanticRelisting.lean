import Mathlib.Data.List.Dedup
import Mottainai.SemanticCanonicalForm

/-!
# Validity does not depend on the order

A snapshot whose collections list the canonical forms of the items of a valid snapshot, in any
order, is valid too. Validation reads an item by its properties that the canonical form keeps and by
the members of its lists, and it reads a collection by the keys that are unique in it. So the
canonical form of a valid snapshot passes all checks, and its digests are those of the snapshot.
-/

namespace Mottainai.Semantics

open JsonValues

section Members

variable {rules : String → String → Canonical JsonValue}
variable {hkind : ∀ kind, rules kind "kind" = .keep} {v : JsonValue} {name x : String}

theorem kindOf_eq_textMember (properties : Properties) :
    Canonical.kindOf properties = textMember (.object properties) "kind" := by
  rw [Canonical.kindOf, textMember, member, member?]
  cases property properties "kind" <;> rfl

theorem member?_canon (v : JsonValue) (name : String) :
    member? ((Canonical.object rules hkind).canon v) name =
      (member? v name).map (rules (textMember v "kind") name).canon := by
  cases v with
  | object properties =>
    rw [← kindOf_eq_textMember]
    exact Canonical.property_mapValues
      (fun name => (rules (Canonical.kindOf properties) name).canon) properties name
  | _ => rfl

theorem member_canon (h : (rules (textMember v "kind") name).canon .null = .null) :
    member ((Canonical.object rules hkind).canon v) name =
      (rules (textMember v "kind") name).canon (member v name) := by
  rw [member, member, member?_canon]
  cases member? v name with
  | none => exact h.symm
  | some value => rfl

theorem mem_elementsOf_canon {key : JsonValue → String} {a : JsonValue} :
    a ∈ elementsOf ((Canonical.array (Canonical.sorted Canonical.keep key)).canon v) ↔
      a ∈ elementsOf v := by
  cases v with
  | array elements =>
    change a ∈ sortBy key (elements.map id) ↔ a ∈ elements
    rw [mem_sortBy, List.map_id]
  | _ => rfl

/-- A list of strings that is kept or sorted has the same members. -/
theorem mem_textsMember_canon (h : rules (textMember v "kind") name = .keep ∨
    rules (textMember v "kind") name = .texts) :
    x ∈ textsMember ((Canonical.object rules hkind).canon v) name ↔ x ∈ textsMember v name := by
  simp only [textsMember, List.mem_map, elementsMember]
  rcases h with h | h
  · rw [member_canon (by rw [h]; rfl), h]
    rfl
  · rw [member_canon (by rw [h]; rfl), h]
    simp only [Canonical.texts, mem_elementsOf_canon]

theorem mem_textsMember_sortTexts {names : List String} (hnames : "kind" ∉ names) :
    x ∈ textsMember ((sortTexts names hnames).canon v) name ↔ x ∈ textsMember v name := by
  refine mem_textsMember_canon ?_
  by_cases hname : name ∈ names
  · exact Or.inr (if_pos hname)
  · exact Or.inl (if_neg hname)

end Members

section Provenance

variable {v : JsonValue} {name x : String}

theorem member_provenanceOf (h : name ≠ "provenance") (v : JsonValue) :
    member (canonicalizeProvenanceOf.canon v) name = member v name := by
  rw [member, member?_provenanceOf h]
  rfl

theorem textMember_provenanceOf (h : name ≠ "provenance") (v : JsonValue) :
    textMember (canonicalizeProvenanceOf.canon v) name = textMember v name := by
  rw [textMember, member_provenanceOf h]
  rfl

theorem idOf_provenanceOf (v : JsonValue) : idOf (canonicalizeProvenanceOf.canon v) = idOf v :=
  textMember_provenanceOf (by decide) v

theorem provenance_provenanceOf (v : JsonValue) :
    member (canonicalizeProvenanceOf.canon v) "provenance" =
      canonicalizeProvenance.canon (member v "provenance") := by
  rw [canonicalizeProvenanceOf, member_canon]
  · rfl
  · rfl

theorem provenance_entity (v : JsonValue) :
    member (canonicalizeEntity.canon v) "provenance" =
      canonicalizeProvenance.canon (member v "provenance") := by
  have hmember : member (canonicalizeEntity.canon v) "provenance" =
      (entityRule (textMember v "kind") "provenance").canon (member v "provenance") :=
    member_canon rfl
  exact hmember

theorem mem_evidence {p e : JsonValue} :
    e ∈ elementsMember (canonicalizeProvenance.canon p) "evidence" ↔
      e ∈ elementsMember p "evidence" := by
  rw [elementsMember, canonicalizeProvenance, member_canon]
  · exact mem_elementsOf_canon
  · rfl

theorem mem_candidates {p : JsonValue} :
    x ∈ textsMember (member (canonicalizeProvenance.canon p) "ambiguity") "candidates" ↔
      x ∈ textsMember (member p "ambiguity") "candidates" := by
  rw [canonicalizeProvenance, member_canon]
  · exact mem_textsMember_canon (Or.inr rfl)
  · rfl

theorem kind_provenance (p : JsonValue) :
    textMember (canonicalizeProvenance.canon p) "kind" = textMember p "kind" := by
  rw [textMember, canonicalizeProvenance, member_canon]
  · rfl
  · rfl

theorem provenanceKind_provenanceOf (v : JsonValue) :
    provenanceKind (canonicalizeProvenanceOf.canon v) = provenanceKind v := by
  rw [provenanceKind, provenance_provenanceOf, kind_provenance]
  rfl

theorem provenanceKind_entity (v : JsonValue) :
    provenanceKind (canonicalizeEntity.canon v) = provenanceKind v := by
  rw [provenanceKind, provenance_entity, kind_provenance]
  rfl

end Provenance

section Lookups

variable {α β : Type} {l l' : List α} {key : α → String} {f : α → β}

/-- What is found by a unique key does not depend on the order. -/
theorem find?_reverse_map (hnodup : (l.map key).Nodup)
    (hperm : (l'.map fun a => (key a, f a)).Perm (l.map fun a => (key a, f a))) (k : String) :
    (l'.reverse.find? fun a => key a = k).map f = (l.reverse.find? fun a => key a = k).map f := by
  have hkeys : (l'.map key).Perm (l.map key) := by
    have hfst := hperm.map Prod.fst
    rwa [List.map_map, List.map_map] at hfst
  have hfound : ∀ {l₀ : List α}, (l₀.map key).Nodup → ∀ b,
      (l₀.reverse.find? fun a => key a = k).map f = some b ↔
        (k, b) ∈ l₀.map fun a => (key a, f a) := by
    intro l₀ hnodup b
    have hreverse : (l₀.reverse.map key).Nodup := by
      rw [List.map_reverse]
      exact List.nodup_reverse.2 hnodup
    rw [Option.map_eq_some_iff, List.mem_map]
    constructor
    · rintro ⟨a, ha, rfl⟩
      obtain ⟨hmem, rfl⟩ := (TableRows.find?_eq_some_iff hreverse).1 ha
      exact ⟨a, List.mem_reverse.1 hmem, rfl⟩
    · rintro ⟨a, ha, heq⟩
      obtain ⟨rfl, rfl⟩ := Prod.mk.inj heq
      exact ⟨a, (TableRows.find?_eq_some_iff hreverse).2 ⟨List.mem_reverse.2 ha, rfl⟩, rfl⟩
  apply Option.ext
  intro b
  have hmem := hperm.mem_iff (a := (k, b))
  exact (hfound (hkeys.nodup_iff.2 hnodup) b).trans (hmem.trans (hfound hnodup b).symm)

end Lookups

section Tables

/-- The collections of `t` have the canonical forms of the items of `s`, in some order. -/
structure Relisted (s t : RepositorySemanticSnapshot) : Prop where
  collections : ∀ c, Option.Rel
    (fun items items' => items'.Perm (items.map (canonicalizeItem c).canon))
    (s.collections c) (t.collections c)
  project : t.project = s.project
  repositoryIdentity : t.repositoryIdentity = s.repositoryIdentity
  revisionIdentity : t.revisionIdentity = s.revisionIdentity

variable {s t : RepositorySemanticSnapshot} {sha256 : String → String}

theorem Relisted.list (h : Relisted s t) (c : Collection) :
    (t.list c).Perm ((s.list c).map (canonicalizeItem c).canon) := by
  have hrel := h.collections c
  rw [RepositorySemanticSnapshot.list, RepositorySemanticSnapshot.list]
  cases hs : s.collections c with
  | none =>
    rw [hs] at hrel
    cases ht : t.collections c with
    | none => exact List.Perm.refl _
    | some items =>
      rw [ht] at hrel
      cases hrel
  | some items =>
    rw [hs] at hrel
    cases ht : t.collections c with
    | none =>
      rw [ht] at hrel
      cases hrel
    | some items' =>
      rw [ht] at hrel
      cases hrel with
      | some hperm => exact hperm

variable {α : Type} {c : Collection} {f : JsonValue → α}

/-- What the canonical form of an item keeps is listed in another order. -/
theorem Relisted.map (h : Relisted s t) (hf : ∀ v, f ((canonicalizeItem c).canon v) = f v) :
    ((t.list c).map f).Perm ((s.list c).map f) := by
  refine ((h.list c).map f).trans (List.Perm.of_eq ?_)
  rw [List.map_map]
  exact List.map_congr_left fun v _ => hf v

theorem Relisted.flatMap (h : Relisted s t) {cs : List Collection}
    (hf : ∀ c ∈ cs, ∀ v, f ((canonicalizeItem c).canon v) = f v) :
    ((cs.flatMap t.list).map f).Perm ((cs.flatMap s.list).map f) := by
  induction cs with
  | nil => exact List.Perm.refl _
  | cons c cs ih =>
    rw [List.flatMap_cons, List.flatMap_cons, List.map_append, List.map_append]
    exact (h.map (hf c List.mem_cons_self)).append
      (ih fun c' hc' => hf c' (List.mem_cons_of_mem _ hc'))

def entityCollections : List Collection := [.components, .capabilities, .contracts, .invariants,
  .decisions, .rationales, .constraints, .files, .symbols, .packages, .externalDependencies,
  .externalApis, .evidences, .tests]

theorem canonicalizeItem_entity (hc : c ∈ entityCollections) :
    canonicalizeItem c = canonicalizeEntity := by
  simp only [entityCollections, List.mem_cons, List.not_mem_nil, or_false] at hc
  rcases hc with rfl | rfl | rfl | rfl | rfl | rfl | rfl | rfl | rfl | rfl | rfl | rfl | rfl |
    rfl <;> rfl

theorem entities_eq (s : RepositorySemanticSnapshot) :
    entities s = s.project :: entityCollections.flatMap s.list := by
  simp [entities, snapshotEntities, entityCollections, Function.comp_def]

theorem Relisted.entities_map (h : Relisted s t) (hf : ∀ v, f (canonicalizeEntity.canon v) = f v) :
    ((entities t).map f).Perm ((entities s).map f) := by
  rw [entities_eq, entities_eq, List.map_cons, List.map_cons, h.project]
  refine List.Perm.cons _ (h.flatMap fun c hc v => ?_)
  rw [canonicalizeItem_entity hc]
  exact hf v

theorem textMember_entity {name : String} (h : ∀ kind, entityRule kind name = .keep)
    (v : JsonValue) : textMember (canonicalizeEntity.canon v) name = textMember v name := by
  have hnull : (entityRule (textMember v "kind") name).canon .null = .null := by rw [h]; rfl
  have hmember : member (canonicalizeEntity.canon v) name =
      (entityRule (textMember v "kind") name).canon (member v name) := member_canon hnull
  rw [textMember, hmember, h]
  rfl

theorem Relisted.mem_validTargets (h : Relisted s t) {id : String} :
    id ∈ validTargets t ↔ id ∈ validTargets s := by
  have hids := h.entities_map (f := idOf) (textMember_entity fun _ => rfl)
  rw [validTargets, validTargets, h.repositoryIdentity, h.revisionIdentity]
  simp only [List.cons_append, List.mem_cons, List.mem_append, hids.mem_iff]

theorem Relisted.entityById_kind (h : Relisted s t) (hnodup : ((entities s).map idOf).Nodup)
    (id : String) : (entityById t id).map (textMember · "kind") =
      (entityById s id).map (textMember · "kind") := by
  refine find?_reverse_map hnodup (h.entities_map fun v => ?_) id
  rw [idOf, textMember_entity fun _ => rfl, textMember_entity fun _ => rfl]
  rfl

end Tables

variable {s t : RepositorySemanticSnapshot} {sha256 : String → String}

section Passed

variable {α : Type} {items : List α} {seen : List String} {key : α → String}

theorem checkDuplicate_of_nodup (h : (seen ++ items.map key).Nodup) {item : α} {index : ℕ}
    (hitem : items[index]? = some item) (d : SemanticDiagnostic) :
    checkDuplicate seen items key item index d = [] := by
  obtain ⟨hlt, rfl⟩ := List.getElem?_eq_some_iff.1 hitem
  rw [checkDuplicate, check_eq_nil, decide_eq_false_iff_not, List.mem_append, not_or]
  rw [List.nodup_append'] at h
  obtain ⟨-, hitems, hdisjoint⟩ := h
  refine ⟨fun hmem => hdisjoint hmem (List.mem_map_of_mem (List.getElem_mem hlt)), ?_⟩
  rw [List.mem_map]
  rintro ⟨other, hother, heq⟩
  obtain ⟨i, hi, rfl⟩ := List.mem_take_iff_getElem.1 hother
  have hkeys := (List.nodup_iff_getElem?_ne_getElem?.1 hitems) i index (by omega)
    (by rw [List.length_map]; exact hlt)
  apply hkeys
  rw [List.getElem?_map, List.getElem?_map, List.getElem?_eq_getElem (by omega),
    List.getElem?_eq_getElem hlt, Option.map_some, Option.map_some, heq]

theorem nodup_append_of_checkDuplicate (hseen : seen.Nodup)
    (h : ∀ item index, items[index]? = some item → ∃ d,
      checkDuplicate seen items key item index d = []) : (seen ++ items.map key).Nodup := by
  refine List.nodup_append'.2 ⟨hseen, nodup_of_checkDuplicate seen h, ?_⟩
  intro k hk hmem
  obtain ⟨item, hitem, rfl⟩ := List.mem_map.1 hmem
  obtain ⟨index, hlt, rfl⟩ := List.mem_iff_getElem.1 hitem
  obtain ⟨d, hd⟩ := h _ index (List.getElem?_eq_getElem hlt)
  rw [checkDuplicate, check_eq_nil, decide_eq_false_iff_not] at hd
  exact hd (List.mem_append_left _ hk)

theorem forEach_relisted {items items' : List JsonValue} {c : Canonical JsonValue}
    {f f' : JsonValue → ℕ → List SemanticDiagnostic} (hperm : items'.Perm (items.map c.canon))
    (hstep : ∀ v index index', v ∈ items → items'[index']? = some (c.canon v) →
      f v index = [] → f' (c.canon v) index' = []) (h : forEach items f = []) :
    forEach items' f' = [] := by
  rw [forEach_eq_nil] at h ⊢
  intro item index hitem
  obtain ⟨v, hv, rfl⟩ := List.mem_map.1 (hperm.mem_iff.1 (List.mem_of_getElem? hitem))
  obtain ⟨index', hlt, rfl⟩ := List.mem_iff_getElem.1 hv
  exact hstep _ index' index (List.getElem_mem hlt) hitem
    (h _ index' (List.getElem?_eq_getElem hlt))

theorem forEach_eq_nil_iff {f : α → ℕ → List SemanticDiagnostic} {P : α → Prop}
    (h : ∀ a index, f a index = [] ↔ P a) : forEach items f = [] ↔ ∀ a ∈ items, P a := by
  rw [forEach_eq_nil]
  constructor
  · intro hall a ha
    obtain ⟨index, hlt, rfl⟩ := List.mem_iff_getElem.1 ha
    exact (h _ index).1 (hall _ index (List.getElem?_eq_getElem hlt))
  · intro hall a index ha
    exact (h a index).2 (hall a (List.mem_of_getElem? ha))

end Passed

section References

/-- The id is that of something of one of these kinds. -/
def Resolves (s : RepositorySemanticSnapshot) (expectedKinds : List String) (id : String) : Prop :=
  id ∈ validTargets s ∧
    ∀ kind ∈ (entityById s id).map (textMember · "kind"), kind ∈ expectedKinds

/-- Everything that a provenance refers to is there. -/
def ProvenanceResolves (s : RepositorySemanticSnapshot) (provenance : JsonValue) : Prop :=
  (∀ evidence ∈ elementsMember provenance "evidence", ∀ target ∈ member? evidence "target",
    textOf target ∈ validTargets s) ∧
    ∀ candidate ∈ textsMember (member provenance "ambiguity") "candidates",
      candidate ∈ validTargets s

variable {value path : String}

theorem checkReference_eq_nil : checkReference s value path = [] ↔ value ∈ validTargets s := by
  rw [checkReference, check_eq_nil, decide_eq_false_iff_not, not_not]

theorem checkReferenceKind_eq_nil {expectedKinds : List String} :
    checkReferenceKind s value expectedKinds path = [] ↔ Resolves s expectedKinds value := by
  rw [checkReferenceKind, List.append_eq_nil_iff, checkReference_eq_nil, Resolves]
  refine and_congr_right fun _ => ?_
  cases entityById s value with
  | none => simp
  | some target => simp [check_eq_nil]

theorem checkEntityIdList_eq_nil {ids : List String} :
    checkEntityIdList s ids path = [] ↔ ∀ id ∈ ids, id ∈ validTargets s :=
  forEach_eq_nil_iff fun _ _ => checkReference_eq_nil

theorem checkEntityIdListKind_eq_nil {ids expectedKinds : List String} :
    checkEntityIdListKind s ids expectedKinds path = [] ↔ ∀ id ∈ ids, Resolves s expectedKinds id :=
  forEach_eq_nil_iff fun _ _ => checkReferenceKind_eq_nil

theorem checkProvenanceOf_eq_nil {item : JsonValue} :
    checkProvenanceOf s item path = [] ↔ ProvenanceResolves s (member item "provenance") := by
  rw [checkProvenanceOf, checkProvenance, List.append_eq_nil_iff, ProvenanceResolves]
  refine and_congr (forEach_eq_nil_iff fun evidence index => ?_)
    (forEach_eq_nil_iff fun _ _ => checkReference_eq_nil)
  cases member? evidence "target" with
  | none => simp
  | some target => simp [checkReference_eq_nil]

theorem checkPerspectiveOf_eq_nil {what : String} {item : JsonValue} :
    checkPerspectiveOf s what item path = [] ↔
      textMember item "perspectiveId" ∈ perspectiveIds s := by
  rw [checkPerspectiveOf, check_eq_nil, decide_eq_false_iff_not, not_not]

end References

section Tables

def requirementTerms (requirement : JsonValue) : String × String × String × String :=
  (textMember (member requirement "target") "kind", idOf (member requirement "target"),
    textMember requirement "perspectiveId", textMember requirement "strength")

/-- Checks find the same in both snapshots. -/
structure SameTables (s t : RepositorySemanticSnapshot) : Prop where
  targets : ∀ id, id ∈ validTargets t ↔ id ∈ validTargets s
  kinds : ∀ id, (entityById t id).map (textMember · "kind") =
    (entityById s id).map (textMember · "kind")
  perspectives : ∀ id, id ∈ perspectiveIds t ↔ id ∈ perspectiveIds s
  authoritative : ∀ id, id ∈ authoritativeRequirementIds t ↔ id ∈ authoritativeRequirementIds s
  requirements : ∀ id, (requirementById t id).map requirementTerms =
    (requirementById s id).map requirementTerms
  evidence : ∀ id, id ∈ evidenceIds t ↔ id ∈ evidenceIds s

theorem SameTables.resolves (h : SameTables s t) {expectedKinds : List String} {id : String} :
    Resolves t expectedKinds id ↔ Resolves s expectedKinds id := by
  rw [Resolves, Resolves, h.targets, h.kinds]

theorem SameTables.provenance (h : SameTables s t) {p : JsonValue} :
    ProvenanceResolves t (canonicalizeProvenance.canon p) ↔ ProvenanceResolves s p := by
  simp only [ProvenanceResolves, mem_evidence, mem_candidates, h.targets]

/-- The ids of the requirements of all layers are distinct. -/
theorem nodup_allRequirements (h : validateReferences s sha256 = []) :
    ((s.list .declaredRequirements ++ s.list .derivedRequirements ++
      s.list .inferredRequirements).map idOf).Nodup := by
  simp only [validateReferences, List.append_eq_nil_iff] at h
  obtain ⟨⟨⟨⟨⟨⟨⟨⟨⟨⟨⟨⟨⟨⟨-, -⟩, -⟩, hdeclared⟩, hderived⟩, -⟩, hanalysis⟩, -⟩, -⟩, -⟩, -⟩, -⟩, -⟩, -⟩, -⟩ := h
  simp only [checkVerificationAnalysis, List.append_eq_nil_iff] at hanalysis
  obtain ⟨⟨⟨-, hinferred⟩, -⟩, -⟩ := hanalysis
  have hstep : ∀ {seen c container authority}, seen.Nodup →
      checkRequirements s seen c container authority = [] →
      (seen ++ (s.list c).map idOf).Nodup := by
    intro seen c container authority hseen hchecks
    refine nodup_append_of_checkDuplicate hseen fun requirement index hrequirement => ?_
    exact ⟨_, (List.append_eq_nil_iff.1 (forEach_eq_nil.1 hchecks _ _ hrequirement)).1⟩
  have hfirst := hstep List.nodup_nil hdeclared
  have hsecond := hstep hfirst hderived
  rw [List.nil_append, ← List.map_append] at hsecond
  have hthird := hstep hsecond hinferred
  rwa [← List.map_append] at hthird

theorem Relisted.sameTables (h : Relisted s t) (hvalid : validateReferences s sha256 = []) :
    SameTables s t where
  targets _ := h.mem_validTargets
  kinds := by
    refine h.entityById_kind ?_
    simp only [validateReferences, List.append_eq_nil_iff] at hvalid
    exact nodup_entities hvalid.1.1.1.1.1.1.1.1.1.1.1.1.1.2
  perspectives _ := (h.map idOf_provenanceOf).mem_iff
  authoritative id := by
    rw [authoritativeRequirementIds, authoritativeRequirementIds, List.map_append,
      List.map_append, List.mem_append, List.mem_append,
      (h.map (c := .declaredRequirements) idOf_provenanceOf).mem_iff,
      (h.map (c := .derivedRequirements) idOf_provenanceOf).mem_iff]
  requirements := by
    refine find?_reverse_map (nodup_allRequirements hvalid) ?_
    have hterms : ∀ v, (idOf (canonicalizeProvenanceOf.canon v),
        requirementTerms (canonicalizeProvenanceOf.canon v)) = (idOf v, requirementTerms v) := by
      intro v
      rw [requirementTerms, idOf_provenanceOf, member_provenanceOf (by decide),
        textMember_provenanceOf (by decide), textMember_provenanceOf (by decide)]
      rfl
    simp only [List.map_append]
    exact ((h.map hterms).append (h.map hterms)).append (h.map hterms)
  evidence _ := (h.map idOf_provenanceOf).mem_iff

end Tables

section Entities

/-- Every entity of `t` is the canonical form of one of `s` in the same layer, or the project. -/
theorem Relisted.mem_snapshotEntities (h : Relisted s t) {entity : JsonValue}
    {layer : String × String} (hmem : (entity, layer) ∈ snapshotEntities t) :
    ∃ e, (e, layer) ∈ snapshotEntities s ∧ (entity = e ∨ entity = canonicalizeEntity.canon e) := by
  have hlayer : ∀ {cs : List Collection} {tag : String × String}, cs ⊆ entityCollections →
      (entity, layer) ∈ (cs.flatMap t.list).map (fun e => (e, tag)) →
      ∃ e, (e, layer) ∈ (cs.flatMap s.list).map (fun e => (e, tag)) ∧
        entity = canonicalizeEntity.canon e := by
    intro cs tag hcs hin
    obtain ⟨e, he, heq⟩ := List.mem_map.1 hin
    obtain ⟨rfl, rfl⟩ := Prod.mk.inj heq
    obtain ⟨c, hc, hec⟩ := List.mem_flatMap.1 he
    obtain ⟨v, hv, rfl⟩ := List.mem_map.1 ((h.list c).mem_iff.1 hec)
    rw [canonicalizeItem_entity (hcs hc)]
    exact ⟨v, List.mem_map_of_mem (List.mem_flatMap.2 ⟨c, hc, hv⟩), rfl⟩
  simp only [snapshotEntities, List.mem_cons, List.mem_append, List.cons_append] at hmem ⊢
  rcases hmem with heq | (hin | hin) | hin
  · rw [h.project] at heq
    obtain ⟨rfl, rfl⟩ := Prod.mk.inj heq
    exact ⟨_, Or.inl rfl, Or.inl rfl⟩
  · obtain ⟨e, he, heq⟩ := hlayer (by decide) hin
    exact ⟨e, Or.inr (Or.inl (Or.inl he)), Or.inr heq⟩
  · obtain ⟨e, he, heq⟩ := hlayer (by decide) hin
    exact ⟨e, Or.inr (Or.inl (Or.inr he)), Or.inr heq⟩
  · obtain ⟨e, he, heq⟩ := hlayer (by decide) hin
    exact ⟨e, Or.inr (Or.inr he), Or.inr heq⟩

/-- What is checked about one entity, apart from its id being unique. -/
structure EntityHolds (entity : JsonValue) (authority : String) : Prop where
  namespace_kind : (namespaceForNodeKind (textMember entity "kind")).any
    (fun expected => logicalIdNamespace (idOf entity) != expected) = false
  authority_layer : textMember entity "authority" = authority
  inferred : ¬ (provenanceKind entity = "inferred" ∧ textMember entity "authority" = "declared")
  symbol : ∀ path, checkSymbolId entity path = []

theorem checkSymbolId_congr {entity entity' : JsonValue} {path path' : String}
    (hkind : textMember entity' "kind" = textMember entity "kind")
    (hid : idOf entity' = idOf entity) (hlocator : locatorOf entity' = locatorOf entity)
    (h : checkSymbolId entity path = []) : checkSymbolId entity' path' = [] := by
  rw [checkSymbolId] at h ⊢
  rw [hkind, hlocator, hid]
  by_cases hsymbol : textMember entity "kind" = "symbol"
  · rw [if_pos hsymbol] at h ⊢
    cases hcreate : SemanticIds.createSymbolId (locatorOf entity) with
    | ok id =>
      rw [hcreate] at h
      exact check_eq_nil.2 (check_eq_nil.1 h)
    | error message =>
      rw [hcreate] at h
      cases h
  · rw [if_neg hsymbol]

theorem EntityHolds.canon {entity : JsonValue} {authority : String}
    (h : EntityHolds entity authority) :
    EntityHolds (canonicalizeEntity.canon entity) authority := by
  have hmember : ∀ name, (∀ kind, entityRule kind name = .keep) →
      member (canonicalizeEntity.canon entity) name = member entity name := by
    intro name hname
    have hnull : (entityRule (textMember entity "kind") name).canon .null = .null := by
      rw [hname]
      rfl
    have hcanon : member (canonicalizeEntity.canon entity) name =
        (entityRule (textMember entity "kind") name).canon (member entity name) :=
      member_canon hnull
    rw [hcanon, hname]
    rfl
  have htext : ∀ name, (∀ kind, entityRule kind name = .keep) →
      textMember (canonicalizeEntity.canon entity) name = textMember entity name :=
    fun name hname => textMember_entity hname entity
  refine ⟨?_, ?_, ?_, fun path => ?_⟩
  · rw [htext "kind" fun _ => rfl, idOf, htext "id" fun _ => rfl]
    exact h.namespace_kind
  · rw [htext "authority" fun _ => rfl]
    exact h.authority_layer
  · rw [provenanceKind_entity, htext "authority" fun _ => rfl]
    exact h.inferred
  · refine checkSymbolId_congr (htext "kind" fun _ => rfl) (htext "id" fun _ => rfl) ?_
      (h.symbol path)
    rw [locatorOf, hmember "locator" fun _ => rfl]
    rfl

theorem checkEntities_eq_nil : checkEntities s = [] ↔ ((entities s).map idOf).Nodup ∧
    ∀ entity layer authority, (entity, layer, authority) ∈ snapshotEntities s →
      EntityHolds entity authority := by
  constructor
  · intro h
    refine ⟨nodup_entities h, fun entity layer authority hmem => ?_⟩
    obtain ⟨index, hlt, heq⟩ := List.mem_iff_getElem.1 hmem
    have hchecks := forEach_eq_nil.1 h _ index (List.getElem?_eq_getElem hlt)
    rw [heq] at hchecks
    simp only [List.append_eq_nil_iff, check_eq_nil, bne_eq_false_iff_eq, Bool.and_eq_false_iff,
      beq_eq_false_iff_ne] at hchecks
    obtain ⟨⟨⟨⟨-, hnamespace⟩, hauthority⟩, hinferred⟩, hsymbol⟩ := hchecks
    refine ⟨hnamespace, hauthority, fun hboth => ?_, fun path =>
      checkSymbolId_congr rfl rfl rfl hsymbol⟩
    exact hinferred.elim (fun hne => hne hboth.1) fun hne => hne hboth.2
  · rintro ⟨hnodup, hholds⟩
    refine forEach_eq_nil.2 fun ⟨entity, layer, authority⟩ index hitem => ?_
    obtain ⟨hnamespace, hauthority, hinferred, hsymbol⟩ :=
      hholds entity layer authority (List.mem_of_getElem? hitem)
    have hentity : (entities s)[index]? = some entity := by
      rw [entities, List.getElem?_map, hitem]
      rfl
    simp only [List.append_eq_nil_iff, check_eq_nil, bne_eq_false_iff_eq, Bool.and_eq_false_iff,
      beq_eq_false_iff_ne]
    refine ⟨⟨⟨⟨checkDuplicate_of_nodup (by simpa using hnodup) hentity _, hnamespace⟩,
      hauthority⟩, ?_⟩, hsymbol _⟩
    by_cases hkind : provenanceKind entity = "inferred"
    · exact Or.inr fun hdeclared => hinferred ⟨hkind, hdeclared⟩
    · exact Or.inl hkind

theorem Relisted.checkEntities (h : Relisted s t) (hs : checkEntities s = []) :
    checkEntities t = [] := by
  obtain ⟨hnodup, hholds⟩ := checkEntities_eq_nil.1 hs
  have hids := h.entities_map (f := idOf) (textMember_entity fun _ => rfl)
  refine checkEntities_eq_nil.2 ⟨hids.nodup_iff.2 hnodup, fun entity layer authority hmem => ?_⟩
  obtain ⟨e, he, rfl | rfl⟩ := h.mem_snapshotEntities hmem
  · exact hholds _ layer authority he
  · exact (hholds e layer authority he).canon

end Entities

section Verification

theorem Relisted.nodup (h : Relisted s t) (hvalid : validateReferences s sha256 = [])
    {c : Collection} (hkey : uniqueKey c = some idOf) : ((t.list c).map idOf).Nodup :=
  (h.map (idOf_canon c)).nodup_iff.2 (nodup_uniqueKey hvalid hkey)

theorem Relisted.checkPerspectives (h : Relisted s t) (ht : SameTables s t)
    (hvalid : validateReferences s sha256 = []) (hs : checkPerspectives s = []) :
    checkPerspectives t = [] := by
  simp only [Semantics.checkPerspectives] at hs ⊢
  refine forEach_relisted (c := canonicalizeProvenanceOf) (h.list .verificationPerspectives)
    (fun v index index' _ hitem hv => ?_) hs
  simp only [List.append_eq_nil_iff, check_eq_nil, checkProvenanceOf_eq_nil] at hv ⊢
  obtain ⟨⟨-, hauthority⟩, hprovenance⟩ := hv
  rw [textMember_provenanceOf (by decide), provenanceKind_provenanceOf, provenance_provenanceOf,
    ht.provenance]
  exact ⟨⟨checkDuplicate_of_nodup (h.nodup hvalid rfl) hitem _, hauthority⟩, hprovenance⟩

variable {path path' : String}

theorem SameTables.reference (h : SameTables s t) {id : String}
    (hs : checkReference s id path = []) : checkReference t id path' = [] := by
  rw [checkReference_eq_nil] at hs ⊢
  exact (h.targets id).2 hs

theorem SameTables.referenceKind (h : SameTables s t) {id : String} {expectedKinds : List String}
    (hs : checkReferenceKind s id expectedKinds path = []) :
    checkReferenceKind t id expectedKinds path' = [] := by
  rw [checkReferenceKind_eq_nil] at hs ⊢
  exact h.resolves.2 hs

theorem SameTables.verificationTarget (h : SameTables s t) {target : JsonValue}
    (hs : checkVerificationTarget s target path = []) :
    checkVerificationTarget t target path' = [] := by
  rw [checkVerificationTarget, checkReferenceKind_eq_nil] at hs ⊢
  exact h.resolves.2 hs

theorem checkRequirementSource_eq_nil {kind what : String} {provenance : JsonValue} :
    checkRequirementSource s kind what provenance path = [] ↔
      (textMember provenance "kind" = what → ∃ sourceId,
        member? provenance "sourceId" = some sourceId ∧ Resolves s [kind] (textOf sourceId)) := by
  rw [checkRequirementSource]
  by_cases hwhat : textMember provenance "kind" = what
  · rw [if_pos hwhat]
    cases member? provenance "sourceId" with
    | none => simp [hwhat]
    | some sourceId => simp [hwhat, checkReferenceKind_eq_nil]
  · simp [hwhat]

theorem SameTables.verificationRequirement (h : SameTables s t) {requirement : JsonValue}
    {expectedAuthority : String}
    (hs : checkVerificationRequirement s requirement path expectedAuthority = []) :
    checkVerificationRequirement t (canonicalizeProvenanceOf.canon requirement) path'
      expectedAuthority = [] := by
  simp only [checkVerificationRequirement, List.append_eq_nil_iff, check_eq_nil,
    checkRequirementSource_eq_nil, checkPerspectiveOf_eq_nil, checkProvenanceOf_eq_nil] at hs ⊢
  rw [textMember_provenanceOf (by decide), provenanceKind_provenanceOf,
    member_provenanceOf (by decide), member_provenanceOf (by decide),
    textMember_provenanceOf (by decide), provenance_provenanceOf, h.provenance, h.perspectives]
  simp only [h.resolves]
  obtain ⟨⟨⟨⟨hchecks, hsource⟩, htarget⟩, hperspective⟩, hprovenance⟩ := hs
  refine ⟨⟨⟨⟨hchecks, ?_⟩, h.verificationTarget htarget⟩, hperspective⟩, hprovenance⟩
  cases hsourceId : member? (member requirement "requirementProvenance") "sourceId" with
  | none => rfl
  | some sourceId =>
    simp only [hsourceId] at hsource ⊢
    split_ifs at hsource ⊢ with hkind
    · exact checkReference_eq_nil.2 ((h.targets _).2 (checkReference_eq_nil.1 hsource))
    · rfl

/-- The requirements of a layer, of which the ids were distinct from those before it. -/
theorem Relisted.checkRequirements (h : Relisted s t) (ht : SameTables s t) {c : Collection}
    (hc : canonicalizeItem c = canonicalizeProvenanceOf) {seen seen' : List String}
    {container authority : String} (hseen : seen'.Perm seen) (hnodup : seen.Nodup)
    (hs : checkRequirements s seen c container authority = []) :
    checkRequirements t seen' c container authority = [] := by
  have hids : (seen' ++ (t.list c).map idOf).Nodup := by
    refine (hseen.append (h.map (idOf_canon c))).nodup_iff.2 ?_
    refine nodup_append_of_checkDuplicate hnodup fun requirement index hrequirement => ?_
    exact ⟨_, (List.append_eq_nil_iff.1 (forEach_eq_nil.1 hs _ _ hrequirement)).1⟩
  refine forEach_relisted (c := canonicalizeProvenanceOf) (hc ▸ h.list c)
    (fun v index index' _ hitem hv => ?_) hs
  rw [List.append_eq_nil_iff] at hv ⊢
  exact ⟨checkDuplicate_of_nodup hids hitem _, ht.verificationRequirement hv.2⟩

theorem Relisted.checkVerificationEvidence (h : Relisted s t) (ht : SameTables s t)
    (hvalid : validateReferences s sha256 = []) (hs : checkVerificationEvidence s = []) :
    checkVerificationEvidence t = [] := by
  simp only [Semantics.checkVerificationEvidence] at hs ⊢
  refine forEach_relisted (c := canonicalizeProvenanceOf) (h.list .verificationEvidence)
    (fun v index index' _ hitem hv => ?_) hs
  simp only [List.append_eq_nil_iff, check_eq_nil, checkPerspectiveOf_eq_nil,
    checkProvenanceOf_eq_nil] at hv ⊢
  obtain ⟨⟨⟨⟨⟨-, hauthority⟩, htarget⟩, htest⟩, hperspective⟩, hprovenance⟩ := hv
  rw [textMember_provenanceOf (by decide), provenanceKind_provenanceOf,
    member_provenanceOf (by decide), member?_provenanceOf (by decide),
    textMember_provenanceOf (by decide), provenance_provenanceOf, ht.provenance, ht.perspectives]
  refine ⟨⟨⟨⟨⟨checkDuplicate_of_nodup (h.nodup hvalid rfl) hitem _, hauthority⟩,
    ht.verificationTarget htarget⟩, ?_⟩, hperspective⟩, hprovenance⟩
  cases htestId : member? v "testId" with
  | none => rfl
  | some testId =>
    rw [htestId] at htest
    exact ht.referenceKind htest

theorem SameTables.assessmentEvidence (h : SameTables s t) {assessment : JsonValue} {name : String}
    (hs : checkAssessmentEvidence s assessment name path = []) :
    checkAssessmentEvidence t (canonicalizeVerificationAssessment.canon assessment) name path' = [] := by
  rw [checkAssessmentEvidence, forEach_eq_nil_iff (P := fun id => id ∈ evidenceIds _)] at hs ⊢
  · exact fun id hid => (h.evidence id).2 (hs id ((mem_textsMember_sortTexts _).1 hid))
  · exact fun _ _ => by rw [check_eq_nil, decide_eq_false_iff_not, not_not]
  · exact fun _ _ => by rw [check_eq_nil, decide_eq_false_iff_not, not_not]

theorem SameTables.assessmentTerms (h : SameTables s t) {assessment assessment' : JsonValue}
    (hterms : requirementTerms assessment' = requirementTerms assessment)
    (hid : textMember assessment' "requirementId" = textMember assessment "requirementId")
    (hs : checkAssessment s assessment path = []) :
    ∀ requirement ∈ requirementById t (textMember assessment' "requirementId"),
      requirementTerms requirement = requirementTerms assessment' := by
  intro requirement hrequirement
  simp only [checkAssessment, List.append_eq_nil_iff, check_eq_nil, decide_eq_false_iff_not,
    not_not] at hs
  obtain ⟨⟨⟨⟨⟨hauthoritative, hmatch⟩, -⟩, -⟩, -⟩, -⟩ := hs
  have hfound := h.requirements (textMember assessment' "requirementId")
  rw [Option.mem_def.1 hrequirement, hid, Option.map_some, eq_comm, Option.map_eq_some_iff] at hfound
  obtain ⟨requirement', hrequirement', hsame⟩ := hfound
  rw [hrequirement'] at hmatch
  simp only [check_eq_nil, hauthoritative, decide_true, Bool.true_and, Bool.or_eq_false_iff,
    bne_eq_false_iff_eq] at hmatch
  obtain ⟨⟨⟨hkind, htarget⟩, hperspective⟩, hstrength⟩ := hmatch
  rw [← hsame, hterms, requirementTerms, requirementTerms, hkind, htarget, hperspective, hstrength]

theorem SameTables.assessment (h : SameTables s t) {assessment : JsonValue}
    (hs : checkAssessment s assessment path = []) :
    checkAssessment t (canonicalizeVerificationAssessment.canon assessment) path' = [] := by
  have hmember : ∀ name, name ∉ ["evidenceIds", "satisfyingEvidenceIds", "missingEvidenceKinds"] →
      member (canonicalizeVerificationAssessment.canon assessment) name = member assessment name := by
    intro name hname
    rw [member, canonicalizeVerificationAssessment, member?_sortTexts _ hname]
    rfl
  have htext : ∀ name, name ∉ ["evidenceIds", "satisfyingEvidenceIds", "missingEvidenceKinds"] →
      textMember (canonicalizeVerificationAssessment.canon assessment) name =
        textMember assessment name := fun name hname => congrArg textOf (hmember name hname)
  have hterms : requirementTerms (canonicalizeVerificationAssessment.canon assessment) =
      requirementTerms assessment := by
    rw [requirementTerms, hmember "target" (by decide), htext "perspectiveId" (by decide),
      htext "strength" (by decide)]
    rfl
  have hfound := h.assessmentTerms hterms (htext "requirementId" (by decide)) hs
  simp only [checkAssessment, List.append_eq_nil_iff, check_eq_nil, decide_eq_false_iff_not, not_not,
    checkPerspectiveOf_eq_nil] at hs ⊢
  obtain ⟨⟨⟨⟨⟨hauthoritative, -⟩, htarget⟩, hperspective⟩, hevidence⟩, hsatisfying⟩ := hs
  refine ⟨⟨⟨⟨⟨?_, ?_⟩, ?_⟩, ?_⟩, h.assessmentEvidence hevidence⟩, h.assessmentEvidence hsatisfying⟩
  · rw [htext "requirementId" (by decide), h.authoritative]
    exact hauthoritative
  · cases hrequirement : requirementById t
      (textMember (canonicalizeVerificationAssessment.canon assessment) "requirementId") with
    | none => rfl
    | some requirement =>
      have hsame := hfound requirement hrequirement
      simp only [requirementTerms, Prod.mk.injEq] at hsame
      obtain ⟨hkind, htarget, hperspective, hstrength⟩ := hsame
      rw [check_eq_nil, hkind, htarget, hperspective, hstrength]
      simp
  · rw [hmember "target" (by decide)]
    exact h.verificationTarget htarget
  · rw [htext "perspectiveId" (by decide), h.perspectives]
    exact hperspective

theorem SameTables.summary (h : SameTables s t) {summary : JsonValue}
    (hs : checkSummary s summary path = []) :
    checkSummary t (canonicalizeVerificationSummary.canon summary) path' = [] := by
  have htext : ∀ name, name ∉ ["gapRequirementIds"] →
      textMember (canonicalizeVerificationSummary.canon summary) name = textMember summary name := by
    intro name hname
    rw [textMember, member, canonicalizeVerificationSummary, member?_sortTexts _ hname]
    rfl
  rw [checkSummary, List.append_eq_nil_iff] at hs ⊢
  rw [htext "targetId" (by decide), htext "scope" (by decide)]
  refine ⟨h.referenceKind hs.1, ?_⟩
  have hgaps := hs.2
  rw [forEach_eq_nil_iff (P := fun id => id ∈ authoritativeRequirementIds _)] at hgaps ⊢
  · exact fun id hid => (h.authoritative id).2 (hgaps id ((mem_textsMember_sortTexts _).1 hid))
  · exact fun _ _ => by rw [check_eq_nil, decide_eq_false_iff_not, not_not]
  · exact fun _ _ => by rw [check_eq_nil, decide_eq_false_iff_not, not_not]

theorem assessmentKey_relisted (v : JsonValue) :
    assessmentKey (canonicalizeVerificationAssessment.canon v) = assessmentKey v := by
  simp only [assessmentKey, textMember, member, canonicalizeVerificationAssessment]
  rw [member?_sortTexts _ (by decide), member?_sortTexts _ (by decide)]

theorem Relisted.checkVerificationAnalysis (h : Relisted s t) (ht : SameTables s t)
    (hvalid : validateReferences s sha256 = [])
    (hauthority : t.verificationAuthority = s.verificationAuthority)
    (hs : checkVerificationAnalysis s = []) : checkVerificationAnalysis t = [] := by
  simp only [Semantics.checkVerificationAnalysis, List.append_eq_nil_iff] at hs ⊢
  obtain ⟨⟨⟨hanalysis, hinferred⟩, hassessments⟩, hsummaries⟩ := hs
  refine ⟨⟨⟨?_, ?_⟩, ?_⟩, ?_⟩
  · rwa [hauthority]
  · have hids : (authoritativeRequirementIds t).Perm (authoritativeRequirementIds s) := by
      rw [authoritativeRequirementIds, authoritativeRequirementIds, List.map_append, List.map_append]
      exact (h.map idOf_provenanceOf).append (h.map idOf_provenanceOf)
    have hnodup := nodup_allRequirements hvalid
    rw [List.map_append] at hnodup
    exact h.checkRequirements ht rfl hids (List.nodup_append'.1 hnodup).1 hinferred
  · have hkeys : ((t.list .assessments).map assessmentKey).Nodup :=
      (h.map assessmentKey_relisted).nodup_iff.2 (nodup_uniqueKey hvalid (c := .assessments) rfl)
    refine forEach_relisted (c := canonicalizeVerificationAssessment) (h.list .assessments)
      (fun v index index' _ hitem hv => ?_) hassessments
    rw [List.append_eq_nil_iff] at hv ⊢
    exact ⟨ht.assessment hv.1, checkDuplicate_of_nodup hkeys hitem _⟩
  · exact forEach_relisted (c := canonicalizeVerificationSummary) (h.list .summaries)
      (fun v index index' _ _ hv => ht.summary hv) hsummaries

end Verification

variable {s t : RepositorySemanticSnapshot} {sha256 : String → String} {path path' : String}

section Facts

theorem SameTables.fact (h : SameTables s t) {fact : JsonValue} (hs : checkFact s fact path = []) :
    checkFact t (canonicalizeProvenanceOf.canon fact) path' = [] := by
  simp only [checkFact, List.append_eq_nil_iff, checkReference_eq_nil, checkProvenanceOf_eq_nil] at hs ⊢
  rw [textMember_provenanceOf (by decide), provenance_provenanceOf, h.provenance, h.targets]
  exact hs

variable (h : Relisted s t)
include h

theorem Relisted.checkFacts (ht : SameTables s t) {c : Collection}
    (hc : canonicalizeItem c = canonicalizeProvenanceOf) {seen seen' : List String}
    {layer authority : String} (hseen : seen'.Perm seen) (hnodup : seen.Nodup)
    (hs : checkFacts s seen c layer authority = []) :
    checkFacts t seen' c layer authority = [] ∧ (seen ++ (s.list c).map idOf).Nodup := by
  have hids : (seen ++ (s.list c).map idOf).Nodup := by
    refine nodup_append_of_checkDuplicate hnodup fun fact index hfact => ?_
    have hchecks := forEach_eq_nil.1 hs _ _ hfact
    simp only [List.append_eq_nil_iff] at hchecks
    exact ⟨_, hchecks.1.1⟩
  have hids' : (seen' ++ (t.list c).map idOf).Nodup :=
    (hseen.append (h.map (idOf_canon c))).nodup_iff.2 hids
  refine ⟨forEach_relisted (c := canonicalizeProvenanceOf) (hc ▸ h.list c)
    (fun v index index' _ hitem hv => ?_) hs, hids⟩
  simp only [List.append_eq_nil_iff, check_eq_nil] at hv ⊢
  rw [textMember_provenanceOf (by decide)]
  exact ⟨⟨checkDuplicate_of_nodup hids' hitem _, hv.1.2⟩, ht.fact hv.2⟩

theorem Relisted.factIds {cs : List Collection}
    (hcs : ∀ c ∈ cs, canonicalizeItem c = canonicalizeProvenanceOf) :
    (factIds t cs).Perm (factIds s cs) := by
  refine h.flatMap fun c hc v => ?_
  rw [hcs c hc]
  exact idOf_provenanceOf v

theorem Relisted.checkAllFacts (ht : SameTables s t) (hs : checkAllFacts s = []) :
    checkAllFacts t = [] := by
  simp only [Semantics.checkAllFacts, List.append_eq_nil_iff] at hs ⊢
  obtain ⟨⟨⟨hdeclared, hderived⟩, hobserved⟩, hanalysis⟩ := hs
  have happend : ∀ cs c, Semantics.factIds s cs ++ (s.list c).map idOf =
      Semantics.factIds s (cs ++ [c]) := by
    intro cs c
    simp [Semantics.factIds]
  have hids : ∀ cs ⊆ [Collection.declaredFacts, .derivedFacts, .observedFacts],
      (Semantics.factIds t cs).Perm (Semantics.factIds s cs) := by
    refine fun cs hcs => h.factIds fun c hc => ?_
    have hmem := hcs hc
    simp only [List.mem_cons, List.not_mem_nil, or_false] at hmem
    rcases hmem with rfl | rfl | rfl <;> rfl
  obtain ⟨hfirst, hnodup⟩ := h.checkFacts ht rfl (List.Perm.refl []) List.nodup_nil hdeclared
  rw [show ([] : List String) = Semantics.factIds s [] from rfl, happend] at hnodup
  obtain ⟨hsecond, hnodup⟩ := h.checkFacts ht rfl (hids _ (by decide)) hnodup hderived
  rw [happend] at hnodup
  obtain ⟨hthird, hnodup⟩ := h.checkFacts ht rfl (hids _ (by decide)) hnodup hobserved
  rw [happend] at hnodup
  obtain ⟨hfourth, -⟩ := h.checkFacts ht rfl (hids _ (by decide)) hnodup hanalysis
  exact ⟨⟨⟨hfirst, hsecond⟩, hthird⟩, hfourth⟩

theorem Relisted.checkClaims (ht : SameTables s t) (hvalid : validateReferences s sha256 = [])
    (hs : checkClaims s = []) : checkClaims t = [] := by
  refine forEach_relisted (c := canonicalizeProvenanceOf) (h.list .claims)
    (fun v index index' _ hitem hv => ?_) hs
  simp only [checkClaim, List.append_eq_nil_iff, check_eq_nil, checkProvenanceOf_eq_nil] at hv ⊢
  obtain ⟨⟨-, hauthority⟩, ⟨⟨hsubject, hobject⟩, hprovenance⟩, hinferred⟩ := hv
  rw [textMember_provenanceOf (by decide), textMember_provenanceOf (by decide),
    textMember_provenanceOf (by decide), member?_provenanceOf (by decide),
    provenanceKind_provenanceOf, provenance_provenanceOf, ht.provenance]
  refine ⟨⟨checkDuplicate_of_nodup (h.nodup hvalid rfl) hitem _, hauthority⟩,
    ⟨⟨ht.reference hsubject, ?_⟩, hprovenance⟩, hinferred⟩
  cases htarget : member? v "object" with
  | none => rfl
  | some target =>
    rw [htarget] at hobject
    exact ht.reference hobject

theorem Relisted.checkRelations (ht : SameTables s t) (hvalid : validateReferences s sha256 = [])
    (hs : checkRelations s = []) : checkRelations t = [] := by
  refine forEach_relisted (c := canonicalizeProvenanceOf) (h.list .relations)
    (fun v index index' _ hitem hv => ?_) hs
  simp only [List.append_eq_nil_iff, check_eq_nil, checkProvenanceOf_eq_nil] at hv ⊢
  obtain ⟨⟨⟨⟨-, hfrom⟩, hto⟩, hprovenance⟩, hinferred⟩ := hv
  rw [textMember_provenanceOf (by decide), textMember_provenanceOf (by decide),
    textMember_provenanceOf (by decide), provenanceKind_provenanceOf, provenance_provenanceOf,
    ht.provenance]
  exact ⟨⟨⟨⟨checkDuplicate_of_nodup (h.nodup hvalid rfl) hitem _, ht.reference hfrom⟩,
    ht.reference hto⟩, hprovenance⟩, hinferred⟩

end Facts

section Ownership

/-- What the checks of ownership read of a symbol. -/
def symbolTerms (symbol : JsonValue) : String × String :=
  (idOf symbol, textMember symbol "classification")

theorem symbolTerms_canon (v : JsonValue) : symbolTerms (canonicalizeEntity.canon v) = symbolTerms v := by
  rw [symbolTerms, idOf, textMember_entity fun _ => rfl, textMember_entity fun _ => rfl]
  rfl

theorem Relisted.symbolById (h : Relisted s t) (hvalid : validateReferences s sha256 = [])
    (id : String) : (symbolById t id).map symbolTerms = (symbolById s id).map symbolTerms := by
  refine find?_reverse_map (nodup_uniqueKey hvalid (c := .symbols) rfl) ?_ id
  refine h.map (c := .symbols) fun v => ?_
  rw [idOf_canon]
  exact Prod.ext rfl (symbolTerms_canon v)

theorem Relisted.declaredOwnership (h : Relisted s t) (hvalid : validateReferences s sha256 = [])
    (symbolId : String) : declaredOwnership t symbolId = declaredOwnership s symbolId := by
  have hfound := find?_reverse_map (f := id) (nodup_uniqueKey hvalid (c := .symbolOwnership) rfl)
    (h.map (c := .symbolOwnership) fun _ => rfl) symbolId
  rwa [Option.map_id, id, id] at hfound

variable {symbol symbol' : JsonValue}

theorem Relisted.classificationFor (h : Relisted s t) (hvalid : validateReferences s sha256 = [])
    (hterms : symbolTerms symbol' = symbolTerms symbol) :
    classificationFor t symbol' = classificationFor s symbol := by
  obtain ⟨hid, hclassification⟩ := Prod.mk.inj hterms
  rw [Semantics.classificationFor, Semantics.classificationFor, h.declaredOwnership hvalid, hid,
    hclassification]

theorem any_kind (value : Option JsonValue) (kind : String) :
    value.any (fun entity => textMember entity "kind" == kind) =
      (value.map (textMember · "kind")).any (· == kind) := by
  cases value <;> rfl

theorem SameTables.connectsOwner (h : SameTables s t) (v : JsonValue) :
    connectsOwner t (canonicalizeProvenanceOf.canon v) = connectsOwner s v := by
  simp only [Semantics.connectsOwner, any_kind, h.kinds]
  rw [textMember_provenanceOf (by decide), textMember_provenanceOf (by decide)]

theorem Relisted.checkOwnershipRelation (h : Relisted s t) (ht : SameTables s t)
    (hvalid : validateReferences s sha256 = []) {v : JsonValue}
    (hs : checkOwnershipRelation s v = []) :
    checkOwnershipRelation t (canonicalizeProvenanceOf.canon v) = [] := by
  have hto := textMember_provenanceOf (by decide : "to" ≠ "provenance") v
  have hkind := textMember_provenanceOf (by decide : "kind" ≠ "provenance") v
  have hownership : isOwnership (canonicalizeProvenanceOf.canon v) = isOwnership v := by
    rw [isOwnership, hkind]
    rfl
  unfold Semantics.checkOwnershipRelation at hs ⊢
  rw [hownership, ht.connectsOwner, hto, hkind]
  by_cases howner : (!isOwnership v) = true
  · rw [if_pos howner]
  · rw [if_neg howner] at hs ⊢
    by_cases hconnects : (!Semantics.connectsOwner s v) = true
    · rw [if_pos hconnects] at hs
      cases hs
    · rw [if_neg hconnects] at hs ⊢
      have hsymbols := h.symbolById hvalid (textMember v "to")
      cases hfound : Semantics.symbolById t (textMember v "to") with
      | none => rfl
      | some symbol =>
        rw [hfound, Option.map_some, eq_comm, Option.map_eq_some_iff] at hsymbols
        obtain ⟨symbol', hfound', hterms⟩ := hsymbols
        rw [hfound'] at hs
        dsimp only at hs ⊢
        rw [h.classificationFor hvalid hterms.symm]
        by_cases howns : textMember v "kind" = "owns"
        · rw [if_pos howns] at hs ⊢
          exact check_eq_nil.2 (check_eq_nil.1 hs)
        · rw [if_neg howns] at hs ⊢
          exact check_eq_nil.2 (check_eq_nil.1 hs)

theorem Relisted.ownersOf (h : Relisted s t) (ht : SameTables s t) (id : String) :
    (ownersOf t id).Perm (ownersOf s id) := by
  have hfilter : ∀ v, ((fun relation => textMember relation "kind" == "owns" &&
      connectsOwner t relation && textMember relation "to" == id) (canonicalizeProvenanceOf.canon v)) =
      (textMember v "kind" == "owns" && connectsOwner s v && textMember v "to" == id) := by
    intro v
    dsimp only
    rw [ht.connectsOwner, textMember_provenanceOf (by decide), textMember_provenanceOf (by decide)]
  refine (((h.list .relations).filter _).map _).trans (List.Perm.of_eq ?_)
  change ((((s.list .relations).map canonicalizeProvenanceOf.canon).filter _).map _) = _
  rw [List.filter_map, List.map_map, Semantics.ownersOf]
  refine congrArg₂ _ (funext fun v => textMember_provenanceOf (by decide) v) ?_
  exact List.filter_congr fun v _ => hfilter v

theorem head?_eq_of_perm {owners owners' : List String} (h : owners'.Perm owners)
    (hlength : owners.length = 1) : owners'.head? = owners.head? := by
  obtain ⟨owner, rfl⟩ := List.length_eq_one_iff.1 hlength
  rw [List.perm_singleton.1 h]

theorem Relisted.checkSymbol (h : Relisted s t) (ht : SameTables s t)
    (hvalid : validateReferences s sha256 = [])
    (hterms : symbolTerms symbol' = symbolTerms symbol) (hs : checkSymbol s symbol = []) :
    checkSymbol t symbol' = [] := by
  have hid : idOf symbol' = idOf symbol := congrArg Prod.fst hterms
  have howners := h.ownersOf ht (idOf symbol)
  have hempty : (Semantics.ownersOf t (idOf symbol)).isEmpty =
      (Semantics.ownersOf s (idOf symbol)).isEmpty := by
    rw [Bool.eq_iff_iff, List.isEmpty_iff, List.isEmpty_iff, ← List.length_eq_zero_iff,
      ← List.length_eq_zero_iff, howners.length_eq]
  simp only [Semantics.checkSymbol, List.append_eq_nil_iff, check_eq_nil] at hs ⊢
  rw [hid, h.classificationFor hvalid hterms, h.declaredOwnership hvalid, howners.length_eq, hempty]
  refine ⟨hs.1, ?_⟩
  cases hdeclared : (Semantics.declaredOwnership s (idOf symbol)).bind fun ownership =>
    member? ownership "componentId" with
  | none => rfl
  | some componentId =>
    have hmismatch := hs.2
    rw [hdeclared] at hmismatch
    rw [check_eq_nil, Bool.and_eq_false_iff] at hmismatch ⊢
    by_cases hlength : (Semantics.ownersOf s (idOf symbol)).length = 1
    · rwa [head?_eq_of_perm howners hlength]
    · exact Or.inl (beq_eq_false_iff_ne.2 hlength)

theorem Relisted.mem_symbolTable (h : Relisted s t) (hvalid : validateReferences s sha256 = [])
    {symbol' : JsonValue} (hsymbol : symbol' ∈ symbolTable t) :
    ∃ symbol ∈ symbolTable s, symbolTerms symbol' = symbolTerms symbol := by
  obtain ⟨id, hid, hfound⟩ := List.mem_filterMap.1 hsymbol
  have hsymbols := h.symbolById hvalid id
  rw [hfound, Option.map_some, eq_comm, Option.map_eq_some_iff] at hsymbols
  obtain ⟨symbol, hfound', hterms⟩ := hsymbols
  refine ⟨symbol, List.mem_filterMap.2 ⟨id, ?_, hfound'⟩, hterms.symm⟩
  rw [List.mem_dedup] at hid ⊢
  exact (h.map (idOf_canon .symbols)).mem_iff.1 hid

theorem Relisted.checkSymbolOwnership (h : Relisted s t) (ht : SameTables s t)
    (hvalid : validateReferences s sha256 = []) (hs : checkSymbolOwnership s = []) :
    checkSymbolOwnership t = [] := by
  simp only [Semantics.checkSymbolOwnership] at hs ⊢
  have hkeys : ((t.list .symbolOwnership).map fun ownership =>
      textMember ownership "symbolId").Nodup :=
    (h.map fun _ => rfl).nodup_iff.2 (nodup_uniqueKey hvalid (c := .symbolOwnership) rfl)
  refine forEach_relisted (c := Canonical.keep) (h.list .symbolOwnership)
    (fun v index index' _ hitem hv => ?_) hs
  simp only [List.append_eq_nil_iff, check_eq_nil] at hv ⊢
  obtain ⟨⟨⟨-, hsymbol⟩, hcomponent⟩, htarget⟩ := hv
  refine ⟨⟨⟨checkDuplicate_of_nodup hkeys hitem _, ht.referenceKind hsymbol⟩, ?_⟩, ?_⟩
  · have hkeep : Canonical.keep.canon v = v := rfl
    rw [hkeep]
    cases hcomponentId : member? v "componentId" with
    | none => rfl
    | some componentId =>
      rw [hcomponentId] at hcomponent
      exact ht.referenceKind hcomponent
  · have hsymbols := h.symbolById hvalid (textMember v "symbolId")
    change (Semantics.symbolById t (textMember v "symbolId")).isNone = false
    have hisNone := congrArg Option.isNone hsymbols
    rwa [Option.isNone_map, Option.isNone_map, htarget] at hisNone

theorem Relisted.checkOwnership (h : Relisted s t) (ht : SameTables s t)
    (hvalid : validateReferences s sha256 = []) (hs : checkOwnership s = []) :
    checkOwnership t = [] := by
  simp only [Semantics.checkOwnership, List.append_eq_nil_iff, List.flatMap_eq_nil_iff] at hs ⊢
  obtain ⟨⟨hdeclared, hrelations⟩, hsymbols⟩ := hs
  refine ⟨⟨h.checkSymbolOwnership ht hvalid hdeclared, fun relation hrelation => ?_⟩,
    fun symbol' hsymbol' => ?_⟩
  · obtain ⟨v, hv, rfl⟩ := List.mem_map.1 ((h.list .relations).mem_iff.1 hrelation)
    exact h.checkOwnershipRelation ht hvalid (hrelations v hv)
  · obtain ⟨symbol, hsymbol, hterms⟩ := h.mem_symbolTable hvalid hsymbol'
    exact h.checkSymbol ht hvalid hterms (hsymbols symbol hsymbol)

end Ownership

section References

variable {v : JsonValue} {names expectedKinds : List String} {name : String}
variable {ids ids' : List String}

theorem SameTables.idList (h : SameTables s t) (hids : ∀ id, id ∈ ids' ↔ id ∈ ids)
    (hs : checkEntityIdList s ids path = []) : checkEntityIdList t ids' path' = [] := by
  rw [checkEntityIdList_eq_nil] at hs ⊢
  exact fun id hid => (h.targets id).2 (hs id ((hids id).1 hid))

theorem SameTables.idListKind (h : SameTables s t) (hids : ∀ id, id ∈ ids' ↔ id ∈ ids)
    (hs : checkEntityIdListKind s ids expectedKinds path = []) :
    checkEntityIdListKind t ids' expectedKinds path' = [] := by
  rw [checkEntityIdListKind_eq_nil] at hs ⊢
  exact fun id hid => h.resolves.2 (hs id ((hids id).1 hid))

theorem mem_textsMember_entity (h : ∀ kind, entityRule kind name = .keep ∨
    entityRule kind name = .texts) (id : String) :
    id ∈ textsMember (canonicalizeEntity.canon v) name ↔ id ∈ textsMember v name :=
  mem_textsMember_canon (h _)

theorem entityRule_texts (kind : String) : ∀ name ∈ ["rationaleIds", "constraintIds", "decisionIds",
    "evidenceIds"], entityRule kind name = .keep ∨ entityRule kind name = .texts := by
  intro name hname
  simp only [List.mem_cons, List.not_mem_nil, or_false] at hname
  by_cases hkind : kind ∈ ["contract", "decision", "rationale", "test"]
  · simp only [List.mem_cons, List.not_mem_nil, or_false] at hkind
    rcases hkind with rfl | rfl | rfl | rfl <;> rcases hname with rfl | rfl | rfl | rfl <;>
      simp [entityRule]
  · simp only [List.mem_cons, List.not_mem_nil, or_false, not_or] at hkind
    rcases hname with rfl | rfl | rfl | rfl <;> simp [entityRule, hkind]

theorem SameTables.policy (h : SameTables s t) (hnames : "kind" ∉ names) (hsubject : "subject" ∉ names)
    {lists : List (String × String)} (hs : checkPolicy s lists path v = []) :
    checkPolicy t lists path' ((sortTexts names hnames).canon v) = [] := by
  simp only [checkPolicy, List.append_eq_nil_iff, List.flatMap_eq_nil_iff] at hs ⊢
  have htext : textMember ((sortTexts names hnames).canon v) "subject" = textMember v "subject" := by
    rw [textMember, member, member?_sortTexts hnames hsubject]
    rfl
  rw [htext]
  exact ⟨h.reference hs.1, fun entry hentry =>
    h.idListKind (fun id => mem_textsMember_sortTexts hnames) (hs.2 entry hentry)⟩

theorem Relisted.checkDeclaredReferences (h : Relisted s t) (ht : SameTables s t)
    (hs : checkDeclaredReferences s = []) : checkDeclaredReferences t = [] := by
  simp only [Semantics.checkDeclaredReferences, List.append_eq_nil_iff] at hs ⊢
  obtain ⟨⟨⟨⟨⟨⟨⟨hdecisions, hrationales⟩, heffects⟩, hdependencies⟩, hguidance⟩, hstability⟩,
    hterminology⟩, hlinks⟩ := hs
  refine ⟨⟨⟨⟨⟨⟨⟨?_, ?_⟩, ?_⟩, ?_⟩, ?_⟩, ?_⟩, ?_⟩, ?_⟩
  · refine forEach_relisted (c := canonicalizeEntity) (h.list .decisions) (fun v _ _ _ _ hv => ?_)
      hdecisions
    rw [List.append_eq_nil_iff] at hv ⊢
    exact ⟨ht.idListKind (mem_textsMember_entity fun kind => entityRule_texts kind _ (by decide)) hv.1,
      ht.idListKind (mem_textsMember_entity fun kind => entityRule_texts kind _ (by decide)) hv.2⟩
  · refine forEach_relisted (c := canonicalizeEntity) (h.list .rationales) (fun v _ _ _ _ hv => ?_)
      hrationales
    exact ht.idListKind (mem_textsMember_entity fun kind => entityRule_texts kind _ (by decide)) hv
  · exact forEach_relisted (c := canonicalizeItem .effectPolicies) (h.list .effectPolicies)
      (fun v _ _ _ _ hv => ht.policy (by decide) (by decide) hv) heffects
  · exact forEach_relisted (c := canonicalizeItem .dependencyPolicies) (h.list .dependencyPolicies)
      (fun v _ _ _ _ hv => ht.policy (by decide) (by decide) hv) hdependencies
  · exact forEach_relisted (c := Canonical.keep) (h.list .reviewGuidance)
      (fun v _ _ _ _ hv => ht.reference hv) hguidance
  · refine forEach_relisted (c := Canonical.keep) (h.list .stability) (fun v _ _ _ _ hv => ?_)
      hstability
    have hkeep : Canonical.keep.canon v = v := rfl
    rw [hkeep]
    rw [List.append_eq_nil_iff] at hv ⊢
    refine ⟨ht.reference hv.1, ?_⟩
    cases hrationaleId : member? v "rationaleId" with
    | none => rfl
    | some rationaleId =>
      have hreference := hv.2
      rw [hrationaleId] at hreference
      exact ht.referenceKind hreference
  · exact forEach_relisted (c := canonicalizeItem .terminology) (h.list .terminology)
      (fun v _ _ _ _ hv => ht.idList (fun id => mem_textsMember_sortTexts (by decide)) hv)
      hterminology
  · refine forEach_relisted (c := Canonical.keep) (h.list .decisionLinks) (fun v _ _ _ _ hv => ?_)
      hlinks
    rw [List.append_eq_nil_iff] at hv ⊢
    exact ⟨ht.reference hv.1, ht.referenceKind hv.2⟩

theorem Relisted.checkOtherReferences (h : Relisted s t) (ht : SameTables s t)
    (hs : checkOtherReferences s = []) : checkOtherReferences t = [] := by
  simp only [Semantics.checkOtherReferences, List.append_eq_nil_iff] at hs ⊢
  obtain ⟨⟨⟨hapis, htests⟩, hunknowns⟩, hentries⟩ := hs
  refine ⟨⟨⟨?_, ?_⟩, ?_⟩, ?_⟩
  · refine forEach_relisted (c := canonicalizeEntity) (h.list .externalApis)
      (fun v _ _ _ _ hv => ?_) hapis
    rw [textMember_entity fun _ => rfl]
    exact ht.referenceKind hv
  · refine forEach_relisted (c := canonicalizeEntity) (h.list .tests) (fun v _ _ _ _ hv => ?_) htests
    exact ht.idListKind (mem_textsMember_entity fun kind => entityRule_texts kind _ (by decide)) hv
  · exact forEach_relisted (c := canonicalizeItem .unknowns) (h.list .unknowns)
      (fun v _ _ _ _ hv => ht.idList (fun id => mem_textsMember_sortTexts (by decide)) hv) hunknowns
  · exact forEach_relisted (c := Canonical.keep) (h.list .deltaEntries)
      (fun v _ _ _ _ hv => ht.reference hv) hentries

theorem Relisted.checkTrackedFiles (h : Relisted s t) (hvalid : validateReferences s sha256 = [])
    (hs : checkTrackedFiles s = []) : checkTrackedFiles t = [] := by
  simp only [Semantics.checkTrackedFiles] at hs ⊢
  have hkeys : ((t.list .trackedFiles).map fun file => textMember file "path").Nodup :=
    (h.map fun _ => rfl).nodup_iff.2 (nodup_uniqueKey hvalid (c := .trackedFiles) rfl)
  exact forEach_relisted (c := Canonical.keep) (h.list .trackedFiles)
    (fun v _ _ _ hitem _ => checkDuplicate_of_nodup hkeys hitem _) hs

end References

section Valid

theorem relisted_canon (s : RepositorySemanticSnapshot) :
    Relisted s (canonicalizeSnapshot.canon s) where
  collections c := by
    change Option.Rel _ (s.collections c) ((s.collections c).map (canonicalizeCollection c).canon)
    cases s.collections c with
    | none => exact .none
    | some items => exact .some (sortBy_perm _ _)
  project := rfl
  repositoryIdentity := rfl
  revisionIdentity := rfl

theorem digests_canon (s : RepositorySemanticSnapshot) :
    computeIntegrityDigestsFromValidated (canonicalizeSnapshot.canon s) sha256 =
      computeIntegrityDigestsFromValidated s sha256 := by
  unfold computeIntegrityDigestsFromValidated
  rw [canonicalizeSnapshot.canon_canon]

theorem validateReferences_canon (h : validateReferences s sha256 = []) :
    validateReferences (canonicalizeSnapshot.canon s) sha256 = [] := by
  have hrelisted := relisted_canon s
  have ht := hrelisted.sameTables h
  have hvalid := h
  simp only [validateReferences, List.append_eq_nil_iff] at h ⊢
  obtain ⟨⟨⟨⟨⟨⟨⟨⟨⟨⟨⟨⟨⟨⟨hidentities, hentities⟩, hperspectives⟩, hdeclared⟩, hderived⟩, hevidence⟩,
    hanalysis⟩, hfacts⟩, hclaims⟩, hrelations⟩, hownership⟩, hreferences⟩, hothers⟩, hfiles⟩,
    hdigests⟩ := h
  have hids : ((s.list .declaredRequirements).map idOf).Nodup := nodup_requirements hdeclared
  refine ⟨⟨⟨⟨⟨⟨⟨⟨⟨⟨⟨⟨⟨⟨hidentities, hrelisted.checkEntities hentities⟩,
    hrelisted.checkPerspectives ht hvalid hperspectives⟩,
    hrelisted.checkRequirements ht rfl (List.Perm.refl []) List.nodup_nil hdeclared⟩,
    hrelisted.checkRequirements ht rfl (hrelisted.map idOf_provenanceOf) hids hderived⟩,
    hrelisted.checkVerificationEvidence ht hvalid hevidence⟩,
    hrelisted.checkVerificationAnalysis ht hvalid rfl hanalysis⟩,
    hrelisted.checkAllFacts ht hfacts⟩, hrelisted.checkClaims ht hvalid hclaims⟩,
    hrelisted.checkRelations ht hvalid hrelations⟩, hrelisted.checkOwnership ht hvalid hownership⟩,
    hrelisted.checkDeclaredReferences ht hreferences⟩, hrelisted.checkOtherReferences ht hothers⟩,
    hrelisted.checkTrackedFiles hvalid hfiles⟩, ?_⟩
  rw [checkDigests, digests_canon]
  exact hdigests

variable {c : Collection}

theorem mem_canon {item : JsonValue} (h : item ∈ (canonicalizeSnapshot.canon s).list c) :
    ∃ v ∈ s.list c, item = (canonicalizeItem c).canon v := by
  obtain ⟨v, hv, rfl⟩ := List.mem_map.1 (((relisted_canon s).list c).mem_iff.1 h)
  exact ⟨v, hv, rfl⟩

theorem wellFormed_canon (h : validSnapshot s sha256 = true) :
    wellFormed (canonicalizeSnapshot.canon s) = true := by
  have hpolicy : Fits canonicalProsePolicySchema canonicalizeCommentPolicy :=
    fits_sortTexts (by decide) (by simp [Schema.required])
  have hitems : (allCollections.all fun c =>
      ((canonicalizeSnapshot.canon s).list c).all JsonValue.wellFormed) = true := by
    simp only [List.all_eq_true]
    intro c _ item hitem
    obtain ⟨v, hv, rfl⟩ := mem_canon hitem
    exact (fits_item c).wellFormed v (wellFormed_item h hv) (schema_item h hv)
  simp only [validSnapshot, wellFormed, schemaAccepted, Bool.and_eq_true] at h
  have hschema := h.1.2.1.1.1.1.1.1.2
  have hvalues := h.1.1.1
  rw [wellFormed, Bool.and_eq_true]
  refine ⟨?_, hitems⟩
  simp only [List.cons_append, List.nil_append, List.all_cons, Bool.and_eq_true] at hvalues ⊢
  obtain ⟨hversion, hmodel, hidentity, hproject, hcomment, hrest⟩ := hvalues
  exact ⟨hversion, hmodel, hidentity, hproject, hpolicy.wellFormed _ hcomment hschema, hrest⟩

theorem collectionAccepted_canon (h : collectionAccepted s c = true) :
    collectionAccepted (canonicalizeSnapshot.canon s) c = true := by
  have hcanon : (canonicalizeSnapshot.canon s).collections c =
      (s.collections c).map (canonicalizeCollection c).canon := rfl
  rw [collectionAccepted] at h ⊢
  rw [hcanon]
  cases hitems : s.collections c with
  | none =>
    rw [hitems] at h
    exact h
  | some items =>
    rw [hitems] at h
    simp only [Option.map_some, Bool.and_eq_true, List.all_eq_true] at h ⊢
    refine ⟨fun item hitem => ?_, h.2⟩
    obtain ⟨v, hv, rfl⟩ := List.mem_map.1 ((sortBy_perm _ _).mem_iff.1 hitem)
    exact (fits_item c).accepted v (h.1 v hv)

theorem schemaAccepted_canon (h : schemaAccepted s = true) :
    schemaAccepted (canonicalizeSnapshot.canon s) = true := by
  have hpolicy : Fits canonicalProsePolicySchema canonicalizeCommentPolicy :=
    fits_sortTexts (by decide) (by simp [Schema.required])
  simp only [schemaAccepted, Bool.and_eq_true] at h ⊢
  obtain ⟨⟨⟨⟨⟨⟨⟨hhead, hcomment⟩, hhealth⟩, hlevel⟩, hdelta⟩, hauthority⟩, hintegrity⟩, hcollections⟩ := h
  refine ⟨⟨⟨⟨⟨⟨⟨hhead, hpolicy.accepted _ hcomment⟩, hhealth⟩, hlevel⟩, ?_⟩, hauthority⟩, hintegrity⟩,
    ?_⟩
  · have hempty : ((canonicalizeSnapshot.canon s).list .deltaEntries).isEmpty =
        (s.list .deltaEntries).isEmpty := by
      rw [Bool.eq_iff_iff, List.isEmpty_iff, List.isEmpty_iff, ← List.length_eq_zero_iff,
        ← List.length_eq_zero_iff, ((relisted_canon s).list .deltaEntries).length_eq, List.length_map]
    rw [semanticDeltaAccepted, hempty]
    exact hdelta
  · rw [List.all_eq_true] at hcollections ⊢
    exact fun c hc => collectionAccepted_canon (hcollections c hc)

theorem validSnapshot_canon (h : validSnapshot s sha256 = true) :
    validSnapshot (canonicalizeSnapshot.canon s) sha256 = true := by
  have hreferences := validateReferences_canon (references_valid h)
  have hwell := wellFormed_canon h
  simp only [validSnapshot, Bool.and_eq_true] at h ⊢
  exact ⟨⟨hwell, schemaAccepted_canon h.1.2⟩, List.isEmpty_iff.2 hreferences⟩

end Valid

end Mottainai.Semantics
