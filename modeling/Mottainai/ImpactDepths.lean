import Mathlib.Data.List.Dedup
import Mottainai.BoundedSearch
import Mottainai.SemanticCanonicalForm

/-!
# Which consumers are affected

The impact of changed symbols and components is followed along the relations of two snapshots. The
walk follows the bounded search over the places that it comes to, from the owners of the changed
symbols. What is affected are the changed symbols with their owners, the changed components, and
what consumes a place that the search examines: nothing further than the maximum depth, but not all
that lies nearer, since a place is entered by the first path that is tried. The sets of the walk are
lists, whose order is not seen.
-/

namespace Mottainai.Impact

open JsonValues OrderedMaps Semantics

abbrev LogicalId : Type := String

section Graphs

/-- A relation of the graph, from its source to its target. -/
structure SemanticRelation where
  kind : String
  source : LogicalId
  target : LogicalId
  authority : String
  deriving DecidableEq

def relationOf (item : JsonValue) : SemanticRelation :=
  { kind := textMember item "kind", source := textMember item "from"
    target := textMember item "to", authority := textMember item "authority" }

/-- `snapshot.graph.relations`. -/
def relations (snapshot : RepositorySemanticSnapshot) : List SemanticRelation :=
  (snapshot.list .relations).map relationOf

/-- `PROPAGATING_RELATIONS`. -/
def propagatingRelations : List String :=
  ["calls", "references", "imports", "requires", "provides", "implements", "depends_on",
    "depends-on", "uses_package", "uses-package", "imports_api", "imports-api"]

def defaultMaxDepth : ℕ := 20

def allEntities (snapshot : RepositorySemanticSnapshot) : OrderedMap LogicalId JsonValue :=
  let values := snapshot.project :: [Collection.components, .capabilities, .contracts, .invariants,
    .decisions, .rationales, .constraints, .files, .symbols, .packages, .externalDependencies,
    .externalApis, .evidences, .tests].flatMap snapshot.list
  values.foldl (fun entities item => entities.set (idOf item) item) OrderedMap.empty

def relationKey (relation : SemanticRelation) : String :=
  relation.kind ++ ":" ++ relation.source ++ ":" ++ relation.target

def mergedRelations (base head : RepositorySemanticSnapshot) : List SemanticRelation :=
  sortBy relationKey ((relations base ++ relations head).foldl
    (fun merged relation => merged.set (relationKey relation) relation) OrderedMap.empty).values

def entityKind (base head : RepositorySemanticSnapshot) (id : LogicalId) : Option String :=
  (((allEntities head).get id).or ((allEntities base).get id)).map (textMember · "kind")

def ownership (base head : RepositorySemanticSnapshot) (symbolId : LogicalId) : List LogicalId :=
  sortBy id (((mergedRelations base head).filter fun relation =>
    relation.authority = "declared" ∧ (relation.kind = "owns" ∨ relation.kind = "shares") ∧
      entityKind base head relation.source = some "component" ∧
      entityKind base head relation.target = some "symbol" ∧
      relation.target = symbolId).map (·.source)).dedup

end Graphs

structure ImpactPath where
  entityIds : List LogicalId
  stopReason : String
  propagated : Bool
  deriving DecidableEq

structure PropagationStopPoint where
  entityId : LogicalId
  componentId : Option LogicalId
  reason : String
  path : List LogicalId
  deriving DecidableEq

structure ImpactPropagationInput where
  baseSnapshot : RepositorySemanticSnapshot
  headSnapshot : RepositorySemanticSnapshot
  changedSymbolIds : List LogicalId
  changedComponentIds : List LogicalId
  boundaryChangedSymbolIds : Option (List LogicalId)
  unknownSymbolIds : Option (List LogicalId)
  maxDepth : Option ℕ

structure ImpactPropagationResult where
  affectedEntities : List LogicalId
  impactPaths : List ImpactPath
  stopPoints : List PropagationStopPoint
  unknownSymbolIds : List LogicalId

/-- What the walk has found. -/
structure Propagation where
  affected : List LogicalId
  unknownSymbols : List LogicalId
  paths : List ImpactPath
  stopPoints : List PropagationStopPoint
  visited : List String

namespace Propagation

/-- `affected.add(id)`. -/
def addAffected (id : LogicalId) (p : Propagation) : Propagation :=
  { p with affected := p.affected.insert id }

/-- `unknownSymbols.add(id)`. -/
def addUnknown (id : LogicalId) (p : Propagation) : Propagation :=
  { p with unknownSymbols := p.unknownSymbols.insert id }

/-- `visited.add(visitKey)`. -/
def visit (visitKey : String) (p : Propagation) : Propagation :=
  { p with visited := visitKey :: p.visited }

def stopKey (stop : PropagationStopPoint) : String :=
  stop.entityId ++ ":" ++ stop.componentId.getD "" ++ ":" ++ stop.reason ++ ":" ++
    String.intercalate ">" stop.path

def addStop (entityId : LogicalId) (reason : String) (path : List LogicalId)
    (componentId : Option LogicalId) (p : Propagation) : Propagation :=
  let stop := { entityId, componentId, reason, path }
  if p.stopPoints.any fun item => stopKey item = stopKey stop then p
  else
    { p with
      stopPoints := p.stopPoints ++ [stop]
      paths := p.paths ++ [{ entityIds := path, stopReason := reason, propagated := 1 < path.length }] }

end Propagation

section Walking

open Propagation

variable (input : ImpactPropagationInput)

abbrev kindOf (id : LogicalId) : Option String :=
  entityKind input.baseSnapshot input.headSnapshot id

abbrev ownersOf (symbolId : LogicalId) : List LogicalId :=
  ownership input.baseSnapshot input.headSnapshot symbolId

def boundaryPreserved (symbolId componentId : LogicalId) : Bool :=
  symbolId ∉ input.boundaryChangedSymbolIds.getD [] ∧ componentId ∉ input.changedComponentIds

def incoming (currentId : LogicalId) : List SemanticRelation :=
  (mergedRelations input.baseSnapshot input.headSnapshot).filter fun relation =>
    relation.target = currentId ∧ relation.kind ∈ propagatingRelations ∧ relation.source ≠ currentId

abbrev Walk : Type := LogicalId → List LogicalId → Propagation → Propagation

def followOwner (walk : Walk) (consumer : LogicalId) (nextPath : List LogicalId)
    (found : Propagation × Bool) (componentId : LogicalId) : Propagation × Bool :=
  let p := found.1.addAffected componentId
  let componentPath := nextPath ++ [componentId]
  if boundaryPreserved input consumer componentId then
    (p.addStop consumer "preserved conforming Component boundary" componentPath (some componentId),
      found.2)
  else (walk componentId componentPath p, true)

def follow (walk : Walk) (path : List LogicalId) (found : Propagation × Bool)
    (relation : SemanticRelation) : Propagation × Bool :=
  let consumer := relation.source
  let nextPath := path ++ [consumer]
  let p := found.1.addAffected consumer
  if kindOf input consumer = some "symbol" then
    match ownersOf input consumer with
    | [] => ((p.addUnknown consumer).addStop consumer
        "consumer Symbol has no explicit Component ownership" nextPath none, found.2)
    | consumerOwners => consumerOwners.foldl (followOwner input walk consumer nextPath) (p, found.2)
  else if kindOf input consumer = some "component" then
    if consumer ∈ input.changedComponentIds then (walk consumer nextPath p, true)
    else (p.addStop consumer "preserved conforming Component boundary" nextPath (some consumer),
      found.2)
  else (walk consumer nextPath p, true)

def visitKey (currentId previous : LogicalId) : String := currentId ++ ":" ++ previous

/-- `path[path.length - 2] ?? ""`. -/
def previousOf (path : List LogicalId) : LogicalId := path.dropLast.getLast?.getD ""

/-- `walk`, where so many steps are left of the maximum depth. -/
def walk : ℕ → LogicalId → List LogicalId → Propagation → Propagation
  | left, currentId, path, p =>
      if visitKey currentId (previousOf path) ∈ p.visited then p
      else
        let p := p.visit (visitKey currentId (previousOf path))
        match left with
        | 0 => p.addStop currentId "maximum propagation depth reached" path none
        | left + 1 =>
            match incoming input currentId with
            | [] => p.addStop currentId "no explicit consuming relation" path none
            | consuming =>
                let found := consuming.foldl (follow input (walk left) path) (p, false)
                if found.2 = false ∧ path.length = 1 then
                  found.1.addStop currentId "consumers stop at preserved Component boundaries" path
                    none
                else found.1

def maxDepth : ℕ := input.maxDepth.getD defaultMaxDepth

/-- A changed symbol is followed into one of its owners, unless the boundary is preserved. -/
def seedOwner (symbolId : LogicalId) (p : Propagation) (componentId : LogicalId) : Propagation :=
  let p := p.addAffected componentId
  let path := [symbolId, componentId]
  if boundaryPreserved input symbolId componentId then
    p.addStop symbolId "preserved conforming Component boundary" path (some componentId)
  else walk input (maxDepth input) componentId path p

def seedSymbol (p : Propagation) (symbolId : LogicalId) : Propagation :=
  let p := p.addAffected symbolId
  match ownersOf input symbolId with
  | [] => (p.addUnknown symbolId).addStop symbolId
      "changed Symbol has no explicit Component ownership" [symbolId] none
  | symbolOwners => symbolOwners.foldl (seedOwner input symbolId) p

def seedComponent (p : Propagation) (componentId : LogicalId) : Propagation :=
  walk input (maxDepth input) componentId [componentId] (p.addAffected componentId)

/-- `[...new Set(ids)].sort(compareText)`. -/
def sortedSet (ids : List LogicalId) : List LogicalId := sortBy id ids.dedup

def propagated : Propagation :=
  let start : Propagation :=
    { affected := [], unknownSymbols := (input.unknownSymbolIds.getD []).dedup, paths := []
      stopPoints := [], visited := [] }
  (sortedSet input.changedComponentIds).foldl (seedComponent input)
    ((sortedSet input.changedSymbolIds).foldl (seedSymbol input) start)

def propagateSemanticImpact : ImpactPropagationResult :=
  let p := propagated input
  { affectedEntities := sortBy id p.affected
    impactPaths := sortBy (fun path => String.intercalate ">" path.entityIds ++ ":" ++
      path.stopReason) p.paths
    stopPoints := sortBy (fun stop => stop.entityId ++ ":" ++ String.intercalate ">" stop.path)
      p.stopPoints
    unknownSymbolIds := sortBy id p.unknownSymbols }

end Walking

open OrderedMaps.OrderedMap BoundedSearch

section Places

/-- Where the walk is, and where it was before. -/
abbrev Place : Type := LogicalId × LogicalId

def placeKey (place : Place) : String := visitKey place.1 place.2

variable (input : ImpactPropagationInput)

def crossed (symbolId : LogicalId) : List Place :=
  ((ownersOf input symbolId).filter fun c => !boundaryPreserved input symbolId c).map (·, symbolId)

def reached (relation : SemanticRelation) : List Place :=
  if kindOf input relation.source = some "symbol" then crossed input relation.source
  else if kindOf input relation.source = some "component" ∧
      relation.source ∉ input.changedComponentIds then []
  else [(relation.source, relation.target)]

def nextPlaces (place : Place) : List Place := (incoming input place.1).flatMap (reached input)

abbrev searchFrom (fuel : ℕ) (place : Place) (path : List Place) (log : Log Place) : Log Place :=
  search (nextPlaces input) (maxDepth input + 1) placeKey fuel place path log

/-- What a consuming relation affects: the consumer, and its owners if it is a symbol. -/
def touched (relation : SemanticRelation) : Set LogicalId :=
  {id | id = relation.source ∨
    kindOf input relation.source = some "symbol" ∧ id ∈ ownersOf input relation.source}

/-- What consumes an entity. -/
def consumers (currentId : LogicalId) : Set LogicalId :=
  {id | ∃ relation ∈ incoming input currentId, id ∈ touched input relation}

/-- A place was examined, if the walk did not stop there at the maximum depth. -/
def Examined (entry : Place × List Place) : Prop := entry.2.length ≤ maxDepth input

end Places

section Extending

variable {input : ImpactPropagationInput} {log log' log'' : Log Place} {p p' p'' : Propagation}
  {added added' : Set LogicalId}

/-- The walk has visited what the search has seen. -/
def Tracks (log : Log Place) (p : Propagation) : Prop :=
  ∀ key, key ∈ p.visited ↔ key ∈ seen placeKey log

/-- The walk has followed the search to another log. Besides what consumes the places that were
examined, it has added something to the affected entities. -/
structure Extends (input : ImpactPropagationInput) (added : Set LogicalId) (log : Log Place)
    (p : Propagation) (log' : Log Place) (p' : Propagation) : Prop where
  tracks : Tracks log' p'
  affected : ∃ new, log' = log ++ new ∧ ∀ id, id ∈ p'.affected ↔ id ∈ p.affected ∨ id ∈ added ∨
    ∃ entry ∈ new, Examined input entry ∧ id ∈ consumers input entry.1.1

/-- A step that follows nothing. -/
theorem Extends.of_affected (h : Tracks log p) (hvisited : p'.visited = p.visited)
    (haffected : ∀ id, id ∈ p'.affected ↔ id ∈ p.affected ∨ id ∈ added) :
    Extends input added log p log p' := by
  refine ⟨fun key => ?_, [], (List.append_nil log).symm, fun id => ?_⟩
  · rw [hvisited]
    exact h key
  · simp [haffected]

theorem Extends.refl (h : Tracks log p) : Extends input ∅ log p log p :=
  Extends.of_affected h rfl fun id => by simp

theorem Extends.trans (h : Extends input added log p log' p')
    (h' : Extends input added' log' p' log'' p'') :
    Extends input (added ∪ added') log p log'' p'' := by
  obtain ⟨new, rfl, haffected⟩ := h.affected
  obtain ⟨new', rfl, haffected'⟩ := h'.affected
  refine ⟨h'.tracks, new ++ new', List.append_assoc _ _ _, fun id => ?_⟩
  rw [haffected', haffected]
  simp only [List.mem_append, Set.mem_union, or_and_right, exists_or]
  rw [or_assoc, or_or_or_comm]

theorem Extends.congr (h : Extends input added log p log' p') (heq : added = added') :
    Extends input added' log p log' p' := heq ▸ h

variable (input) in
theorem extends_addAffected (h : Tracks log p) (id : LogicalId) :
    Extends input {id} log p log (p.addAffected id) :=
  .of_affected h rfl fun id' => by simp [Propagation.addAffected, or_comm]

theorem addStop_frame (entityId : LogicalId) (reason : String) (path : List LogicalId)
    (componentId : Option LogicalId) (p : Propagation) :
    (p.addStop entityId reason path componentId).visited = p.visited ∧
      (p.addStop entityId reason path componentId).affected = p.affected := by
  simp only [Propagation.addStop]
  split_ifs
  · exact ⟨rfl, rfl⟩
  · exact ⟨rfl, rfl⟩

theorem extends_addStop (h : Tracks log p) (entityId : LogicalId) (reason : String)
    (path : List LogicalId) (componentId : Option LogicalId) :
    Extends input ∅ log p log (p.addStop entityId reason path componentId) := by
  obtain ⟨hvisited, haffected⟩ := addStop_frame entityId reason path componentId p
  exact .of_affected h hvisited fun id => by simp [haffected]

theorem extends_addUnknown (h : Tracks log p) (id : LogicalId) :
    Extends input ∅ log p log (p.addUnknown id) := .of_affected h rfl fun id' => by
  simp [Propagation.addUnknown]

end Extending

section Following

variable {input : ImpactPropagationInput} {log : Log Place} {p : Propagation} {go : Walk}
  {goFrom : Place → Log Place → Log Place}

def Follows (input : ImpactPropagationInput) (goFrom : Place → Log Place → Log Place) (go : Walk) :
    Prop :=
  ∀ (currentId previous : LogicalId) (path : List LogicalId) (log : Log Place) (p : Propagation),
    path.getLast? = some previous → Tracks log p →
      Extends input ∅ log p (goFrom (currentId, previous) log) (go currentId (path ++ [currentId]) p)

theorem extends_followOwners (hgo : Follows input goFrom go) (consumer : LogicalId)
    {nextPath : List LogicalId} (hpath : nextPath.getLast? = some consumer)
    (owners : List LogicalId) (found : Bool) (h : Tracks log p) :
    Extends input {id | id ∈ owners} log p
      (((owners.filter fun c => !boundaryPreserved input consumer c).map (·, consumer)).foldl
        (fun log place => goFrom place log) log)
      (owners.foldl (followOwner input go consumer nextPath) (p, found)).1 := by
  induction owners generalizing log p found with
  | nil => exact (Extends.refl h).congr (by simp)
  | cons owner owners ih =>
    have hadd := extends_addAffected input h owner
    have hset : ({owner} ∪ ∅ ∪ {id | id ∈ owners} : Set LogicalId) = {id | id ∈ owner :: owners} := by
      ext id
      simp
    rw [List.foldl_cons, List.filter_cons]
    by_cases hpreserved : boundaryPreserved input consumer owner = true
    · have hstop := hadd.trans (extends_addStop hadd.tracks consumer
        "preserved conforming Component boundary" (nextPath ++ [owner]) (some owner))
      simp only [followOwner, hpreserved, Bool.not_true, Bool.false_eq_true,
        if_false]
      exact (hstop.trans (ih found hstop.tracks)).congr hset
    · have hwalk := hadd.trans (hgo owner consumer nextPath log _ hpath hadd.tracks)
      simp only [followOwner, hpreserved, Bool.not_false, if_true, List.map_cons, List.foldl_cons]
      exact (hwalk.trans (ih true hwalk.tracks)).congr hset

variable {path : List LogicalId}

theorem extends_follow (hgo : Follows input goFrom go) {relation : SemanticRelation}
    (hpath : path.getLast? = some relation.target) (found : Bool) (h : Tracks log p) :
    Extends input (touched input relation) log p
      ((reached input relation).foldl (fun log place => goFrom place log) log)
      (follow input go path (p, found) relation).1 := by
  have hadd := extends_addAffected input h relation.source
  have hlast : (path ++ [relation.source]).getLast? = some relation.source := by simp
  by_cases hsymbol : kindOf input relation.source = some "symbol"
  · rw [reached, if_pos hsymbol, follow, if_pos hsymbol, crossed]
    cases howners : ownersOf input relation.source with
    | nil =>
      have hunknown := hadd.trans (extends_addUnknown hadd.tracks relation.source)
      have hstop := hunknown.trans (extends_addStop hunknown.tracks relation.source
        "consumer Symbol has no explicit Component ownership" (path ++ [relation.source]) none)
      refine hstop.congr ?_
      ext id
      simp [touched, howners]
    | cons owner owners =>
      refine (hadd.trans (extends_followOwners hgo relation.source hlast (owner :: owners) found
        hadd.tracks)).congr ?_
      ext id
      simp [touched, howners, hsymbol]
  · have hset : ({relation.source} ∪ ∅ : Set LogicalId) = touched input relation := by
      ext id
      simp [touched, hsymbol]
    rw [reached, if_neg hsymbol, follow, if_neg hsymbol]
    by_cases hstops : kindOf input relation.source = some "component" ∧
        relation.source ∉ input.changedComponentIds
    · rw [if_pos hstops, if_pos hstops.1, if_neg hstops.2]
      exact (hadd.trans (extends_addStop hadd.tracks _ _ _ _)).congr hset
    · have hwalk := (hadd.trans (hgo relation.source relation.target path log _ hpath
        hadd.tracks)).congr hset
      rw [if_neg hstops]
      by_cases hcomponent : kindOf input relation.source = some "component"
      · have hchanged : relation.source ∈ input.changedComponentIds := by
          by_contra hchanged
          exact hstops ⟨hcomponent, hchanged⟩
        rw [if_pos hcomponent, if_pos hchanged]
        exact hwalk
      · rw [if_neg hcomponent]
        exact hwalk

theorem extends_follows (hgo : Follows input goFrom go) (consuming : List SemanticRelation)
    (hpath : ∀ relation ∈ consuming, path.getLast? = some relation.target) (found : Bool)
    (h : Tracks log p) :
    Extends input {id | ∃ relation ∈ consuming, id ∈ touched input relation} log p
      ((consuming.flatMap (reached input)).foldl (fun log place => goFrom place log) log)
      (consuming.foldl (follow input go path) (p, found)).1 := by
  induction consuming generalizing log p found with
  | nil => exact (Extends.refl h).congr (by simp)
  | cons relation consuming ih =>
    have hfirst := extends_follow hgo (hpath relation List.mem_cons_self) found h
    rw [List.foldl_cons, List.flatMap_cons, List.foldl_append]
    refine (hfirst.trans (ih (fun r hr => hpath r (List.mem_cons_of_mem relation hr))
      (follow input go path (p, found) relation).2 hfirst.tracks)).congr ?_
    ext id
    simp

theorem Tracks.visit (h : Tracks log p) (place : Place) (path : List Place) :
    Tracks (log ++ [(place, path)]) (p.visit (placeKey place)) := by
  intro key
  have hold := h key
  simp only [Propagation.visit, seen, List.map_append, List.map_singleton, List.mem_append,
    List.mem_cons, List.not_mem_nil, or_false] at hold ⊢
  rw [hold, or_comm]

end Following

section Walking

variable {input : ImpactPropagationInput} {log : Log Place} {p : Propagation}

theorem previousOf_append {path : List LogicalId} {previous : LogicalId}
    (h : path.getLast? = some previous) (currentId : LogicalId) :
    previousOf (path ++ [currentId]) = previous := by
  rw [previousOf, List.dropLast_concat, h, Option.getD_some]

/-- The places that a consuming relation leads to from an entity. -/
theorem target_of_incoming {currentId : LogicalId} {relation : SemanticRelation}
    (h : relation ∈ incoming input currentId) : relation.target = currentId :=
  (of_decide_eq_true (List.mem_filter.1 h).2).1

theorem Extends.enter {log' : Log Place} {p' : Propagation} {place : Place} {path : List Place}
    {added : Set LogicalId} (h : Extends input added (log ++ [(place, path)])
      (p.visit (placeKey place)) log' p')
    (hadded : ∀ id, id ∈ added ↔ Examined input (place, path) ∧ id ∈ consumers input place.1) :
    Extends input ∅ log p log' p' := by
  obtain ⟨new, rfl, haffected⟩ := h.affected
  refine ⟨h.tracks, (place, path) :: new, by simp, fun id => ?_⟩
  rw [haffected, hadded]
  simp [Propagation.visit]

theorem extends_walk (left : ℕ) (currentId previous : LogicalId) (path : List LogicalId)
    (searchPath : List Place) (hprevious : previousOf (path ++ [currentId]) = previous)
    (hlength : searchPath.length + left = maxDepth input + 1) (h : Tracks log p) :
    Extends input ∅ log p
      (searchFrom input (left + 1) (currentId, previous) searchPath log)
      (walk input left currentId (path ++ [currentId]) p) := by
  induction left generalizing currentId previous path searchPath log p with
  | zero =>
    rw [walk, hprevious]
    by_cases hmem : visitKey currentId previous ∈ p.visited
    · rw [if_pos hmem, searchFrom, search_seen ((h (placeKey (currentId, previous))).1 hmem)]
      exact Extends.refl h
    · have hnew : placeKey (currentId, previous) ∉ seen placeKey log := fun hseen => hmem ((h _).2 hseen)
      rw [if_neg hmem, searchFrom, search_bounded hnew hlength.ge]
      have hvisit := h.visit (currentId, previous) searchPath
      refine (extends_addStop hvisit _ _ _ _).enter fun id => ?_
      refine iff_of_false (Set.notMem_empty id) fun hexamined => ?_
      have hle : searchPath.length ≤ maxDepth input := hexamined.1
      omega
  | succ left ih =>
    rw [walk, hprevious]
    by_cases hmem : visitKey currentId previous ∈ p.visited
    · rw [if_pos hmem, searchFrom, search_seen ((h (placeKey (currentId, previous))).1 hmem)]
      exact Extends.refl h
    · have hexamined : searchPath.length ≤ maxDepth input := by omega
      have hnew : placeKey (currentId, previous) ∉ seen placeKey log := fun hseen => hmem ((h _).2 hseen)
      rw [if_neg hmem, searchFrom, search_step hnew (by omega)]
      have hvisit := h.visit (currentId, previous) searchPath
      have hgo : Follows input (fun place log =>
          searchFrom input (left + 1) place (searchPath ++ [place]) log) (walk input left) := by
        intro next previous path log p hpath hp
        refine ih next previous path _ (previousOf_append hpath next) ?_ hp
        rw [List.length_append, List.length_singleton]
        omega
      have hpath : ∀ relation ∈ incoming input currentId,
          (path ++ [currentId]).getLast? = some relation.target := by
        intro relation hrelation
        rw [target_of_incoming hrelation]
        simp
      have hfollows := extends_follows hgo (incoming input currentId) hpath false hvisit
      have hadded : ∀ id, id ∈ {id | ∃ relation ∈ incoming input currentId,
          id ∈ touched input relation} ↔ Examined input ((currentId, previous), searchPath) ∧
            id ∈ consumers input currentId := fun id => (and_iff_right hexamined).symm
      cases hincoming : incoming input currentId with
      | nil =>
        have hnext : nextPlaces input (currentId, previous) = [] := by
          rw [nextPlaces, hincoming]
          rfl
        rw [hnext]
        rw [hincoming] at hadded
        refine (extends_addStop hvisit _ _ _ _).enter fun id => ?_
        rw [← hadded]
        simp
      | cons relation consuming =>
        rw [hincoming] at hfollows hadded
        have hwalk := hfollows.enter hadded
        have hnext : nextPlaces input (currentId, previous) =
            (relation :: consuming).flatMap (reached input) := by
          rw [nextPlaces, hincoming]
        rw [hnext]
        dsimp only
        split_ifs
        · exact (hwalk.trans (extends_addStop hwalk.tracks _ _ _ _)).congr (Set.union_self ∅)
        · exact hwalk

def searchFroms (input : ImpactPropagationInput) (places : List Place) (log : Log Place) :
    Log Place :=
  places.foldl (fun log place => searchFrom input (maxDepth input + 1) place [place] log) log

theorem searchFroms_append (places places' : List Place) (log : Log Place) :
    searchFroms input (places ++ places') log =
      searchFroms input places' (searchFroms input places log) := List.foldl_append

variable (symbolId : LogicalId)

theorem extends_seedOwners (owners : List LogicalId) (h : Tracks log p) :
    Extends input {id | id ∈ owners} log p
      (searchFroms input ((owners.filter fun c => !boundaryPreserved input symbolId c).map
        (·, symbolId)) log)
      (owners.foldl (seedOwner input symbolId) p) := by
  induction owners generalizing log p with
  | nil => exact (Extends.refl h).congr (by simp)
  | cons owner owners ih =>
    have hadd := extends_addAffected input h owner
    have hset : ({owner} ∪ ∅ ∪ {id | id ∈ owners} : Set LogicalId) = {id | id ∈ owner :: owners} := by
      ext id
      simp
    rw [List.foldl_cons, List.filter_cons]
    by_cases hpreserved : boundaryPreserved input symbolId owner = true
    · have hstop := hadd.trans (extends_addStop hadd.tracks symbolId
        "preserved conforming Component boundary" [symbolId, owner] (some owner))
      simp only [seedOwner, hpreserved, Bool.not_true, Bool.false_eq_true,
        if_false]
      exact (hstop.trans (ih hstop.tracks)).congr hset
    · have hwalk := hadd.trans (extends_walk (maxDepth input) owner symbolId [symbolId]
        [(owner, symbolId)] rfl (Nat.add_comm _ _) hadd.tracks)
      simp only [seedOwner, hpreserved, Bool.not_false, if_true, List.map_cons]
      exact (hwalk.trans (ih hwalk.tracks)).congr hset

variable (input) in
theorem extends_seedSymbol (h : Tracks log p) :
    Extends input {id | id = symbolId ∨ id ∈ ownersOf input symbolId} log p
      (searchFroms input (crossed input symbolId) log) (seedSymbol input p symbolId) := by
  have hadd := extends_addAffected input h symbolId
  rw [seedSymbol, crossed]
  cases howners : ownersOf input symbolId with
  | nil =>
    have hunknown := hadd.trans (extends_addUnknown hadd.tracks symbolId)
    refine (hunknown.trans (extends_addStop hunknown.tracks _ _ _ _)).congr ?_
    ext id
    simp
  | cons owner owners =>
    refine (hadd.trans (extends_seedOwners symbolId (owner :: owners) hadd.tracks)).congr ?_
    ext id
    simp

variable (input) in
theorem extends_seedSymbols (symbolIds : List LogicalId) (h : Tracks log p) :
    Extends input {id | ∃ s ∈ symbolIds, id = s ∨ id ∈ ownersOf input s} log p
      (searchFroms input (symbolIds.flatMap (crossed input)) log)
      (symbolIds.foldl (seedSymbol input) p) := by
  induction symbolIds generalizing log p with
  | nil => exact (Extends.refl h).congr (by simp)
  | cons symbolId symbolIds ih =>
    have hfirst := extends_seedSymbol input symbolId h
    rw [List.flatMap_cons, searchFroms_append, List.foldl_cons]
    refine (hfirst.trans (ih hfirst.tracks)).congr ?_
    ext id
    simp

theorem extends_seedComponents (componentIds : List LogicalId) (h : Tracks log p) :
    Extends input {id | id ∈ componentIds} log p
      (searchFroms input (componentIds.map (·, "")) log)
      (componentIds.foldl (seedComponent input) p) := by
  induction componentIds generalizing log p with
  | nil => exact (Extends.refl h).congr (by simp)
  | cons componentId componentIds ih =>
    have hadd := extends_addAffected input h componentId
    have hwalk := hadd.trans (extends_walk (maxDepth input) componentId "" [] [(componentId, "")] rfl
      (Nat.add_comm _ _) hadd.tracks)
    rw [List.foldl_cons, List.map_cons]
    refine (hwalk.trans (ih hwalk.tracks)).congr ?_
    ext id
    simp

end Walking

section Consumers

theorem mem_sortedSet {id : LogicalId} {ids : List LogicalId} : id ∈ sortedSet ids ↔ id ∈ ids :=
  mem_sortBy.trans List.mem_dedup

variable (input : ImpactPropagationInput)

/-- The places that the search comes to: from the owners of the changed symbols into which these
are followed, and from the changed components. -/
def walkLog : Log Place :=
  searchFroms input ((sortedSet input.changedSymbolIds).flatMap (crossed input) ++
    (sortedSet input.changedComponentIds).map (·, "")) []

/-- What is affected anyway: the changed symbols and their owners, the changed components, and what
consumes a place that is examined. -/
def Accounted (id : LogicalId) : Prop :=
  (∃ s ∈ input.changedSymbolIds, id = s ∨ id ∈ ownersOf input s) ∨ id ∈ input.changedComponentIds ∨
    ∃ entry ∈ walkLog input, Examined input entry ∧ id ∈ consumers input entry.1.1

theorem mem_affectedEntities (id : LogicalId) :
    id ∈ (propagateSemanticImpact input).affectedEntities ↔ Accounted input id := by
  have hstart : Tracks [] ({ affected := []
                             unknownSymbols := (input.unknownSymbolIds.getD []).dedup, paths := []
                             stopPoints := [], visited := [] } : Propagation) := fun key => Iff.rfl
  have hsymbols := extends_seedSymbols input (sortedSet input.changedSymbolIds) hstart
  have hall := hsymbols.trans
    (extends_seedComponents (sortedSet input.changedComponentIds) hsymbols.tracks)
  rw [← searchFroms_append] at hall
  obtain ⟨new, hnew, haffected⟩ := hall.affected
  rw [List.nil_append] at hnew
  refine mem_sortBy.trans ((haffected id).trans ?_)
  rw [← hnew, Set.mem_union, or_assoc]
  simp only [List.not_mem_nil, false_or, Set.mem_ofPred_eq, mem_sortedSet]
  exact Iff.rfl

/-- A changed symbol is seen from outside of its owner, because its surface changed or the boundary
of an owner. -/
def Crosses (symbolId : LogicalId) : Prop :=
  symbolId ∈ input.boundaryChangedSymbolIds.getD [] ∨
    ∃ c ∈ ownersOf input symbolId, c ∈ input.changedComponentIds

/-- What consumes such a symbol, or an owner of it, directly. -/
structure DirectConsumption (s : LogicalId) (relation : SemanticRelation) : Prop where
  changed : s ∈ input.changedSymbolIds
  crosses : Crosses input s
  mem : relation ∈ relations input.baseSnapshot ++ relations input.headSnapshot
  kind : relation.kind ∈ propagatingRelations
  target : relation.target = s ∨ relation.target ∈ ownersOf input s

/-- A place in an entity is examined. -/
def IsExamined (id : LogicalId) : Prop :=
  ∃ entry ∈ walkLog input, Examined input entry ∧ entry.1.1 = id

def Shadowed (relation : SemanticRelation) : Prop :=
  ∃ other ∈ relations input.baseSnapshot ++ relations input.headSnapshot,
    relationKey other = relationKey relation ∧
      ¬ (other.kind = relation.kind ∧ other.source = relation.source ∧
        other.target = relation.target)

variable {input}
variable {relation : SemanticRelation}

theorem exists_mem_mergedRelations
    (h : relation ∈ relations input.baseSnapshot ++ relations input.headSnapshot) :
    ∃ merged ∈ mergedRelations input.baseSnapshot input.headSnapshot,
      merged ∈ relations input.baseSnapshot ++ relations input.headSnapshot ∧
        relationKey merged = relationKey relation := by
  have hfiled : Filed relationKey (OrderedMap.empty : OrderedMap String SemanticRelation) := nofun
  have hread := (hfiled.read_foldl_set (fun _ _ hsame => hsame)
    (relations input.baseSnapshot ++ relations input.headSnapshot) (relationKey relation)).2
      (Or.inr ⟨relation, h, rfl⟩)
  obtain ⟨merged, hmem, hkey⟩ := hread
  refine ⟨merged, mem_sortBy.2 hmem, ?_, hkey⟩
  exact (of_mem_values_foldl_set hmem).resolve_left (List.not_mem_nil)

/-- What consumes an entity that is examined is affected, unless another relation has the key of
the consuming one. -/
theorem accounted_of_isExamined
    (hmem : relation ∈ relations input.baseSnapshot ++ relations input.headSnapshot)
    (hkind : relation.kind ∈ propagatingRelations) (hself : relation.source ≠ relation.target)
    (hexamined : IsExamined input relation.target) (hshadowed : ¬ Shadowed input relation) :
    Accounted input relation.source := by
  obtain ⟨entry, hentry, hshort, htarget⟩ := hexamined
  obtain ⟨merged, hmerged, hraw, hkey⟩ := exists_mem_mergedRelations hmem
  have hsame : merged.kind = relation.kind ∧ merged.source = relation.source ∧
      merged.target = relation.target := by
    by_contra hother
    exact hshadowed ⟨merged, hraw, hkey, hother⟩
  obtain ⟨hkind', hsource, htarget'⟩ := hsame
  refine Or.inr (Or.inr ⟨entry, hentry, hshort, merged, ?_, Or.inl hsource.symm⟩)
  rw [htarget]
  refine List.mem_filter.2 ⟨hmerged, decide_eq_true ⟨htarget', hkind' ▸ hkind, ?_⟩⟩
  rwa [hsource]

end Consumers

section Callers

def bareEntity (kind id : String) : JsonValue := .object [("id", .string id), ("kind", .string kind)]

def bareRelation (kind source target : String) : JsonValue := .object
  [("authority", .string "declared"), ("from", .string source), ("kind", .string kind),
    ("to", .string target)]

def calledSnapshot : RepositorySemanticSnapshot := bareSnapshot fun
  | .components => [bareEntity "component" "component:core"]
  | .symbols => [bareEntity "symbol" "symbol:called", bareEntity "symbol" "symbol:caller"]
  | .relations => [bareRelation "owns" "component:core" "symbol:called",
      bareRelation "calls" "symbol:caller" "symbol:called"]
  | _ => []

def calledInput : ImpactPropagationInput :=
  { baseSnapshot := calledSnapshot, headSnapshot := calledSnapshot
    changedSymbolIds := ["symbol:called"], changedComponentIds := []
    boundaryChangedSymbolIds := some ["symbol:called"], unknownSymbolIds := none, maxDepth := none }

end Callers

open BoundedSearch

section Depths

variable (input : ImpactPropagationInput)

/-- Where the walk starts. -/
def seedPlaces : List Place :=
  (sortedSet input.changedSymbolIds).flatMap (crossed input) ++
    (sortedSet input.changedComponentIds).map (·, "")

/-- A place that so many steps of a walk lead to. -/
abbrev PlaceIn : ℕ → Place → Prop := ReachedIn (nextPlaces input) (seedPlaces input)

/-- What can be reached from the changed symbols and components by so many steps at most. -/
def WithinDepth (depth : ℕ) (id : LogicalId) : Prop :=
  (∃ s ∈ input.changedSymbolIds, id = s ∨ id ∈ ownersOf input s) ∨ id ∈ input.changedComponentIds ∨
    ∃ k < depth, ∃ place, PlaceIn input k place ∧ id ∈ consumers input place.1

/-- An entry of the walk does not go on from a place, although fewer steps than the maximum depth
lead to it: the walk came to it at the maximum depth, or took another place for it. -/
structure GivenUp (entry : Place × List Place) (place : Place) (steps : ℕ) : Prop where
  mem : entry ∈ walkLog input
  stands : StandsFor placeKey (maxDepth input) entry place
  reached : PlaceIn input steps place

/-- The keys of the places that can be reached are different. -/
def KeysDistinct : Prop :=
  ∀ i j place other, PlaceIn input i place → PlaceIn input j other →
    placeKey place = placeKey other → place = other

def withDepth (depth : ℕ) : ImpactPropagationInput := { input with maxDepth := some depth }

/-- All places to which the walk could come. -/
def allPlaces : List Place :=
  seedPlaces input ++
    (mergedRelations input.baseSnapshot input.headSnapshot).flatMap (reached input)

variable {input} {id : LogicalId} {place : Place} {k : ℕ}

theorem withinDepth_of_accounted (h : Accounted input id) : WithinDepth input (maxDepth input) id := by
  rcases h with hsymbol | hcomponent | ⟨entry, hentry, hexamined, hconsumer⟩
  · exact Or.inl hsymbol
  · exact Or.inr (Or.inl hcomponent)
  have hcounted := counted_searchAll entry hentry
  have hpos := hcounted.pos
  have hshort : entry.2.length ≤ maxDepth input := hexamined
  exact Or.inr (Or.inr ⟨entry.2.length - 1, by omega, entry.1, hcounted.reached, hconsumer⟩)

theorem accounted_or_givenUp (h : PlaceIn input k place) (hid : id ∈ consumers input place.1) :
    Accounted input id ∨ ∃ entry w i j, GivenUp input entry w i ∧
      LeadsIn (nextPlaces input) w j place ∧ i + j = k := by
  have hcases : Entered (walkLog input) (maxDepth input) place ∨
      Hidden (nextPlaces input) (seedPlaces input) placeKey (maxDepth input) (walkLog input) k place :=
    entered_or_hidden h
  rcases hcases with ⟨path, hentry, hexamined⟩ | ⟨entry, hentry, w, i, j, hstands, hw, hleads, hk⟩
  · exact Or.inl (Or.inr (Or.inr ⟨(place, path), hentry, hexamined, hid⟩))
  · exact Or.inr ⟨entry, w, i, j, ⟨hentry, hstands, hw⟩, hleads, hk⟩

theorem affected_iff_withinDepth_iff :
    (∀ id, id ∈ (propagateSemanticImpact input).affectedEntities ↔
      WithinDepth input (maxDepth input) id) ↔
    ∀ entry w i, GivenUp input entry w i → ∀ j place, LeadsIn (nextPlaces input) w j place →
      i + j < maxDepth input → ∀ id ∈ consumers input place.1, Accounted input id := by
  simp only [mem_affectedEntities]
  constructor
  · intro h entry w i hgiven j place hleads hdepth id hid
    exact (h id).2 (Or.inr (Or.inr ⟨i + j, hdepth, place, hgiven.reached.trans hleads, hid⟩))
  · intro h id
    refine ⟨withinDepth_of_accounted, fun hwithin => ?_⟩
    rcases hwithin with hsymbol | hcomponent | ⟨k, hk, place, hplace, hid⟩
    · exact Or.inl hsymbol
    · exact Or.inr (Or.inl hcomponent)
    · rcases accounted_or_givenUp hplace hid with haccounted | ⟨entry, w, i, j, hgiven, hleads, rfl⟩
      · exact haccounted
      · exact h entry w i hgiven j place hleads hk id hid

theorem not_givenUp (hkeys : KeysDistinct input)
    (hdepth : ∀ i place, i < maxDepth input → PlaceIn input i place →
      ¬ PlaceIn input (maxDepth input) place) (hk : k < maxDepth input)
    (entry : Place × List Place) : ¬ GivenUp input entry place k := by
  intro hgiven
  have hcounted := counted_searchAll entry hgiven.mem
  have hsame := hkeys _ _ _ _ hgiven.reached hcounted.reached hgiven.stands.1
  rcases hgiven.stands.2 with hne | hlate
  · exact hne hsame.symm
  · have hlength : entry.2.length - 1 = maxDepth input := by
      have hbounded := hcounted.bounded
      omega
    have hreached := hcounted.reached
    rw [hlength, ← hsame] at hreached
    exact hdepth k place hk hgiven.reached hreached

theorem affected_of_distinct_depths (hkeys : KeysDistinct input)
    (hdepth : ∀ i place, i < maxDepth input → PlaceIn input i place →
      ¬ PlaceIn input (maxDepth input) place) (id : LogicalId) :
    id ∈ (propagateSemanticImpact input).affectedEntities ↔ WithinDepth input (maxDepth input) id := by
  refine affected_iff_withinDepth_iff.2 ?_ id
  intro entry w i hgiven j place _ hlt
  exact absurd hgiven (not_givenUp hkeys hdepth (by omega) entry)

theorem seedPlaces_subset : ∀ place ∈ seedPlaces input, place ∈ allPlaces input :=
  fun _ h => List.mem_append_left _ h

theorem nextPlaces_subset (place : Place) : ∀ next ∈ nextPlaces input place, next ∈ allPlaces input := by
  intro next hnext
  obtain ⟨relation, hrelation, hreached⟩ := List.mem_flatMap.1 hnext
  exact List.mem_append_right _
    (List.mem_flatMap.2 ⟨relation, List.mem_of_mem_filter hrelation, hreached⟩)

/-- A maximum depth that is not smaller than the number of places stops the walk nowhere. -/
theorem examined_of_large {depth : ℕ} (hlarge : (allPlaces input).length ≤ depth) :
    ∀ entry ∈ walkLog (withDepth input depth), Examined (withDepth input depth) entry := by
  intro entry hentry
  have hle := length_le_searchAll (@seedPlaces_subset input) nextPlaces_subset entry hentry
  exact hle.trans hlarge

theorem affected_of_large {depth : ℕ} (hlarge : (allPlaces input).length ≤ depth)
    (hkeys : KeysDistinct input) (id : LogicalId) :
    id ∈ (propagateSemanticImpact (withDepth input depth)).affectedEntities ↔
      ∃ bound, WithinDepth input bound id := by
  rw [mem_affectedEntities]
  constructor
  · exact fun haccounted => ⟨depth, withinDepth_of_accounted haccounted⟩
  · rintro ⟨bound, hsymbol | hcomponent | ⟨k, -, place, hplace, hid⟩⟩
    · exact Or.inl hsymbol
    · exact Or.inr (Or.inl hcomponent)
    · have hplace' : PlaceIn (withDepth input depth) k place := hplace
      rcases accounted_or_givenUp hplace' hid with haccounted | ⟨entry, w, i, j, hgiven, -, -⟩
      · exact haccounted
      · rcases hgiven.stands.2 with hne | hlate
        · have hcounted := counted_searchAll entry hgiven.mem
          exact absurd (hkeys _ _ _ _ hgiven.reached hcounted.reached hgiven.stands.1).symm hne
        · exact absurd (examined_of_large hlarge entry hgiven.mem) (Nat.not_le.2 hlate)

/-- How far the propagation comes. -/
structure ReachesDepth (input : ImpactPropagationInput) : Prop where
  exactly : (∀ id, id ∈ (propagateSemanticImpact input).affectedEntities ↔
      WithinDepth input (maxDepth input) id) ↔
    ∀ entry w i, GivenUp input entry w i → ∀ j place, LeadsIn (nextPlaces input) w j place →
      i + j < maxDepth input → ∀ id ∈ consumers input place.1, Accounted input id
  distinct : KeysDistinct input → (∀ i place, i < maxDepth input → PlaceIn input i place →
      ¬ PlaceIn input (maxDepth input) place) →
    ∀ id, id ∈ (propagateSemanticImpact input).affectedEntities ↔
      WithinDepth input (maxDepth input) id
  unbounded : ∀ depth, (allPlaces input).length ≤ depth →
    (∀ entry ∈ walkLog (withDepth input depth), Examined (withDepth input depth) entry) ∧
      (KeysDistinct input → ∀ id,
        id ∈ (propagateSemanticImpact (withDepth input depth)).affectedEntities ↔
          ∃ bound, WithinDepth input bound id)

end Depths

section Detours

/-- A component that two files use, one of which uses the other; what uses this one is used again. -/
def detourSnapshot : RepositorySemanticSnapshot := bareSnapshot fun
  | .components => [bareEntity "component" "component:core"]
  | .files => [bareEntity "file" "file:a", bareEntity "file" "file:b", bareEntity "file" "file:x",
      bareEntity "file" "file:y"]
  | .relations => [bareRelation "requires" "file:a" "component:core",
      bareRelation "requires" "file:b" "component:core", bareRelation "requires" "file:b" "file:a",
      bareRelation "requires" "file:x" "file:b", bareRelation "requires" "file:y" "file:x"]
  | _ => []

def detourInput : ImpactPropagationInput :=
  { baseSnapshot := detourSnapshot, headSnapshot := detourSnapshot, changedSymbolIds := []
    changedComponentIds := ["component:core"], boundaryChangedSymbolIds := none
    unknownSymbolIds := none, maxDepth := some 3 }

end Detours

end Mottainai.Impact
