import Mottainai.KeyedLists
import Mottainai.OrderedMaps
import Mottainai.JsonTexts

/-!
# How the symbols of two snapshots are paired

A symbol that keeps its id is paired with itself. The others are paired in four passes, each by more
lenient keys, where a key is the key of a single symbol on both sides. A symbol that remains is
ambiguous if it could be paired with more than one symbol of the other side; otherwise it was
removed or added, and a change says so. An ambiguous symbol of the head snapshot has no other side
either, but its change calls it removed.
-/

namespace Mottainai.SemanticDiff

open JsonValues OrderedMaps KeyedMatching

abbrev LogicalId : Type := String

section Definitions

structure SymbolLocator where
  package : Option String
  moduleName : Option String
  file : Option String
  symbol : String
  signature : Option String
  deriving DecidableEq

structure SymbolEntity where
  id : LogicalId
  locator : SymbolLocator
  deriving DecidableEq

inductive IdentityStatus where
  | unchanged
  | moved
  | renamed
  | changed
  | added
  | removed
  | ambiguous
  deriving DecidableEq

def IdentityStatus.text : IdentityStatus → String
  | unchanged => "unchanged"
  | moved => "moved"
  | renamed => "renamed"
  | changed => "changed"
  | added => "added"
  | removed => "removed"
  | ambiguous => "ambiguous"

structure SymbolPair where
  before : Option SymbolEntity
  after : Option SymbolEntity
  identityStatus : IdentityStatus
  ambiguousCandidates : Option (List SymbolEntity)
  deriving DecidableEq

def symbolIdentityKey (mode : Fin 4) (symbol : SymbolEntity) : String :=
  let packageName := symbol.locator.package.getD ""
  let moduleName := symbol.locator.moduleName.getD ""
  let symbolName := symbol.locator.symbol
  let signature := symbol.locator.signature.getD ""
  match mode with
  | 0 => packageName ++ "|" ++ moduleName ++ "|" ++ symbolName ++ "|" ++ signature
  | 1 => packageName ++ "|" ++ symbolName ++ "|" ++ signature
  | 2 => packageName ++ "|" ++ symbolName
  | 3 => packageName ++ "|" ++ signature

/-- `new Map(symbols.map((item) => [item.id, item]))`. -/
def symbolMap (symbols : List SymbolEntity) : OrderedMap LogicalId SymbolEntity :=
  symbols.foldl (fun found item => found.set item.id item) OrderedMap.empty

def commonIds (before after : List SymbolEntity) : List LogicalId :=
  sortBy id ((symbolMap before).keys.filter (· ∈ (symbolMap after).keys))

def sameIdPair (left right : SymbolEntity) : SymbolPair :=
  let fileChanged := left.locator.file ≠ right.locator.file
  let nameChanged := left.locator.symbol ≠ right.locator.symbol
  { before := some left, after := some right
    identityStatus := if nameChanged then .renamed else if fileChanged then .moved else .unchanged
    ambiguousCandidates := none }

def sameIdPairs (before after : List SymbolEntity) : List SymbolPair :=
  (commonIds before after).filterMap fun id =>
    match (symbolMap before).get id, (symbolMap after).get id with
    | some left, some right => some (sameIdPair left right)
    | _, _ => none

def unmatchedSymbols (symbols : List SymbolEntity) (paired : List LogicalId) : List SymbolEntity :=
  sortBy (·.id) ((symbolMap symbols).values.filter (·.id ∉ paired))

structure Pairing where
  pairedBefore : List LogicalId
  pairedAfter : List LogicalId
  pairs : List SymbolPair

def groupSymbols (mode : Fin 4) (symbols : List SymbolEntity) : OrderedMap String (List SymbolEntity) :=
  symbols.foldl (fun groups item =>
    groups.set (symbolIdentityKey mode item)
      ((groups.get (symbolIdentityKey mode item)).getD [] ++ [item])) OrderedMap.empty

def keyPair (beforeSymbol afterSymbol : SymbolEntity) : SymbolPair :=
  let renamed := beforeSymbol.locator.symbol ≠ afterSymbol.locator.symbol
  { before := some beforeSymbol, after := some afterSymbol
    identityStatus := if renamed then .renamed else .moved, ambiguousCandidates := none }

def pairGroup (left right : List SymbolEntity) (pairing : Pairing) : Pairing :=
  match left, right with
  | [beforeSymbol], [afterSymbol] =>
      { pairedBefore := pairing.pairedBefore ++ [beforeSymbol.id]
        pairedAfter := pairing.pairedAfter ++ [afterSymbol.id]
        pairs := pairing.pairs ++ [keyPair beforeSymbol afterSymbol] }
  | _, _ => pairing

def pairMode (unmatchedBefore unmatchedAfter : List SymbolEntity) (pairing : Pairing)
    (mode : Fin 4) : Pairing :=
  let beforeGroups := groupSymbols mode (unmatchedBefore.filter (·.id ∉ pairing.pairedBefore))
  let afterGroups := groupSymbols mode (unmatchedAfter.filter (·.id ∉ pairing.pairedAfter))
  (sortBy id beforeGroups.keys).foldl (fun pairing key =>
    pairGroup ((beforeGroups.get key).getD []) ((afterGroups.get key).getD []) pairing) pairing

def ambiguousCandidates (item : SymbolEntity) (unmatched : List SymbolEntity)
    (paired : List LogicalId) : List SymbolEntity :=
  unmatched.filter fun candidate => candidate.id ∉ paired ∧
    (symbolIdentityKey 2 candidate = symbolIdentityKey 2 item ∨
      symbolIdentityKey 3 candidate = symbolIdentityKey 3 item)

def ambiguousSymbols (unmatched : List SymbolEntity) (paired : List LogicalId)
    (others : List SymbolEntity) (pairedOthers : List LogicalId) : List SymbolEntity :=
  unmatched.filter fun item =>
    item.id ∉ paired ∧ 1 < (ambiguousCandidates item others pairedOthers).length

def pairKey (pair : SymbolPair) : String :=
  (pair.after.elim "" (·.id)) ++ ":" ++ (pair.before.elim "" (·.id))

def pairSymbols (before after : List SymbolEntity) : List SymbolPair :=
  let ids := commonIds before after
  let unmatchedBefore := unmatchedSymbols before ids
  let unmatchedAfter := unmatchedSymbols after ids
  let pairing := ([0, 1, 2, 3] : List (Fin 4)).foldl (pairMode unmatchedBefore unmatchedAfter)
    { pairedBefore := ids, pairedAfter := ids, pairs := sameIdPairs before after }
  let ambiguousAfter :=
    ambiguousSymbols unmatchedAfter pairing.pairedAfter unmatchedBefore pairing.pairedBefore
  let ambiguousBefore :=
    ambiguousSymbols unmatchedBefore pairing.pairedBefore unmatchedAfter pairing.pairedAfter
  sortBy pairKey (pairing.pairs ++
    ambiguousAfter.map (fun item =>
      { before := none, after := some item, identityStatus := .ambiguous
        ambiguousCandidates := some (sortBy (·.id)
          (ambiguousCandidates item unmatchedBefore pairing.pairedBefore)) }) ++
    ambiguousBefore.map (fun item =>
      { before := some item, after := none, identityStatus := .ambiguous
        ambiguousCandidates := some (sortBy (·.id)
          (ambiguousCandidates item unmatchedAfter pairing.pairedAfter)) }) ++
    (unmatchedBefore.filter fun item =>
        item.id ∉ pairing.pairedBefore ∧ item.id ∉ ambiguousBefore.map (·.id)).map (fun item =>
      { before := some item, after := none, identityStatus := .removed
        ambiguousCandidates := none }) ++
    (unmatchedAfter.filter fun item =>
        item.id ∉ pairing.pairedAfter ∧ item.id ∉ ambiguousAfter.map (·.id)).map (fun item =>
      { before := none, after := some item, identityStatus := .added
        ambiguousCandidates := none }))

end Definitions

section Groups

variable {mode : Fin 4} {symbols : List SymbolEntity} {key : String}

theorem getD_foldl_groups (groups : OrderedMap String (List SymbolEntity)) :
    ((symbols.foldl (fun groups item =>
      groups.set (symbolIdentityKey mode item)
        ((groups.get (symbolIdentityKey mode item)).getD [] ++ [item])) groups).get key).getD [] =
      (groups.get key).getD [] ++ symbols.filter (symbolIdentityKey mode · = key) := by
  induction symbols generalizing groups with
  | nil => simp
  | cons item symbols ih =>
    rw [List.foldl_cons, ih]
    by_cases hkey : symbolIdentityKey mode item = key
    · rw [hkey, OrderedMap.get_set_self, List.filter_cons_of_pos (by simpa using hkey)]
      simp
    · rw [OrderedMap.get_set_of_ne (Ne.symm hkey), List.filter_cons_of_neg (by simpa using hkey)]

theorem getD_groupSymbols :
    ((groupSymbols mode symbols).get key).getD [] =
      symbols.filter (symbolIdentityKey mode · = key) := by
  rw [groupSymbols, getD_foldl_groups]
  rfl

theorem mem_keys_groupSymbols (h : symbols.filter (symbolIdentityKey mode · = key) ≠ []) :
    key ∈ (groupSymbols mode symbols).keys := by
  by_contra hkey
  apply h
  rw [← getD_groupSymbols, OrderedMap.get_eq_none_iff.mpr hkey]
  rfl

end Groups

section Modes

variable {unmatchedBefore unmatchedAfter : List SymbolEntity} {pairing : Pairing} {mode : Fin 4}

def groupPair : List SymbolEntity → List SymbolEntity → Option (SymbolEntity × SymbolEntity)
  | [left], [right] => some (left, right)
  | _, _ => none

theorem groupPair_eq_some {left right : List SymbolEntity} {l r : SymbolEntity} :
    groupPair left right = some (l, r) ↔ left = [l] ∧ right = [r] := by
  match left, right with
  | [], _ => simp [groupPair]
  | [_], [] => simp [groupPair]
  | [_], [_] => simp [groupPair]
  | [_], _ :: _ :: _ => simp [groupPair]
  | _ :: _ :: _, _ => simp [groupPair]

def Pairing.extend (pairing : Pairing) (found : List (SymbolEntity × SymbolEntity)) : Pairing :=
  { pairedBefore := pairing.pairedBefore ++ (found.map Prod.fst).map (·.id)
    pairedAfter := pairing.pairedAfter ++ (found.map Prod.snd).map (·.id)
    pairs := pairing.pairs ++ found.map fun pair => keyPair pair.1 pair.2 }

theorem Pairing.extend_nil (pairing : Pairing) : pairing.extend [] = pairing := by
  simp [extend]

theorem Pairing.extend_extend (pairing : Pairing) (found later : List (SymbolEntity × SymbolEntity)) :
    (pairing.extend found).extend later = pairing.extend (found ++ later) := by
  simp [extend]

theorem pairGroup_eq_extend (left right : List SymbolEntity) (pairing : Pairing) :
    pairGroup left right pairing = pairing.extend (groupPair left right).toList := by
  match left, right with
  | [], _ => exact pairing.extend_nil.symm
  | [_], [] => exact pairing.extend_nil.symm
  | [_], [_] => rfl
  | [_], _ :: _ :: _ => exact pairing.extend_nil.symm
  | _ :: _ :: _, _ => exact pairing.extend_nil.symm

theorem foldl_pairGroup (keys : List String) (left right : String → List SymbolEntity)
    (pairing : Pairing) :
    keys.foldl (fun pairing key => pairGroup (left key) (right key) pairing) pairing =
      pairing.extend (keys.filterMap fun key => groupPair (left key) (right key)) := by
  induction keys generalizing pairing with
  | nil => exact pairing.extend_nil.symm
  | cons key keys ih =>
    rw [List.foldl_cons, ih, pairGroup_eq_extend, Pairing.extend_extend]
    cases hpair : groupPair (left key) (right key) <;> simp [hpair]

def Pairing.leftBefore (pairing : Pairing) (unmatchedBefore : List SymbolEntity) :
    List SymbolEntity :=
  unmatchedBefore.filter (·.id ∉ pairing.pairedBefore)

def Pairing.leftAfter (pairing : Pairing) (unmatchedAfter : List SymbolEntity) :
    List SymbolEntity :=
  unmatchedAfter.filter (·.id ∉ pairing.pairedAfter)

theorem Pairing.leftBefore_extend (pairing : Pairing) (found : List (SymbolEntity × SymbolEntity))
    (unmatchedBefore : List SymbolEntity) : (pairing.extend found).leftBefore unmatchedBefore =
      unmatched (·.id) (found.map Prod.fst) (pairing.leftBefore unmatchedBefore) := by
  rw [leftBefore, leftBefore, unmatched, List.filter_filter]
  apply List.filter_congr
  intro item _
  simp only [extend, List.mem_append, not_or, ← Bool.decide_and, and_comm]

theorem Pairing.leftAfter_extend (pairing : Pairing) (found : List (SymbolEntity × SymbolEntity))
    (unmatchedAfter : List SymbolEntity) : (pairing.extend found).leftAfter unmatchedAfter =
      unmatched (·.id) (found.map Prod.snd) (pairing.leftAfter unmatchedAfter) := by
  rw [leftAfter, leftAfter, unmatched, List.filter_filter]
  apply List.filter_congr
  intro item _
  simp only [extend, List.mem_append, not_or, ← Bool.decide_and, and_comm]

theorem pairMode_pass (unmatchedBefore unmatchedAfter : List SymbolEntity) (pairing : Pairing)
    (mode : Fin 4) : ∃ found,
      pairMode unmatchedBefore unmatchedAfter pairing mode = pairing.extend found ∧
      Pass (·.id) (symbolIdentityKey mode) (pairing.leftBefore unmatchedBefore)
        (pairing.leftAfter unmatchedAfter) found
        ((pairing.extend found).leftBefore unmatchedBefore)
        ((pairing.extend found).leftAfter unmatchedAfter) := by
  let beforeGroups := groupSymbols mode (pairing.leftBefore unmatchedBefore)
  let afterGroups := groupSymbols mode (pairing.leftAfter unmatchedAfter)
  have hgroup : ∀ key l r,
      groupPair ((beforeGroups.get key).getD []) ((afterGroups.get key).getD []) = some (l, r) ↔
        (pairing.leftBefore unmatchedBefore).filter (symbolIdentityKey mode · = key) = [l] ∧
          (pairing.leftAfter unmatchedAfter).filter (symbolIdentityKey mode · = key) = [r] := by
    intro key l r
    rw [groupPair_eq_some, getD_groupSymbols, getD_groupSymbols]
  refine ⟨(sortBy id beforeGroups.keys).filterMap fun key =>
      groupPair ((beforeGroups.get key).getD []) ((afterGroups.get key).getD []),
    foldl_pairGroup _ _ _ _, ?_, ?_, Pairing.leftBefore_extend _ _ _,
    Pairing.leftAfter_extend _ _ _⟩
  · -- a pair tells under which key it was found
    apply List.Nodup.filterMap
    · rintro key key' ⟨l, r⟩ hfound hfound'
      have hkey : ∀ {k}, (pairing.leftBefore unmatchedBefore).filter
          (symbolIdentityKey mode · = k) = [l] → symbolIdentityKey mode l = k := by
        intro k hfilter
        have hmem := List.mem_singleton_self l
        rw [← hfilter] at hmem
        exact of_decide_eq_true (List.mem_filter.mp hmem).2
      exact (hkey ((hgroup key l r).mp hfound).1).symm.trans (hkey ((hgroup key' l r).mp hfound').1)
    · exact (sortBy_perm id _).nodup_iff.mpr beforeGroups.nodup
  · intro l r
    rw [matches_iff_filter, List.mem_filterMap]
    constructor
    · rintro ⟨key, -, hfound⟩
      exact ⟨key, (hgroup key l r).mp hfound⟩
    · rintro ⟨key, hleft, hright⟩
      refine ⟨key, ?_, (hgroup key l r).mpr ⟨hleft, hright⟩⟩
      rw [mem_sortBy]
      apply mem_keys_groupSymbols
      rw [hleft]
      exact List.cons_ne_nil l []

theorem foldl_pairMode_passes (modes : List (Fin 4)) (unmatchedBefore unmatchedAfter : List SymbolEntity)
    (pairing : Pairing) : ∃ found,
      modes.foldl (pairMode unmatchedBefore unmatchedAfter) pairing = pairing.extend found ∧
      Passes (·.id) (modes.map symbolIdentityKey) (pairing.leftBefore unmatchedBefore)
        (pairing.leftAfter unmatchedAfter) found
        ((pairing.extend found).leftBefore unmatchedBefore)
        ((pairing.extend found).leftAfter unmatchedAfter) := by
  induction modes generalizing pairing with
  | nil =>
    refine ⟨[], pairing.extend_nil.symm, ?_⟩
    rw [pairing.extend_nil]
    exact .nil _ _
  | cons mode modes ih =>
    obtain ⟨found, hmode, hpass⟩ := pairMode_pass unmatchedBefore unmatchedAfter pairing mode
    obtain ⟨later, hmodes, hpasses⟩ := ih (pairing.extend found)
    rw [Pairing.extend_extend] at hmodes hpasses
    exact ⟨found ++ later, by rw [List.foldl_cons, hmode, hmodes], .cons hpass hpasses⟩

end Modes

section Remainder

variable {before after left right : List SymbolEntity}

/-- Symbols that could be the same symbol under another signature or another name. -/
def Resembles (item candidate : SymbolEntity) : Prop :=
  symbolIdentityKey 2 candidate = symbolIdentityKey 2 item ∨
    symbolIdentityKey 3 candidate = symbolIdentityKey 3 item

instance (item candidate : SymbolEntity) : Decidable (Resembles item candidate) :=
  inferInstanceAs (Decidable (_ ∨ _))

/-- A symbol resembles several of the other side. -/
def Ambiguous (others : List SymbolEntity) (item : SymbolEntity) : Prop :=
  1 < (others.filter fun candidate => Resembles item candidate).length

instance (others : List SymbolEntity) (item : SymbolEntity) : Decidable (Ambiguous others item) :=
  inferInstanceAs (Decidable (_ < _))

def ambiguousPair (others : List SymbolEntity) (before after : Option SymbolEntity)
    (item : SymbolEntity) : SymbolPair :=
  { before, after, identityStatus := .ambiguous
    ambiguousCandidates := some (sortBy (·.id) (others.filter fun candidate => Resembles item candidate)) }

def removedPair (item : SymbolEntity) : SymbolPair :=
  { before := some item, after := none, identityStatus := .removed, ambiguousCandidates := none }

def addedPair (item : SymbolEntity) : SymbolPair :=
  { before := none, after := some item, identityStatus := .added, ambiguousCandidates := none }

def remainder (left right : List SymbolEntity) : List SymbolPair :=
  (right.filter fun item => Ambiguous left item).map
      (fun item => ambiguousPair left none (some item) item) ++
    (left.filter fun item => Ambiguous right item).map
      (fun item => ambiguousPair right (some item) none item) ++
    (left.filter fun item => ¬ Ambiguous right item).map removedPair ++
    (right.filter fun item => ¬ Ambiguous left item).map addedPair

def passKeys : List (SymbolEntity → String) := [0, 1, 2, 3].map symbolIdentityKey

/-- What the passes start with: the symbols whose ids are not on the other side. -/
def startSymbols (symbols others : List SymbolEntity) : List SymbolEntity :=
  unmatchedSymbols symbols (commonIds symbols others)

variable (symbols : List SymbolEntity)

theorem filed_symbolMap : OrderedMap.Filed (·.id) (symbolMap symbols) := by
  have hfold : ∀ (found : OrderedMap LogicalId SymbolEntity), OrderedMap.Filed (·.id) found →
      OrderedMap.Filed (·.id) (symbols.foldl (fun found item => found.set item.id item) found) := by
    induction symbols with
    | nil => exact fun _ h => h
    | cons item symbols ih => exact fun found h => ih _ (h.set item)
  exact hfold _ nofun

theorem map_id_values_symbolMap :
    (symbolMap symbols).values.map (·.id) = (symbolMap symbols).keys := by
  rw [OrderedMap.values, OrderedMap.keys, List.map_map]
  apply List.map_congr_left
  intro entry hentry
  exact (filed_symbolMap symbols entry hentry).symm

theorem nodup_unmatchedSymbols (paired : List LogicalId) :
    ((unmatchedSymbols symbols paired).map (·.id)).Nodup := by
  have hvalues : ((symbolMap symbols).values.map (·.id)).Nodup := by
    rw [map_id_values_symbolMap]
    exact (symbolMap symbols).nodup
  apply (((sortBy_perm _ _).map _).nodup_iff).mpr
  exact hvalues.sublist (List.filter_sublist.map _)

theorem commonIds_comm (before after : List SymbolEntity) :
    commonIds before after = commonIds after before := by
  have hmem : ∀ (found other : OrderedMap LogicalId SymbolEntity) (id : LogicalId),
      id ∈ found.keys.filter (· ∈ other.keys) ↔ id ∈ found.keys ∧ id ∈ other.keys := by
    intro found other id
    rw [List.mem_filter, decide_eq_true_eq]
  apply sortBy_eq_of_perm
  · apply (List.perm_ext_iff_of_nodup ((symbolMap before).nodup.filter _)
      ((symbolMap after).nodup.filter _)).mpr
    intro id
    exact (hmem _ _ id).trans (and_comm.trans (hmem _ _ id).symm)
  · exact fun _ _ _ _ h => h

theorem ambiguousCandidates_eq (item : SymbolEntity) (unmatched : List SymbolEntity)
    (paired : List LogicalId) : ambiguousCandidates item unmatched paired =
      (unmatched.filter (·.id ∉ paired)).filter fun candidate => Resembles item candidate := by
  rw [ambiguousCandidates, List.filter_filter]
  apply List.filter_congr
  intro candidate _
  rw [← Bool.decide_and]
  exact decide_eq_decide.mpr and_comm

theorem ambiguousSymbols_eq (unmatched others : List SymbolEntity) (paired pairedOthers : List LogicalId) :
    ambiguousSymbols unmatched paired others pairedOthers =
      (unmatched.filter (·.id ∉ paired)).filter fun item =>
        Ambiguous (others.filter (·.id ∉ pairedOthers)) item := by
  rw [ambiguousSymbols, List.filter_filter]
  apply List.filter_congr
  intro item _
  rw [ambiguousCandidates_eq, ← Bool.decide_and]
  exact decide_eq_decide.mpr and_comm

theorem filter_not_ambiguous {unmatched : List SymbolEntity}
    (hids : (unmatched.map (·.id)).Nodup) (others : List SymbolEntity)
    (paired pairedOthers : List LogicalId) :
    (unmatched.filter fun item => item.id ∉ paired ∧
        item.id ∉ (ambiguousSymbols unmatched paired others pairedOthers).map (·.id)) =
      (unmatched.filter (·.id ∉ paired)).filter fun item =>
        ¬ Ambiguous (others.filter (·.id ∉ pairedOthers)) item := by
  rw [List.filter_filter]
  apply List.filter_congr
  intro item hitem
  rw [← Bool.decide_and, decide_eq_decide, and_comm]
  apply and_congr_left
  intro hpaired
  apply not_congr
  rw [ambiguousSymbols_eq, List.mem_map]
  constructor
  · rintro ⟨other, hother, hid⟩
    obtain ⟨hleft, hambiguous⟩ := List.mem_filter.mp hother
    rw [List.inj_on_of_nodup_map hids (List.mem_of_mem_filter hleft) hitem hid] at hambiguous
    exact of_decide_eq_true hambiguous
  · intro hambiguous
    have hleft : item ∈ unmatched.filter (·.id ∉ paired) :=
      List.mem_filter.mpr ⟨hitem, decide_eq_true hpaired⟩
    exact ⟨item, List.mem_filter.mpr ⟨hleft, decide_eq_true hambiguous⟩, rfl⟩

theorem filter_unmatchedSymbols (paired : List LogicalId) :
    (unmatchedSymbols symbols paired).filter (·.id ∉ paired) = unmatchedSymbols symbols paired := by
  apply List.filter_eq_self.mpr
  intro item hitem
  rw [unmatchedSymbols, mem_sortBy] at hitem
  exact (List.mem_filter.mp hitem).2

theorem pairSymbols_perm (before after : List SymbolEntity) : ∃ found left right,
    Passes (·.id) passKeys (startSymbols before after) (startSymbols after before) found left right ∧
      (pairSymbols before after).Perm (sameIdPairs before after ++
        found.map (fun pair => keyPair pair.1 pair.2) ++ remainder left right) := by
  let ids := commonIds before after
  let start : Pairing :=
    { pairedBefore := ids, pairedAfter := ids, pairs := sameIdPairs before after }
  obtain ⟨found, hmodes, hpasses⟩ := foldl_pairMode_passes [0, 1, 2, 3]
    (unmatchedSymbols before ids) (unmatchedSymbols after ids) start
  refine ⟨found, (start.extend found).leftBefore (unmatchedSymbols before ids),
    (start.extend found).leftAfter (unmatchedSymbols after ids), ?_, ?_⟩
  · rw [startSymbols, startSymbols, ← commonIds_comm before after]
    have hbefore : start.leftBefore (unmatchedSymbols before ids) = unmatchedSymbols before ids :=
      filter_unmatchedSymbols before ids
    have hafter : start.leftAfter (unmatchedSymbols after ids) = unmatchedSymbols after ids :=
      filter_unmatchedSymbols after ids
    rw [hbefore, hafter] at hpasses
    exact hpasses
  · refine (sortBy_perm pairKey _).trans ?_
    rw [hmodes, filter_not_ambiguous (nodup_unmatchedSymbols before ids),
      filter_not_ambiguous (nodup_unmatchedSymbols after ids), ambiguousSymbols_eq,
      ambiguousSymbols_eq]
    simp only [ambiguousCandidates_eq]
    rw [remainder, ← List.append_assoc, ← List.append_assoc, ← List.append_assoc]
    exact .refl _

end Remainder

section SharedIds

variable {symbols before after : List SymbolEntity} {item : SymbolEntity} {id : LogicalId}

section

variable (hids : (symbols.map (·.id)).Nodup)
include hids

theorem symbolMap_entries :
    (symbolMap symbols).entries = symbols.map fun item => (item.id, item) := by
  have hnodup : ((symbols.map fun item => (item.id, item)).map (·.1)).Nodup := by
    rw [List.map_map]
    exact hids
  have hfold := OrderedMap.foldl_set_entries ⟨symbols.map fun item => (item.id, item), hnodup⟩
  rw [List.foldl_map] at hfold
  exact congrArg OrderedMap.entries hfold

theorem symbolMap_values : (symbolMap symbols).values = symbols := by
  rw [OrderedMap.values, symbolMap_entries hids, List.map_map]
  exact List.map_id symbols

theorem mem_keys_symbolMap : id ∈ (symbolMap symbols).keys ↔ id ∈ symbols.map (·.id) := by
  rw [← map_id_values_symbolMap, symbolMap_values hids]

theorem get_symbolMap :
    (symbolMap symbols).get id = some item ↔ symbols.filter (·.id = id) = [item] := by
  have hfilter : symbols.filter (·.id = id) = [item] ↔ item ∈ symbols ∧ item.id = id := by
    constructor
    · intro hfound
      have hmem := List.mem_singleton_self item
      rw [← hfound] at hmem
      exact ⟨List.mem_of_mem_filter hmem, of_decide_eq_true (List.mem_filter.mp hmem).2⟩
    · rintro ⟨hmem, rfl⟩
      apply List.perm_singleton.mp
      apply (List.perm_ext_iff_of_nodup (hids.of_map.filter _) (List.nodup_singleton item)).mpr
      intro other
      rw [List.mem_filter, decide_eq_true_eq, List.mem_singleton]
      constructor
      · exact fun ⟨hother, hid⟩ => List.inj_on_of_nodup_map hids hother hmem hid
      · rintro rfl
        exact ⟨hmem, rfl⟩
  rw [hfilter, OrderedMap.get_eq_some_iff, symbolMap_entries hids, List.mem_map]
  constructor
  · rintro ⟨other, hmem, heq⟩
    cases heq
    exact ⟨hmem, rfl⟩
  · rintro ⟨hmem, rfl⟩
    exact ⟨item, hmem, rfl⟩

end

theorem mem_commonIds : id ∈ commonIds before after ↔
    id ∈ (symbolMap before).keys ∧ id ∈ (symbolMap after).keys := by
  rw [commonIds, mem_sortBy, List.mem_filter, decide_eq_true_eq]

def sharedSymbols (before after : List SymbolEntity) : List (SymbolEntity × SymbolEntity) :=
  (commonIds before after).filterMap fun id =>
    match (symbolMap before).get id, (symbolMap after).get id with
    | some left, some right => some (left, right)
    | _, _ => none

theorem sameIdPairs_eq (before after : List SymbolEntity) :
    sameIdPairs before after =
      (sharedSymbols before after).map fun pair => sameIdPair pair.1 pair.2 := by
  rw [sameIdPairs, sharedSymbols, List.map_filterMap]
  apply List.filterMap_congr
  intro id _
  cases (symbolMap before).get id <;> cases (symbolMap after).get id <;> rfl

variable (hbefore : (before.map (·.id)).Nodup)
include hbefore

theorem mem_sharedSymbols (hafter : (after.map (·.id)).Nodup) (l r : SymbolEntity) :
    (l, r) ∈ sharedSymbols before after ↔ Matches (·.id) before after l r := by
  rw [matches_iff_filter, sharedSymbols, List.mem_filterMap]
  constructor
  · rintro ⟨id, -, hfound⟩
    refine ⟨id, (get_symbolMap hbefore).mp ?_, (get_symbolMap hafter).mp ?_⟩
    · cases hleft : (symbolMap before).get id <;> cases hright : (symbolMap after).get id <;>
        simp_all
    · cases hleft : (symbolMap before).get id <;> cases hright : (symbolMap after).get id <;>
        simp_all
  · rintro ⟨id, hleft, hright⟩
    have hgetLeft := (get_symbolMap hbefore).mpr hleft
    have hgetRight := (get_symbolMap hafter).mpr hright
    refine ⟨id, mem_commonIds.mpr ⟨OrderedMap.mem_keys_of_get hgetLeft,
      OrderedMap.mem_keys_of_get hgetRight⟩, ?_⟩
    rw [hgetLeft, hgetRight]

theorem nodup_sharedSymbols : (sharedSymbols before after).Nodup := by
  have hid : ∀ id l r, (match (symbolMap before).get id, (symbolMap after).get id with
      | some left, some right => some (left, right)
      | _, _ => none) = some (l, r) → l.id = id := by
    intro id l r hfound
    have hget : (symbolMap before).get id = some l := by
      cases hleft : (symbolMap before).get id <;> cases hright : (symbolMap after).get id <;>
        simp_all
    have hmem := List.mem_singleton_self l
    rw [← (get_symbolMap hbefore).mp hget] at hmem
    exact of_decide_eq_true (List.mem_filter.mp hmem).2
  apply List.Nodup.filterMap
  · rintro id id' ⟨l, r⟩ hfound hfound'
    exact (hid id l r hfound).symm.trans (hid id' l r hfound')
  · exact (sortBy_perm _ _).nodup_iff.mpr ((symbolMap before).nodup.filter _)

theorem sharedSymbols_pass (hafter : (after.map (·.id)).Nodup) :
    Pass (·.id) (·.id) before after (sharedSymbols before after)
      (unmatched (·.id) ((sharedSymbols before after).map Prod.fst) before)
      (unmatched (·.id) ((sharedSymbols before after).map Prod.snd) after) where
  nodup := nodup_sharedSymbols hbefore
  mem := mem_sharedSymbols hbefore hafter
  left_eq := rfl
  right_eq := rfl

theorem sharedSymbols_swap (hafter : (after.map (·.id)).Nodup) :
    (sharedSymbols after before).Perm ((sharedSymbols before after).map Prod.swap) :=
  ((sharedSymbols_pass hafter hbefore).functional (sharedSymbols_pass hbefore hafter).swap).1

/-- The passes start with what the pairs by ids leave. -/
theorem startSymbols_perm (hafter : (after.map (·.id)).Nodup) :
    (startSymbols before after).Perm
      (unmatched (·.id) ((sharedSymbols before after).map Prod.fst) before) := by
  refine (sortBy_perm _ _).trans (List.Perm.of_eq ?_)
  rw [symbolMap_values hbefore]
  apply List.filter_congr
  intro item hitem
  rw [decide_eq_decide]
  apply not_congr
  rw [mem_commonIds, mem_keys_symbolMap hbefore, mem_keys_symbolMap hafter, List.map_map]
  constructor
  · rintro ⟨-, hother⟩
    obtain ⟨other, hmem, hid⟩ := List.mem_map.mp hother
    refine List.mem_map.mpr
      ⟨(item, other), (mem_sharedSymbols hbefore hafter item other).mpr ?_, rfl⟩
    have hget : ∀ {symbols : List SymbolEntity} {a : SymbolEntity}, (symbols.map (·.id)).Nodup →
        a ∈ symbols → Only (·.id) symbols a := by
      intro symbols a hids ha
      apply (get_symbolMap hids).mp
      rw [OrderedMap.get_eq_some_iff, symbolMap_entries hids]
      exact List.mem_map_of_mem ha
    exact ⟨hget hbefore hitem, hget hafter hmem, hid.symm⟩
  · intro hmatched
    obtain ⟨⟨l, r⟩, hmem, hid⟩ := List.mem_map.mp hmatched
    have hmatches := (mem_sharedSymbols hbefore hafter l r).mp hmem
    have hitemId : l.id = item.id := hid
    rw [← hitemId]
    exact ⟨List.mem_map_of_mem hmatches.left.mem,
      List.mem_map.mpr ⟨r, hmatches.right.mem, hmatches.same.symm⟩⟩

end SharedIds

section Swapping

variable {before after : List SymbolEntity}

/-- The status of a pair whose sides are swapped. -/
def IdentityStatus.swap : IdentityStatus → IdentityStatus
  | added => removed
  | removed => added
  | status => status

def SymbolPair.swap (pair : SymbolPair) : SymbolPair :=
  { before := pair.after, after := pair.before, identityStatus := pair.identityStatus.swap
    ambiguousCandidates := pair.ambiguousCandidates }

variable (left right : SymbolEntity)

theorem sameIdPair_swap : (sameIdPair left right).swap = sameIdPair right left := by
  simp only [SymbolPair.swap, sameIdPair, ne_comm]
  congr 1
  split_ifs <;> rfl

theorem keyPair_swap : (keyPair left right).swap = keyPair right left := by
  simp only [SymbolPair.swap, keyPair, ne_comm]
  congr 1
  split_ifs <;> rfl

/-- What the passes leave is ambiguous, removed or added on the other side. -/
theorem remainder_swap (left right : List SymbolEntity) :
    (remainder right left).Perm ((remainder left right).map SymbolPair.swap) := by
  have hmap : (remainder left right).map SymbolPair.swap =
      (right.filter fun item => Ambiguous left item).map
          (fun item => ambiguousPair left (some item) none item) ++
        (left.filter fun item => Ambiguous right item).map
          (fun item => ambiguousPair right none (some item) item) ++
        (left.filter fun item => ¬ Ambiguous right item).map addedPair ++
        (right.filter fun item => ¬ Ambiguous left item).map removedPair := by
    simp only [remainder, List.map_append, List.map_map]
    rfl
  rw [hmap, remainder, List.append_assoc, List.append_assoc _ (List.map addedPair _)]
  exact List.perm_append_comm.append List.perm_append_comm

/-- The pairs of the lists in the other order are the same pairs with their sides swapped. -/
theorem perm_map_swap (hbefore : (before.map (·.id)).Nodup) (hafter : (after.map (·.id)).Nodup) :
    (pairSymbols after before).Perm ((pairSymbols before after).map SymbolPair.swap) := by
  obtain ⟨found, left, right, hpasses, hperm⟩ := pairSymbols_perm before after
  obtain ⟨found', left', right', hpasses', hperm'⟩ := pairSymbols_perm after before
  obtain ⟨hfound, rfl, rfl⟩ := hpasses'.functional hpasses.swap
  have hshared := sharedSymbols_swap hbefore hafter
  have hsame : (sameIdPairs after before).Perm ((sameIdPairs before after).map SymbolPair.swap) := by
    rw [sameIdPairs_eq, sameIdPairs_eq, List.map_map]
    refine (hshared.map _).trans (.of_eq ?_)
    rw [List.map_map]
    exact List.map_congr_left fun pair _ => (sameIdPair_swap pair.1 pair.2).symm
  have hkeys : (found'.map fun pair => keyPair pair.1 pair.2).Perm
      ((found.map fun pair => keyPair pair.1 pair.2).map SymbolPair.swap) := by
    rw [List.map_map]
    refine (hfound.map _).trans (.of_eq ?_)
    rw [List.map_map]
    exact List.map_congr_left fun pair _ => (keyPair_swap pair.1 pair.2).symm
  refine hperm'.trans (List.Perm.trans ?_ (hperm.symm.map _))
  rw [List.map_append, List.map_append]
  exact (hsame.append hkeys).append (remainder_swap _ _)

end Swapping

section Partition

variable {before after : List SymbolEntity}

theorem remainder_before (left right : List SymbolEntity) :
    ((remainder left right).filterMap (·.before)).Perm left := by
  have hsides : (remainder left right).filterMap (·.before) =
      (left.filter fun item => Ambiguous right item) ++
        left.filter fun item => ¬ Ambiguous right item := by
    simp [remainder, ambiguousPair, removedPair, addedPair, List.filterMap_map, Function.comp_def]
  rw [hsides]
  simpa using List.filter_append_perm (fun item => decide (Ambiguous right item)) left

/-- The symbols of the one side, shared out. -/
theorem filterMap_before_perm (hbefore : (before.map (·.id)).Nodup)
    (hafter : (after.map (·.id)).Nodup) :
    ((pairSymbols before after).filterMap (·.before)).Perm before := by
  obtain ⟨found, left, right, hpasses, hperm⟩ := pairSymbols_perm before after
  have hstart := (hpasses.perm_left (nodup_unmatchedSymbols _ _)).symm.trans
    (startSymbols_perm hbefore hafter)
  have hsame : (sameIdPairs before after).filterMap (·.before) =
      (sharedSymbols before after).map Prod.fst := by
    rw [sameIdPairs_eq, List.filterMap_map]
    exact congrFun List.filterMap_eq_map _
  have hfound : (found.map fun pair => keyPair pair.1 pair.2).filterMap (·.before) =
      found.map Prod.fst := by
    rw [List.filterMap_map]
    exact congrFun List.filterMap_eq_map _
  refine (hperm.filterMap _).trans ?_
  rw [List.filterMap_append, List.filterMap_append, hsame, hfound, List.append_assoc]
  have hrest := ((remainder_before left right).append_left (found.map Prod.fst)).trans hstart
  exact (hrest.append_left _).trans ((sharedSymbols_pass hbefore hafter).perm_left hbefore).symm

theorem filterMap_after_perm (hbefore : (before.map (·.id)).Nodup)
    (hafter : (after.map (·.id)).Nodup) :
    ((pairSymbols before after).filterMap (·.after)).Perm after := by
  have hswap := (perm_map_swap hbefore hafter).filterMap (·.before)
  rw [List.filterMap_map] at hswap
  exact hswap.symm.trans (filterMap_before_perm hafter hbefore)

theorem occupied_of_mem {pair : SymbolPair} (hmem : pair ∈ pairSymbols before after) :
    pair.before ≠ none ∨ pair.after ≠ none := by
  obtain ⟨found, left, right, -, hperm⟩ := pairSymbols_perm before after
  rcases List.mem_append.mp (hperm.mem_iff.mp hmem) with hpaired | hremains
  · rcases List.mem_append.mp hpaired with hsame | hfound
    · obtain ⟨id, -, hpair⟩ := List.mem_filterMap.mp hsame
      split at hpair
      · exact .inl (Option.some.inj hpair ▸ Option.some_ne_none _)
      · cases hpair
    · obtain ⟨symbols, -, rfl⟩ := List.mem_map.mp hfound
      exact .inl (Option.some_ne_none _)
  · simp only [remainder, List.mem_append, List.mem_map] at hremains
    rcases hremains with ((⟨item, -, rfl⟩ | ⟨item, -, rfl⟩) | ⟨item, -, rfl⟩) | ⟨item, -, rfl⟩ <;>
      simp [ambiguousPair, removedPair, addedPair]

theorem pairwise_ne_of_nodup {pairs : List SymbolPair} {side : SymbolPair → Option SymbolEntity}
    (h : (pairs.filterMap side).Nodup) :
    pairs.Pairwise fun pair other => ∀ item, side pair = some item → side other ≠ some item := by
  induction pairs with
  | nil => exact .nil
  | cons pair pairs ih =>
    cases hside : side pair with
    | none =>
      rw [List.filterMap_cons_none hside] at h
      exact .cons (fun other _ item hitem => absurd (hside.symm.trans hitem) nofun) (ih h)
    | some item =>
      rw [List.filterMap_cons_some hside, List.nodup_cons] at h
      refine .cons (fun other hother found hfound hsame => h.1 ?_) (ih h.2)
      rw [Option.some.inj (hside.symm.trans hfound)]
      exact List.mem_filterMap.mpr ⟨other, hother, hsame⟩

/-- The pairs share out the symbols of both sides. -/
structure Partitions (before after : List SymbolEntity) (pairs : List SymbolPair) : Prop where
  occupied : ∀ pair ∈ pairs, pair.before ≠ none ∨ pair.after ≠ none
  before : (pairs.filterMap (·.before)).Perm before
  after : (pairs.filterMap (·.after)).Perm after
  apart : pairs.Pairwise fun pair other =>
    (∀ item, pair.before = some item → other.before ≠ some item) ∧
      ∀ item, pair.after = some item → other.after ≠ some item

def packageSymbol (id : LogicalId) (symbol signature : String) : SymbolEntity :=
  { id, locator := { package := some "core", moduleName := none, file := none, symbol
                     signature := some signature } }

end Partition

inductive ChangeKind where
  | added
  | removed
  | modified
  | moved
  | renamed
  | identityAmbiguous
  deriving DecidableEq

structure DerivedChange where
  id : String
  entityId : LogicalId
  entityKind : String
  path : String
  changeKind : ChangeKind
  before : Option SymbolEntity
  after : Option SymbolEntity
  summary : String
  deriving DecidableEq

structure ChangeIdentity where
  entityId : LogicalId
  entityKind : String
  before : Option SymbolEntity
  after : Option SymbolEntity
  changeKind : ChangeKind
  path : String

section Changes

variable (stableId : String → ChangeIdentity → String)

def makeDerivedChange (entityId : LogicalId) (entityKind : String) (before after : Option SymbolEntity)
    (changeKind : ChangeKind) (path summary : String) : DerivedChange :=
  { id := stableId "change" { entityId, entityKind, before, after, changeKind, path }
    entityId, entityKind, path, changeKind, before, after, summary }

def existenceChange (pair : SymbolPair) : Option DerivedChange :=
  match (pair.after.or pair.before).map (·.id) with
  | none => none
  | some id =>
      if pair.before = none ∨ pair.after = none then
        some (makeDerivedChange stableId id "symbol" pair.before pair.after
          (if pair.identityStatus = .added then .added else .removed) "$entity"
          ("Symbol was " ++ pair.identityStatus.text ++ "."))
      else none

variable {stableId} {before after left right : List SymbolEntity} {pair : SymbolPair}

def Truthful (stableId : String → ChangeIdentity → String) (pair : SymbolPair) : Prop :=
  ∀ change, existenceChange stableId pair = some change →
    (change.changeKind = .added ↔ pair.before = none) ∧
      (change.changeKind = .removed ↔ pair.after = none)

theorem truthful_of_both (hbefore : pair.before ≠ none) (hafter : pair.after ≠ none) :
    Truthful stableId pair := by
  intro change hchange
  simp only [existenceChange, hbefore, hafter, or_self, if_false] at hchange
  cases hid : (pair.after.or pair.before).map (·.id) <;> simp [hid] at hchange

variable {candidates : Option (List SymbolEntity)} {status : IdentityStatus} {item : SymbolEntity}

/-- The change on a symbol of the base snapshot only. -/
theorem truthful_before (hstatus : status ≠ .added) :
    Truthful stableId { before := some item, after := none, identityStatus := status
                        ambiguousCandidates := candidates } := by
  intro change hchange
  have hkind : change.changeKind = .removed := by
    rw [← Option.some.inj hchange]
    exact if_neg hstatus
  simp [hkind]

/-- The change on a symbol of the head snapshot only. -/
theorem truthful_after_iff :
    Truthful stableId { before := none, after := some item, identityStatus := status
                        ambiguousCandidates := candidates } ↔ status = .added := by
  constructor
  · intro htruthful
    by_contra hstatus
    have hadded := (htruthful _ rfl).1.mpr rfl
    have hremoved : (if status = .added then ChangeKind.added else .removed) = .removed :=
      if_neg hstatus
    exact absurd (hremoved.symm.trans hadded) (by decide)
  · rintro rfl change hchange
    have hkind : change.changeKind = .added := by
      rw [← Option.some.inj hchange]
      rfl
    simp [hkind]

/-- What the passes leave of both sides. -/
def Leftover (before after left right : List SymbolEntity) : Prop :=
  ∃ found, Passes (·.id) passKeys (startSymbols before after) (startSymbols after before) found
    left right

/-- Of what the passes leave, only the ambiguous symbols of the head snapshot are not called what
they are. -/
theorem truthful_remainder_iff :
    (∀ pair ∈ remainder left right, Truthful stableId pair) ↔ ∀ item ∈ right, ¬ Ambiguous left item := by
  constructor
  · intro htruthful item hitem hambiguous
    have hmem : ambiguousPair left none (some item) item ∈ remainder left right := by
      simp only [remainder, List.mem_append, List.mem_map, List.mem_filter, decide_eq_true_eq]
      exact .inl (.inl (.inl ⟨item, ⟨hitem, hambiguous⟩, rfl⟩))
    exact absurd (truthful_after_iff.mp (htruthful _ hmem)) (by decide)
  · intro hclear pair hmem
    simp only [remainder, List.mem_append, List.mem_map, List.mem_filter, decide_eq_true_eq] at hmem
    rcases hmem with ((⟨item, hitem, rfl⟩ | ⟨item, -, rfl⟩) | ⟨item, -, rfl⟩) | ⟨item, -, rfl⟩
    · exact absurd hitem.2 (hclear item hitem.1)
    · exact truthful_before (by decide)
    · exact truthful_before (by decide)
    · exact truthful_after_iff.mpr rfl

/-- The changes on the existence of symbols are truthful exactly if no symbol of the head snapshot
remains that resembles several symbols of the base snapshot that remain. -/
theorem existence_changes_truthful_iff (stableId : String → ChangeIdentity → String)
    (before after : List SymbolEntity) :
    (∀ pair ∈ pairSymbols before after, Truthful stableId pair) ↔
      ∀ left right, Leftover before after left right → ∀ item ∈ right, ¬ Ambiguous left item := by
  obtain ⟨found, left, right, hpasses, hperm⟩ := pairSymbols_perm before after
  have hleftover : (∀ left' right', Leftover before after left' right' →
      ∀ item ∈ right', ¬ Ambiguous left' item) ↔ ∀ item ∈ right, ¬ Ambiguous left item := by
    constructor
    · exact fun hclear => hclear left right ⟨found, hpasses⟩
    · rintro hclear left' right' ⟨found', hpasses'⟩
      obtain ⟨-, rfl, rfl⟩ := hpasses.functional hpasses'
      exact hclear
  rw [hleftover, ← @truthful_remainder_iff stableId]
  constructor
  · exact fun htruthful pair hmem => htruthful pair (hperm.mem_iff.mpr (List.mem_append_right _ hmem))
  · intro htruthful pair hmem
    rcases List.mem_append.mp (hperm.mem_iff.mp hmem) with hpaired | hremains
    · rcases List.mem_append.mp hpaired with hsame | hfound
      · rw [sameIdPairs_eq] at hsame
        obtain ⟨symbols, -, rfl⟩ := List.mem_map.mp hsame
        exact truthful_of_both (Option.some_ne_none _) (Option.some_ne_none _)
      · obtain ⟨symbols, -, rfl⟩ := List.mem_map.mp hfound
        exact truthful_of_both (Option.some_ne_none _) (Option.some_ne_none _)
    · exact htruthful pair hremains

/-- A new overload of a symbol of which two overloads go is called removed. -/
theorem overload_called_removed : ¬ ∀ pair ∈ pairSymbols
    [packageSymbol "a" "twin" "(x)", packageSymbol "b" "twin" "(y)"]
    [packageSymbol "c" "twin" "(z)"], Truthful (fun _ _ => "change") pair := by
  intro htruthful
  have hpair : ambiguousPair [packageSymbol "a" "twin" "(x)", packageSymbol "b" "twin" "(y)"] none
      (some (packageSymbol "c" "twin" "(z)")) (packageSymbol "c" "twin" "(z)") ∈ pairSymbols
      [packageSymbol "a" "twin" "(x)", packageSymbol "b" "twin" "(y)"]
      [packageSymbol "c" "twin" "(z)"] := by
    decide
  exact absurd (truthful_after_iff.mp (htruthful _ hpair)) (by decide)

end Changes

end Mottainai.SemanticDiff
