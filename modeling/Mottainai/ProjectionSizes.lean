import Mottainai.ResponseBudget
import Mottainai.FittingSizes

/-!
# Budgets of semantic projections

A projection is a record with the base, the fields of its groups, the omissions and a report of its
own size, which is printed again until it is the size of the text. All but two numbers is the same
in every attempt, so that they settle long before the last one, and the report is exact. A property
without a value is not printed.
-/

namespace Mottainai.SemanticProjections

open JsonValues ContextRuntime

section Records

/-- The properties of an object, in their order; a value may be `undefined`. -/
abbrev Record : Type := List (String × Option JsonValue)

/-- `record[key] = value`. The name of the prototype only names a property that is there. -/
def put (record : Record) (key : String) (value : Option JsonValue) : Record :=
  if record.any fun p => p.1 = key then record.map fun p => if p.1 = key then (key, value) else p
  else if key = "__proto__" then record
  else match arrayIndex key with
    | none => record ++ [(key, value)]
    | some n =>
        let smaller := fun p : String × Option JsonValue => (arrayIndex p.1).any (· < n)
        record.takeWhile smaller ++ (key, value) :: record.dropWhile smaller

def defined (record : Record) : Properties := record.filterMap fun p => p.2.map fun value => (p.1, value)

def recordBytes (record : Record) : ℕ := bytes (.object (defined record))

end Records

section Types

inductive SemanticProjectionPriority where
  | required | semantic | navigation | evidence | verbose
  deriving DecidableEq

def SemanticProjectionPriority.text : SemanticProjectionPriority → String
  | .required => "required"
  | .semantic => "semantic"
  | .navigation => "navigation"
  | .evidence => "evidence"
  | .verbose => "verbose"

structure ProjectionOmission where
  field : String
  reason : String
  count : Option ℕ
  priority : SemanticProjectionPriority
  expansion : Option JsonValue

def ProjectionOmission.json (omission : ProjectionOmission) : JsonValue :=
  .object ([("field", .string omission.field), ("reason", .string omission.reason)] ++
    optionalProperty "count" (omission.count.map fun count => .number (toString count)) ++
    [("priority", .string omission.priority.text)] ++
    optionalProperty "expansion" omission.expansion)

structure ProjectionBudgetMetadata where
  softTokens : ℤ
  hardTokens : ℤ
  hardBytes : ℤ
  projectedBytes : ℕ
  projectedTokens : ℕ
  truncated : Bool

def ProjectionBudgetMetadata.json (budget : ProjectionBudgetMetadata) : JsonValue :=
  .object [("softTokens", .number (toString budget.softTokens)),
    ("hardTokens", .number (toString budget.hardTokens)),
    ("hardBytes", .number (toString budget.hardBytes)),
    ("projectedBytes", .number (toString budget.projectedBytes)),
    ("projectedTokens", .number (toString budget.projectedTokens)),
    ("truncated", .boolean budget.truncated)]

structure ProjectionFieldGroup where
  field : String
  value : Option JsonValue
  priority : SemanticProjectionPriority
  emptyValue : Option JsonValue
  omissionReason : String
  count : Option ℕ

structure ProjectionBase where
  record : Record
  keys : (record.map Prod.fst).Nodup

structure Materialized where
  value : Record
  budget : ProjectionBudgetMetadata

end Types

section Materializing

def fieldValue (selected : List String) (group : ProjectionFieldGroup) : Option JsonValue :=
  if selected.contains group.field then group.value else group.emptyValue

def materialize (base : Record) (groups : List ProjectionFieldGroup) (selected : List String)
    (omissions : List ProjectionOmission) (budget : ProjectionBudgetMetadata) : Record :=
  let result := groups.foldl (fun result group => put result group.field (fieldValue selected group)) base
  put (put result "omissions" (some (.array (omissions.map ProjectionOmission.json)))) "budget"
    (some budget.json)

/-- `Math.ceil(bytes / 4)`. -/
def tokensOf (bytes : ℕ) : ℕ := (bytes + 3) / 4

def budgetMetadata (resolved : ProjectionBudget) (value : Record) (truncated : Bool) :
    ProjectionBudgetMetadata :=
  let projectedBytesValue := recordBytes value
  { softTokens := resolved.softTokens
    hardTokens := resolved.hardTokens
    hardBytes := resolved.hardBytes
    projectedBytes := projectedBytesValue
    projectedTokens := tokensOf projectedBytesValue
    truncated := truncated }

/-- The loop of `materializeWithBudget`, with the attempts that are left. -/
def settledWithBudget (base : Record) (groups : List ProjectionFieldGroup) (selected : List String)
    (omissions : List ProjectionOmission) (resolved : ProjectionBudget) (truncated : Bool) :
    ℕ → Record → Except Record Materialized
  | 0, value => .error value
  | attempts + 1, value =>
      let nextMetadata := budgetMetadata resolved value truncated
      let nextValue := materialize base groups selected omissions nextMetadata
      if nextMetadata.projectedBytes = recordBytes nextValue ∧
          nextMetadata.projectedTokens = tokensOf nextMetadata.projectedBytes then
        .ok { value := nextValue, budget := nextMetadata }
      else settledWithBudget base groups selected omissions resolved truncated attempts nextValue

def initialMetadata (resolved : ProjectionBudget) (truncated : Bool) : ProjectionBudgetMetadata :=
  { softTokens := resolved.softTokens
    hardTokens := resolved.hardTokens
    hardBytes := resolved.hardBytes
    projectedBytes := 0
    projectedTokens := 0
    truncated := truncated }

def budgetAttempts : ℕ := 32

def materializeWithBudget (base : Record) (groups : List ProjectionFieldGroup) (selected : List String)
    (omissions : List ProjectionOmission) (resolved : ProjectionBudget) (truncated : Bool) :
    Materialized :=
  let value := materialize base groups selected omissions (initialMetadata resolved truncated)
  match settledWithBudget base groups selected omissions resolved truncated budgetAttempts value with
  | .ok settled => settled
  | .error value =>
      let finalMetadata := budgetMetadata resolved value truncated
      let finalValue := materialize base groups selected omissions finalMetadata
      { value := finalValue, budget := budgetMetadata resolved finalValue truncated }

end Materializing

open SelfReportedSizes

section Records

variable {record : Record} {key : String}

theorem keys_put_of_mem (h : (record.any fun p => p.1 = key) = true) (value : Option JsonValue) :
    (put record key value).map Prod.fst = record.map Prod.fst := by
  rw [put, if_pos h, List.map_map]
  refine List.map_congr_left fun p _ => ?_
  by_cases hkey : p.1 = key <;> simp [hkey]

/-- A new property is put at one place, whatever its value. -/
theorem put_of_none (h : ¬ (record.any fun p => p.1 = key) = true) (hkey : key ≠ "__proto__") :
    ∃ before after, record = before ++ after ∧
      ∀ value, put record key value = before ++ (key, value) :: after := by
  cases hindex : arrayIndex key with
  | none =>
    refine ⟨record, [], (List.append_nil _).symm, fun value => ?_⟩
    rw [put, if_neg h, if_neg hkey, hindex]
  | some n =>
    have hsplit := List.takeWhile_append_dropWhile
      (p := fun p : String × Option JsonValue => (arrayIndex p.1).any (· < n)) (l := record)
    refine ⟨_, _, hsplit.symm, fun value => ?_⟩
    rw [put, if_neg h, if_neg hkey, hindex]

theorem nodup_put (h : (record.map Prod.fst).Nodup) (value : Option JsonValue) :
    ((put record key value).map Prod.fst).Nodup := by
  by_cases hany : (record.any fun p => p.1 = key) = true
  · rwa [keys_put_of_mem hany]
  · by_cases hkey : key = "__proto__"
    · rwa [put, if_neg hany, if_pos hkey]
    · obtain ⟨before, after, rfl, hput⟩ := put_of_none hany hkey
      rw [hput, List.map_append, List.map_cons, List.nodup_middle, ← List.map_append, List.nodup_cons]
      refine ⟨fun hmem => ?_, h⟩
      obtain ⟨p, hp, hpkey⟩ := List.mem_map.1 hmem
      exact hany (List.any_eq_true.2 ⟨p, hp, by simpa using hpkey⟩)

theorem put_split (h : (record.map Prod.fst).Nodup) (hkey : key ≠ "__proto__") :
    ∃ before after, (∀ p ∈ before, p.1 ≠ key) ∧
      ∀ value, put record key value = before ++ (key, value) :: after := by
  by_cases hany : (record.any fun p => p.1 = key) = true
  · obtain ⟨p, hp, hpkey⟩ := List.any_eq_true.1 hany
    have hpkey : p.1 = key := by simpa using hpkey
    obtain ⟨before, after, rfl⟩ := List.append_of_mem hp
    rw [List.map_append, List.map_cons, List.nodup_middle, List.nodup_cons, ← List.map_append] at h
    have hother : ∀ q ∈ before ++ after, q.1 ≠ key := by
      intro q hq hqkey
      exact h.1 (List.mem_map.2 ⟨q, hq, hqkey.trans hpkey.symm⟩)
    have hsame : ∀ (part : Record) value, (∀ q ∈ part, q ∈ before ++ after) →
        part.map (fun q => if q.1 = key then (key, value) else q) = part := by
      intro part value hpart
      rw [List.map_congr_left fun q hq => if_neg (hother q (hpart q hq)), List.map_id']
    refine ⟨before, after, fun q hq => hother q (List.mem_append_left _ hq), fun value => ?_⟩
    rw [put, if_pos hany, List.map_append, List.map_cons, if_pos hpkey,
      hsame before value fun q hq => List.mem_append_left _ hq,
      hsame after value fun q hq => List.mem_append_right _ hq]
  · obtain ⟨before, after, rfl, hput⟩ := put_of_none hany hkey
    refine ⟨before, after, fun q hq hqkey => hany (List.any_eq_true.2 ?_), hput⟩
    exact ⟨q, List.mem_append_left _ hq, by simpa using hqkey⟩

theorem defined_append (left right : Record) : defined (left ++ right) = defined left ++ defined right :=
  List.filterMap_append

theorem defined_cons_some (key : String) (value : JsonValue) (record : Record) :
    defined ((key, some value) :: record) = (key, value) :: defined record := rfl

end Records

section Reports

theorem utf8Size_digit {c : Char} (h : c.isDigit = true) : c.utf8Size = 1 := by
  rw [Char.isDigit, Bool.and_eq_true, decide_eq_true_eq, decide_eq_true_eq] at h
  rw [Char.utf8Size, if_pos]
  exact UInt32.le_trans h.2 (by decide)

theorem bytes_toString (n : ℕ) : bytes (.number (toString n)) = digits n := by
  have hdigits : ∀ c ∈ Nat.toDigits 10 n, c.utf8Size = 1 := fun c hc =>
    utf8Size_digit (Nat.isDigit_of_mem_toDigits (by decide) (by decide) hc)
  rw [bytes, stringify, Nat.toString_eq_ofList_toDigits, byteLength_ofList, List.map_congr_left hdigits,
    List.map_const', List.sum_replicate_nat, Nat.mul_one, digits]

variable {base : Record} {groups : List ProjectionFieldGroup} {selected : List String}
  {omissions : List ProjectionOmission} {resolved : ProjectionBudget} {truncated : Bool}

def reportOf (resolved : ProjectionBudget) (truncated : Bool) (n : ℕ) : ProjectionBudgetMetadata :=
  { softTokens := resolved.softTokens
    hardTokens := resolved.hardTokens
    hardBytes := resolved.hardBytes
    projectedBytes := n
    projectedTokens := tokensOf n
    truncated := truncated }

def reportRest (resolved : ProjectionBudget) (truncated : Bool) : ℕ :=
  propertiesBytes [("softTokens", .number (toString resolved.softTokens)),
    ("hardTokens", .number (toString resolved.hardTokens)),
    ("hardBytes", .number (toString resolved.hardBytes)), ("projectedBytes", .number ""),
    ("projectedTokens", .number ""), ("truncated", .boolean truncated)]

theorem bytes_reportOf (n : ℕ) : bytes (reportOf resolved truncated n).json =
    reportRest resolved truncated + digits n + digits (tokensOf n) + 1 := by
  have hempty : bytes (.number "") = 0 := rfl
  rw [ProjectionBudgetMetadata.json, bytes_object, reportRest]
  simp only [propertiesBytes, List.map_cons, List.map_nil, List.sum_cons, List.sum_nil, entryBytes,
    reportOf, bytes_toString, hempty]
  omega

theorem nodup_fields (h : (base.map Prod.fst).Nodup) :
    ((groups.foldl (fun result group => put result group.field (fieldValue selected group)) base).map
      Prod.fst).Nodup := by
  induction groups generalizing base with
  | nil => exact h
  | cons group groups ih => exact ih (nodup_put h _)

/-- The report stands at one place, whatever it reports. -/
theorem materialize_split (h : (base.map Prod.fst).Nodup) : ∃ before after,
    (∀ p ∈ before, p.1 ≠ "budget") ∧ ∀ budget, materialize base groups selected omissions budget =
      before ++ ("budget", some budget.json) :: after := by
  have hfields := @nodup_fields base groups selected h
  obtain ⟨before, after, hbefore, hput⟩ := @put_split _ "budget"
    (@nodup_put _ "omissions" hfields (some (.array (omissions.map ProjectionOmission.json))))
    (by decide)
  exact ⟨before, after, hbefore, fun budget => hput _⟩

theorem recordBytes_materialize (h : (base.map Prod.fst).Nodup) : ∃ rest, ∀ n,
    recordBytes (materialize base groups selected omissions (reportOf resolved truncated n)) =
      reportedSize rest n := by
  obtain ⟨before, after, -, hsplit⟩ := @materialize_split base groups selected omissions h
  refine ⟨propertiesBytes (defined before) + propertiesBytes (defined after) +
    byteLength (quote "budget") + reportRest resolved truncated + 4, fun n => ?_⟩
  rw [hsplit, recordBytes, defined_append, defined_cons_some, bytes_object, propertiesBytes_append]
  simp only [propertiesBytes, List.map_cons, List.sum_cons, entryBytes, bytes_reportOf, reportedSize,
    tokensOf]
  omega

/-- What `budget` reads from a projection. -/
theorem property_materialize (h : (base.map Prod.fst).Nodup) (budget : ProjectionBudgetMetadata) :
    property (defined (materialize base groups selected omissions budget)) "budget" = some budget.json := by
  obtain ⟨before, after, hbefore, hsplit⟩ := @materialize_split base groups selected omissions h
  have hnone : ∀ p ∈ defined before, ¬ (decide (p.1 = "budget")) = true := by
    intro p hp
    obtain ⟨q, hq, hqp⟩ := List.mem_filterMap.1 hp
    obtain ⟨value, -, rfl⟩ := Option.map_eq_some_iff.1 hqp
    simpa using hbefore q hq
  rw [hsplit, defined_append, defined_cons_some, property, List.find?_append,
    List.find?_eq_none.2 hnone, Option.none_or, List.find?_cons_of_pos (by simp)]
  rfl

end Reports

section Settling

variable {base : Record} {groups : List ProjectionFieldGroup} {selected : List String}
  {omissions : List ProjectionOmission} {resolved : ProjectionBudget} {truncated : Bool}

/-- A projection whose report is exact. -/
structure ReportsSize (result : Materialized) : Prop where
  report : property (defined result.value) "budget" = some result.budget.json
  projectedBytes : result.budget.projectedBytes = recordBytes result.value
  projectedTokens : result.budget.projectedTokens = tokensOf (recordBytes result.value)

theorem budgetMetadata_materialize {rest : ℕ}
    (hrest : ∀ n, recordBytes (materialize base groups selected omissions
      (reportOf resolved truncated n)) = reportedSize rest n) (n : ℕ) :
    budgetMetadata resolved (materialize base groups selected omissions (reportOf resolved truncated n))
      truncated = reportOf resolved truncated (reportedSize rest n) := by
  have hsize := hrest n
  rw [reportOf] at hsize
  simp only [budgetMetadata, reportOf, hsize]

theorem settledWithBudget_ok (h : (base.map Prod.fst).Nodup) {rest : ℕ}
    (hrest : ∀ n, recordBytes (materialize base groups selected omissions
      (reportOf resolved truncated n)) = reportedSize rest n) {attempts m n : ℕ} (hm : m < attempts)
    (hfixed : reportedSize rest ((reportedSize rest)^[m + 1] n) = (reportedSize rest)^[m + 1] n) :
    ∃ result, settledWithBudget base groups selected omissions resolved truncated attempts
      (materialize base groups selected omissions (reportOf resolved truncated n)) = .ok result ∧
      ReportsSize result := by
  induction attempts generalizing m n with
  | zero => exact absurd hm (Nat.not_lt_zero m)
  | succ attempts ih =>
    have hnext := budgetMetadata_materialize hrest n
    rw [settledWithBudget]
    simp only [hnext]
    split_ifs with hstop
    · have hbytes := hstop.1
      refine ⟨_, rfl, property_materialize h _, hbytes, ?_⟩
      rw [← hbytes]
      rfl
    · cases m with
      | zero =>
        refine absurd ⟨?_, rfl⟩ hstop
        rw [hrest]
        exact hfixed.symm
      | succ m =>
        rw [Function.iterate_succ_apply] at hfixed
        exact ih (by omega) hfixed

/-- The attempts are enough, and the report that they find is the size of the projection. -/
theorem materializeWithBudget_reports_size (base : ProjectionBase) (groups : List ProjectionFieldGroup)
    (selected : List String) (omissions : List ProjectionOmission) (resolved : ProjectionBudget)
    (truncated : Bool) :
    settledWithBudget base.record groups selected omissions resolved truncated budgetAttempts
        (materialize base.record groups selected omissions (initialMetadata resolved truncated)) =
      .ok (materializeWithBudget base.record groups selected omissions resolved truncated) ∧
    ReportsSize (materializeWithBudget base.record groups selected omissions resolved truncated) := by
  obtain ⟨rest, hrest⟩ :=
    @recordBytes_materialize base.record groups selected omissions resolved truncated base.keys
  obtain ⟨m, hm, hfixed⟩ := exists_fixed_reportedSize rest
  have hfixed' : reportedSize rest ((reportedSize rest)^[m + 1] 0) = (reportedSize rest)^[m + 1] 0 := by
    rw [Function.iterate_succ_apply', hfixed, hfixed]
  have hattempts : m < budgetAttempts := by
    rw [budgetAttempts]
    omega
  obtain ⟨result, hresult, hreports⟩ := settledWithBudget_ok base.keys hrest hattempts hfixed'
  have hinitial : initialMetadata resolved truncated = reportOf resolved truncated 0 := rfl
  rw [← hinitial] at hresult
  have hsettled : materializeWithBudget base.record groups selected omissions resolved truncated = result := by
    simp only [materializeWithBudget, hresult]
  rw [hsettled]
  exact ⟨hresult, hreports⟩

end Settling

end Mottainai.SemanticProjections
