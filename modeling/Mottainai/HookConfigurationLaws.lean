import Mottainai.JsonValues

/-!
# Hook configurations of clients

The configuration of a client has events, each with groups, and each group with handlers. A handler
with the marker is managed. An upsert leaves a healthy managed entry, is idempotent and is undone by
a removal. What is not managed stays as it is, whatever its form, and a removal changes a document
without a managed entry exactly if a container of it was empty before.
-/

namespace Mottainai.HookConfigurations

open JsonValues

section Documents

/-- `MOTTainAI_HOOK_MARKER`. -/
def hookMarker : String := "mottainai-managed-hook-v1"

/-- `ManagedHookDescriptor`. The timeout is the number as it is printed. -/
structure ManagedHookDescriptor where
  marker : String
  eventName : String
  matcher : String
  command : String
  timeout : Option String

def asRecord : JsonValue → Option Properties
  | .object properties => some properties
  | _ => none

/-- A group that the client defines in another form is not looked into. -/
def supportsGroup : JsonValue → Bool
  | .object group =>
      match property group "hooks" with
      | none => true
      | some (.array _) => true
      | some _ => false
  | _ => true

def supportsGroups : JsonValue → Bool
  | .array groups => groups.all supportsGroup
  | _ => false

def supportsHookDocument : JsonValue → Bool
  | .object document =>
      match property document "hooks" with
      | none => true
      | some (.object hooks) => hooks.all fun event => supportsGroups event.2
      | some _ => false
  | _ => false

def hookValues : Option JsonValue → List JsonValue
  | some (.array values) => values
  | _ => []

def hookObjects (value : Option JsonValue) : List Properties :=
  (hookValues value).filterMap asRecord

/-- Whether a record has the marker. -/
def hasMarker (hook : Properties) : Bool :=
  text? (property hook "statusMessage") = some hookMarker

/-- Whether `markerHook` returns a handler. -/
def markerHook (value : JsonValue) : Bool := (asRecord value).any hasMarker

def groupHasMarker (group : Properties) : Bool :=
  (hookObjects (property group "hooks")).any hasMarker

def hookMatches (descriptor : ManagedHookDescriptor) (hook : Properties) : Bool :=
  text? (property hook "type") = some "command" &&
    text? (property hook "statusMessage") = some descriptor.marker &&
    text? (property hook "command") = some descriptor.command &&
    match descriptor.timeout with
    | none => true
    | some timeout =>
        match property hook "timeout" with
        | some (.number literal) => literal = timeout
        | _ => false

/-- The events of a document. -/
def eventsOf (root : Properties) : Properties :=
  match property root "hooks" with
  | some (.object hooks) => hooks
  | _ => []

/-- The groups with a managed handler, each with the name of its event. -/
def allManagedGroups (root : Properties) : List (String × Properties) :=
  (eventsOf root).flatMap fun event =>
    ((hookObjects (some event.2)).filter groupHasMarker).map fun group => (event.1, group)

inductive ManagedEntryHealth where
  | missing | healthy | drifted | unsupported
  deriving DecidableEq

def managedEntryHealth (root : Properties) (descriptor : ManagedHookDescriptor) :
    ManagedEntryHealth :=
  let groups := allManagedGroups root
  if groups.isEmpty then .missing
  else match groups.find? fun group => group.1 = descriptor.eventName with
    | none => .drifted
    | some expected =>
        let managed := (hookObjects (property expected.2 "hooks")).filter hasMarker
        if groups.length = 1 ∧ managed.length = 1 ∧
            managed.all (hookMatches descriptor) = true ∧
            text? (property expected.2 "matcher") = some descriptor.matcher then .healthy
        else .drifted

/-- A document that is accepted. No object has a key twice. -/
structure HookDocument where
  root : Properties
  keys : (root.map Prod.fst).Nodup
  eventKeys : ((eventsOf root).map Prod.fst).Nodup
  supported : supportsHookDocument (.object root) = true

end Documents

section Editing

/-- A group without its managed handlers. It goes with the last of them. -/
def keptGroup (group : JsonValue) : Option JsonValue :=
  match group with
  | .object fields =>
      let childHooks := hookValues (property fields "hooks")
      if childHooks.any markerHook then
        let remaining := childHooks.filter fun hook => !markerHook hook
        if remaining.isEmpty then none
        else some (.object (define fields "hooks" (.array remaining)))
      else some group
  | group => some group

/-- An event without its managed handlers. It goes if no group is left. -/
def keptEvent (event : String × JsonValue) : Option (String × JsonValue) :=
  match event.2 with
  | .array groups =>
      let nextGroups := groups.filterMap keptGroup
      if nextGroups.isEmpty then none else some (event.1, .array nextGroups)
  | _ => some event

/-- `delete object[key]`. -/
def erase (properties : Properties) (key : String) : Properties :=
  properties.filter fun entry => entry.1 ≠ key

def withoutManagedGroups (root : Properties) : Properties :=
  let hooks := (eventsOf root).filterMap keptEvent
  if hooks.isEmpty then erase root "hooks" else define root "hooks" (.object hooks)

/-- The group that an upsert adds. -/
def managedFields (descriptor : ManagedHookDescriptor) : Properties :=
  [("matcher", .string descriptor.matcher),
    ("hooks", .array [.object ([("type", .string "command"), ("command", .string descriptor.command),
      ("statusMessage", .string descriptor.marker)] ++
        optionalProperty "timeout" (descriptor.timeout.map .number))])]

def managedGroup (descriptor : ManagedHookDescriptor) : JsonValue :=
  .object (managedFields descriptor)

/-- `hooks[eventName] = groups`. The name of the prototype only names a property that is there. -/
def setEvent (hooks : Properties) (eventName : String) (groups : JsonValue) : Properties :=
  if eventName = "__proto__" ∧ (property hooks eventName).isNone then hooks
  else define hooks eventName groups

def upsertManagedEntry (root : Properties) (descriptor : ManagedHookDescriptor) : Properties :=
  let clean := withoutManagedGroups root
  let hooks := eventsOf clean
  let groups := hookValues (property hooks descriptor.eventName) ++ [managedGroup descriptor]
  define clean "hooks" (.object (setEvent hooks descriptor.eventName (.array groups)))

def removeManagedEntries (root : Properties) : Properties := withoutManagedGroups root

end Editing

variable {root hooks : Properties} {descriptor : ManagedHookDescriptor} {key : String}

section Properties

theorem property_eq_none : property hooks key = none ↔ ∀ entry ∈ hooks, entry.1 ≠ key := by
  simp [property]

variable (entry : String × JsonValue) (value : JsonValue)

theorem property_cons (hooks : Properties) :
    property (entry :: hooks) key = if entry.1 = key then some entry.2 else property hooks key := by
  by_cases h : entry.1 = key <;> simp [property, h]

theorem erase_cons (hooks : Properties) :
    erase (entry :: hooks) key = if entry.1 = key then erase hooks key else entry :: erase hooks key := by
  by_cases h : entry.1 = key <;> simp [erase, h]

theorem erase_of_property_eq_none (h : property hooks key = none) : erase hooks key = hooks := by
  rw [property_eq_none] at h
  exact List.filter_eq_self.2 fun entry hentry => by simpa using h entry hentry

theorem property_erase : property (erase hooks key) key = none := by
  rw [property_eq_none]
  intro entry hentry
  simpa using (List.mem_filter.1 hentry).2

theorem any_key_iff : (hooks.any fun entry => entry.1 = key) = true ↔ property hooks key ≠ none := by
  rw [Ne, property_eq_none, List.any_eq_true]
  push Not
  simp

theorem define_of_some (h : property hooks key ≠ none) (value : JsonValue) :
    define hooks key value = hooks.map fun entry => if entry.1 = key then (key, value) else entry := by
  rw [define, if_pos (any_key_iff.2 h)]

/-- A new property is put at one place, with whatever value. -/
theorem define_of_none (h : property hooks key = none) : ∃ before after, hooks = before ++ after ∧
    ∀ value, define hooks key value = before ++ (key, value) :: after := by
  have hany : ¬ (hooks.any fun entry => entry.1 = key) = true := fun hany => any_key_iff.1 hany h
  cases hindex : arrayIndex key with
  | none =>
    refine ⟨hooks, [], (List.append_nil _).symm, fun value => ?_⟩
    rw [define, if_neg hany, hindex]
  | some n =>
    have hsplit := List.takeWhile_append_dropWhile
      (p := fun entry : String × JsonValue => (arrayIndex entry.1).any (· < n)) (l := hooks)
    refine ⟨_, _, hsplit.symm, fun value => ?_⟩
    rw [define, if_neg hany, hindex]

theorem map_at_other {part : Properties} (h : ∀ entry ∈ part, entry.1 ≠ key) (value : JsonValue) :
    part.map (fun entry => if entry.1 = key then (key, value) else entry) = part := by
  have hmap : part.map (fun entry => if entry.1 = key then (key, value) else entry) = part.map id :=
    List.map_congr_left fun entry hentry => if_neg (h entry hentry)
  rw [hmap, List.map_id]

theorem property_append_of_none {before after : Properties} (h : property before key = none) :
    property (before ++ after) key = property after key := by
  rw [property_eq_none] at h
  have hfind : before.find? (fun entry => entry.1 = key) = none := by
    simpa using fun a b hab => h (a, b) hab
  rw [property, List.find?_append, hfind, Option.none_or]
  rfl

@[simp] theorem property_define : property (define hooks key value) key = some value := by
  by_cases h : property hooks key = none
  · obtain ⟨before, after, rfl, hdefine⟩ := define_of_none h
    have hbefore : property before key = none := by
      rw [property_eq_none] at h ⊢
      exact fun entry hentry => h entry (List.mem_append_left _ hentry)
    rw [hdefine, property_append_of_none hbefore, property_cons, if_pos rfl]
  · rw [define_of_some h]
    induction hooks with
    | nil => exact absurd rfl h
    | cons entry hooks ih =>
      rw [property_cons] at h
      rw [List.map_cons, property_cons]
      by_cases hkey : entry.1 = key
      · simp [hkey]
      · rw [if_neg hkey] at h
        simpa only [hkey, if_false] using ih h

@[simp] theorem erase_define : erase (define hooks key value) key = erase hooks key := by
  by_cases h : property hooks key = none
  · obtain ⟨before, after, rfl, hdefine⟩ := define_of_none h
    rw [hdefine]
    simp [erase]
  · rw [define_of_some h]
    clear h
    induction hooks with
    | nil => rfl
    | cons entry hooks ih =>
      rw [List.map_cons, erase_cons, erase_cons, ih]
      by_cases hkey : entry.1 = key <;> simp [hkey]

/-- The last value counts. -/
theorem define_define (value value' : JsonValue) :
    define (define hooks key value) key value' = define hooks key value' := by
  have hthere : property (define hooks key value) key ≠ none := by simp
  rw [define_of_some hthere]
  by_cases h : property hooks key = none
  · obtain ⟨before, after, rfl, hdefine⟩ := define_of_none h
    rw [property_eq_none] at h
    rw [hdefine, hdefine, List.map_append, List.map_cons, if_pos rfl,
      map_at_other fun entry hentry => h entry (List.mem_append_left _ hentry),
      map_at_other fun entry hentry => h entry (List.mem_append_right _ hentry)]
  · rw [define_of_some h, define_of_some h, List.map_map]
    refine List.map_congr_left fun entry _ => ?_
    by_cases hkey : entry.1 = key <;> simp [hkey]

/-- What is there is put there again. -/
theorem define_same (hnodup : (hooks.map Prod.fst).Nodup) {value : JsonValue}
    (h : property hooks key = some value) : define hooks key value = hooks := by
  rw [define_of_some (by simp [h])]
  induction hooks with
  | nil => rfl
  | cons entry hooks ih =>
    rw [List.map_cons, List.nodup_cons] at hnodup
    rw [property_cons] at h
    rw [List.map_cons]
    by_cases hkey : entry.1 = key
    · rw [if_pos hkey] at h ⊢
      cases h
      have hother : ∀ other ∈ hooks, other.1 ≠ key := fun other hmem heq =>
        hnodup.1 (List.mem_map.2 ⟨other, hmem, heq.trans hkey.symm⟩)
      rw [map_at_other hother, ← hkey]
    · rw [if_neg hkey] at h ⊢
      rw [ih hnodup.2 h]

theorem define_split (hnodup : (hooks.map Prod.fst).Nodup) (key : String) :
    ∃ before old after, hooks = before ++ old ++ after ∧
      (old = [] ∧ property hooks key = none ∨
        ∃ value, old = [(key, value)] ∧ property hooks key = some value) ∧
      ∀ value, define hooks key value = before ++ (key, value) :: after := by
  cases h : property hooks key with
  | none =>
    obtain ⟨before, after, heq, hdefine⟩ := define_of_none h
    exact ⟨before, [], after, by simpa using heq, .inl ⟨rfl, rfl⟩, hdefine⟩
  | some old =>
    have hmem : (key, old) ∈ hooks := by
      obtain ⟨entry, hfind, rfl⟩ := Option.map_eq_some_iff.1 h
      have hkey : entry.1 = key := by simpa using List.find?_some hfind
      rw [← hkey]
      exact List.mem_of_find?_eq_some hfind
    obtain ⟨before, after, heq⟩ := List.append_of_mem hmem
    refine ⟨before, [(key, old)], after, by simpa using heq, .inr ⟨old, rfl, rfl⟩, fun value => ?_⟩
    rw [define_of_some (by simp [h]), heq, List.map_append, List.map_cons, if_pos rfl]
    rw [heq, List.map_append, List.map_cons, List.nodup_append, List.nodup_cons] at hnodup
    obtain ⟨-, ⟨hafter, -⟩, hbefore⟩ := hnodup
    rw [map_at_other fun entry hentry hkey =>
        hbefore _ (List.mem_map_of_mem hentry) _ List.mem_cons_self hkey,
      map_at_other fun entry hentry hkey => hafter (List.mem_map.2 ⟨entry, hentry, hkey⟩)]

end Properties

section Foreign

def managedOnly : JsonValue → Bool
  | .object fields =>
      !(hookValues (property fields "hooks")).isEmpty &&
        (hookValues (property fields "hooks")).all markerHook
  | _ => false

def withoutHandlers : JsonValue → JsonValue
  | .object fields =>
      if (hookValues (property fields "hooks")).any markerHook then
        .object (define fields "hooks" (.array
          ((hookValues (property fields "hooks")).filter fun hook => !markerHook hook)))
      else .object fields
  | value => value

def foreignGroups (groups : List JsonValue) : List JsonValue :=
  (groups.filter fun group => !managedOnly group).map withoutHandlers

def foreignEvent (event : String × JsonValue) : Option (String × List JsonValue) :=
  let groups := hookValues (some event.2)
  if !groups.isEmpty && groups.all managedOnly then none else some (event.1, foreignGroups groups)

/-- Every field, event and entry that is not managed has its value and its place among the others. -/
structure Keeps (before after : Properties) : Prop where
  fields : erase after "hooks" = erase before "hooks"
  events : (eventsOf after).filterMap foreignEvent = (eventsOf before).filterMap foreignEvent

/-- A group without a managed handler is none of the managed groups. -/
theorem managedOnly_of_any {fields : Properties}
    (h : (hookValues (property fields "hooks")).any markerHook = false) :
    managedOnly (.object fields) = false := by
  cases hvalues : hookValues (property fields "hooks") with
  | nil => simp [managedOnly, hvalues]
  | cons hook hooks =>
    rw [hvalues, List.any_cons, Bool.or_eq_false_iff] at h
    simp [managedOnly, hvalues, h.1]

variable (fields : Properties) (group : JsonValue)

theorem keptGroup_eq :
    keptGroup group = if managedOnly group then none else some (withoutHandlers group) := by
  cases group with
  | object fields =>
    by_cases hany : (hookValues (property fields "hooks")).any markerHook = true
    · have hne : (hookValues (property fields "hooks")).isEmpty = false := by
        obtain ⟨hook, hmem, -⟩ := List.any_eq_true.1 hany
        cases hvalues : hookValues (property fields "hooks") with
        | nil => simp [hvalues] at hmem
        | cons _ _ => rfl
      have hempty : ((hookValues (property fields "hooks")).filter fun hook => !markerHook hook).isEmpty =
          (hookValues (property fields "hooks")).all markerHook := by
        rw [Bool.eq_iff_iff]
        simp
      simp only [keptGroup, managedOnly, withoutHandlers, hany, hne, hempty, if_true, Bool.not_false,
        Bool.true_and]
    · have hnone := managedOnly_of_any (by simpa using hany)
      simp [keptGroup, withoutHandlers, hany, hnone]
  | _ => rfl

theorem filterMap_keptGroup (groups : List JsonValue) :
    groups.filterMap keptGroup = foreignGroups groups := by
  induction groups with
  | nil => rfl
  | cons group groups ih =>
    rw [List.filterMap_cons, keptGroup_eq, ih]
    cases hmanaged : managedOnly group <;> simp [foreignGroups, hmanaged]

theorem keptEvent_array (name : String) (groups : List JsonValue) :
    keptEvent (name, .array groups) =
      if (foreignGroups groups).isEmpty then none else some (name, .array (foreignGroups groups)) := by
  simp only [keptEvent, filterMap_keptGroup]

variable {groups : List JsonValue}

theorem foreignGroups_eq_nil : foreignGroups groups = [] ↔ groups.all managedOnly = true := by
  simp [foreignGroups]

theorem any_markerHook (values : List JsonValue) :
    values.any markerHook = (values.filterMap asRecord).any hasMarker := by
  induction values with
  | nil => rfl
  | cons value values ih =>
    rw [List.any_cons, ih]
    cases value <;> rfl

theorem groupHasMarker_eq :
    groupHasMarker fields = (hookValues (property fields "hooks")).any markerHook :=
  (any_markerHook _).symm

def isManagedGroup (group : JsonValue) : Bool := (asRecord group).any groupHasMarker

theorem withoutHandlers_of_unmanaged {group : JsonValue} (h : isManagedGroup group = false) :
    managedOnly group = false ∧ withoutHandlers group = group := by
  cases group with
  | object fields =>
    have hany : (hookValues (property fields "hooks")).any markerHook = false := by
      rw [← groupHasMarker_eq]
      exact h
    exact ⟨managedOnly_of_any hany, by simp [withoutHandlers, hany]⟩
  | _ => exact ⟨rfl, rfl⟩

theorem isManagedGroup_object : isManagedGroup (.object fields) =
    (hookValues (property fields "hooks")).any markerHook := groupHasMarker_eq fields

theorem isManagedGroup_withoutHandlers : isManagedGroup (withoutHandlers group) = false := by
  cases group with
  | object fields =>
    by_cases hany : (hookValues (property fields "hooks")).any markerHook = true
    · rw [withoutHandlers, if_pos hany, isManagedGroup_object, property_define]
      simp [hookValues]
    · rw [withoutHandlers, if_neg hany, isManagedGroup_object]
      simpa using hany
  | _ => rfl

theorem isManagedGroup_foreignGroups (groups : List JsonValue) :
    ∀ group ∈ foreignGroups groups, isManagedGroup group = false := by
  intro group hgroup
  obtain ⟨group', -, rfl⟩ := List.mem_map.1 hgroup
  exact isManagedGroup_withoutHandlers group'

theorem foreignGroups_of_unmanaged (h : ∀ group ∈ groups, isManagedGroup group = false) :
    foreignGroups groups = groups := by
  induction groups with
  | nil => rfl
  | cons group groups ih =>
    obtain ⟨honly, hsame⟩ := withoutHandlers_of_unmanaged (h group List.mem_cons_self)
    have hrest := ih fun other hother => h other (List.mem_cons_of_mem _ hother)
    unfold foreignGroups at hrest ⊢
    simp [honly, hsame, hrest]

theorem foreignGroups_append (groups groups' : List JsonValue) :
    foreignGroups (groups ++ groups') = foreignGroups groups ++ foreignGroups groups' := by
  simp [foreignGroups]

end Foreign

section Removing

/-- An event with groups, none of which has a managed handler. -/
def Settled (event : String × JsonValue) : Prop :=
  ∃ groups, event.2 = .array groups ∧ groups ≠ [] ∧ ∀ group ∈ groups, isManagedGroup group = false

variable {event : String × JsonValue}

theorem Settled.keptEvent (h : Settled event) : keptEvent event = some event := by
  obtain ⟨name, value⟩ := event
  obtain ⟨groups, rfl, hne, hgroups⟩ := h
  rw [keptEvent_array, foreignGroups_of_unmanaged hgroups, if_neg (by simpa using hne)]

theorem Settled.foreignEvent (h : Settled event) :
    foreignEvent event = some (event.1, hookValues (some event.2)) := by
  obtain ⟨name, value⟩ := event
  obtain ⟨groups, rfl, hne, hgroups⟩ := h
  have hall : ¬ groups.all managedOnly = true := fun hall =>
    hne ((foreignGroups_of_unmanaged hgroups).symm.trans (foreignGroups_eq_nil.2 hall))
  simp [HookConfigurations.foreignEvent, hookValues, hall, foreignGroups_of_unmanaged hgroups]

def Listed (hooks : Properties) : Prop := ∀ event ∈ hooks, ∃ groups, event.2 = .array groups

theorem settled_of_keptEvent {event kept : String × JsonValue}
    (hlisted : ∃ groups, event.2 = .array groups) (h : keptEvent event = some kept) :
    Settled kept ∧ kept.1 = event.1 := by
  obtain ⟨name, value⟩ := event
  obtain ⟨groups, rfl⟩ := hlisted
  rw [keptEvent_array] at h
  split_ifs at h with hempty
  cases h
  exact ⟨⟨_, rfl, by simpa using hempty, isManagedGroup_foreignGroups groups⟩, rfl⟩

/-- What a removal leaves of the events. -/
def cleanEvents (hooks : Properties) : Properties := hooks.filterMap keptEvent

theorem settled_cleanEvents (hlisted : Listed hooks) : ∀ event ∈ cleanEvents hooks, Settled event := by
  intro event hevent
  obtain ⟨event', hmem, hkept⟩ := List.mem_filterMap.1 hevent
  exact (settled_of_keptEvent (hlisted event' hmem) hkept).1

theorem keys_cleanEvents (hlisted : Listed hooks) :
    ((cleanEvents hooks).map Prod.fst).Sublist (hooks.map Prod.fst) := by
  induction hooks with
  | nil => exact List.Sublist.refl _
  | cons event hooks ih =>
    have hrest := ih fun other hother => hlisted other (List.mem_cons_of_mem _ hother)
    rw [cleanEvents, List.filterMap_cons]
    cases hkept : keptEvent event with
    | none => exact hrest.cons _
    | some kept =>
      have hname := (settled_of_keptEvent (hlisted event List.mem_cons_self) hkept).2
      rw [List.map_cons, List.map_cons, hname]
      exact hrest.cons_cons _

theorem cleanEvents_of_settled (h : ∀ event ∈ hooks, Settled event) : cleanEvents hooks = hooks := by
  have hmap : hooks.filterMap keptEvent = hooks.filterMap some :=
    List.filterMap_congr fun event hevent => (h event hevent).keptEvent
  rw [cleanEvents, hmap, List.filterMap_some]

theorem withoutManagedGroups_eq (root : Properties) : withoutManagedGroups root =
    if (cleanEvents (eventsOf root)).isEmpty then erase root "hooks"
    else define root "hooks" (.object (cleanEvents (eventsOf root))) := rfl

theorem eventsOf_define (hooks : Properties) : eventsOf (define root "hooks" (.object hooks)) = hooks := by
  rw [eventsOf, property_define]

theorem eventsOf_erase : eventsOf (erase root "hooks") = [] := by
  rw [eventsOf, property_erase]

theorem eventsOf_withoutManagedGroups (root : Properties) :
    eventsOf (withoutManagedGroups root) = cleanEvents (eventsOf root) := by
  rw [withoutManagedGroups_eq]
  split
  · next hempty => rw [eventsOf_erase, List.isEmpty_iff.1 hempty]
  · exact eventsOf_define _

theorem erase_withoutManagedGroups (root : Properties) :
    erase (withoutManagedGroups root) "hooks" = erase root "hooks" := by
  rw [withoutManagedGroups_eq]
  split
  · exact erase_of_property_eq_none property_erase
  · exact erase_define _

end Removing

section Upserting

/-- Descriptors as the installation makes them: with the marker, and for the event before a tool is
used. -/
structure Managed (descriptor : ManagedHookDescriptor) : Prop where
  marker : descriptor.marker = hookMarker
  eventName : descriptor.eventName ≠ "__proto__"

section

variable (h : Managed descriptor)
include h

theorem setEvent_eq (hooks : Properties) (groups : JsonValue) :
    setEvent hooks descriptor.eventName groups = define hooks descriptor.eventName groups :=
  if_neg fun hboth => h.eventName hboth.1

theorem isManagedGroup_managedGroup : isManagedGroup (managedGroup descriptor) = true := by
  rw [managedGroup, isManagedGroup_object]
  simp [managedFields, property, hookValues, markerHook, asRecord, hasMarker, text?, h.marker]

theorem managedOnly_managedGroup : managedOnly (managedGroup descriptor) = true := by
  simp [managedGroup, managedFields, managedOnly, property, hookValues, markerHook, asRecord, hasMarker, text?,
    h.marker]

theorem foreignGroups_managedGroup : foreignGroups [managedGroup descriptor] = [] := by
  rw [foreignGroups_eq_nil]
  simp [managedOnly_managedGroup h]

/-- The events of an upsert: the managed group stands after the groups of its event. -/
theorem eventsOf_upsert (hlisted : Listed (eventsOf root))
    (hnodup : ((eventsOf root).map Prod.fst).Nodup) :
    ∃ before old after groups, cleanEvents (eventsOf root) = before ++ old ++ after ∧
      (old = [] ∧ groups = [] ∨ old = [(descriptor.eventName, .array groups)]) ∧
      eventsOf (upsertManagedEntry root descriptor) = before ++
        (descriptor.eventName, .array (groups ++ [managedGroup descriptor])) :: after := by
  have hclean : ((cleanEvents (eventsOf root)).map Prod.fst).Nodup :=
    hnodup.sublist (keys_cleanEvents hlisted)
  obtain ⟨before, old, after, heq, hold, hdefine⟩ := define_split hclean descriptor.eventName
  have hevents : ∀ groups, hookValues (property (cleanEvents (eventsOf root)) descriptor.eventName) =
      groups → eventsOf (upsertManagedEntry root descriptor) = before ++
        (descriptor.eventName, .array (groups ++ [managedGroup descriptor])) :: after := by
    rintro _ rfl
    rw [upsertManagedEntry, eventsOf_define, eventsOf_withoutManagedGroups, setEvent_eq h, hdefine]
  rcases hold with ⟨rfl, hnone⟩ | ⟨value, rfl, hsome⟩
  · exact ⟨before, [], after, [], heq, .inl ⟨rfl, rfl⟩, hevents [] (by rw [hnone]; rfl)⟩
  · have hmem : (descriptor.eventName, value) ∈ cleanEvents (eventsOf root) := by
      rw [heq]
      simp
    obtain ⟨groups, rfl, -⟩ := settled_cleanEvents hlisted _ hmem
    exact ⟨before, _, after, groups, heq, .inr rfl, hevents groups (by rw [hsome]; rfl)⟩

end

variable {groups : List JsonValue}

theorem keptEvent_upserted (h : Managed descriptor) {name : String}
    (hgroups : ∀ group ∈ groups, isManagedGroup group = false) :
    keptEvent (name, .array (groups ++ [managedGroup descriptor])) =
      if groups.isEmpty then none else some (name, .array groups) := by
  rw [keptEvent_array, foreignGroups_append, foreignGroups_managedGroup h, List.append_nil,
    foreignGroups_of_unmanaged hgroups]

theorem cleanEvents_upsert (h : Managed descriptor) (hlisted : Listed (eventsOf root))
    (hnodup : ((eventsOf root).map Prod.fst).Nodup) :
    cleanEvents (eventsOf (upsertManagedEntry root descriptor)) = cleanEvents (eventsOf root) := by
  obtain ⟨before, old, after, groups, heq, hold, hevents⟩ := eventsOf_upsert h hlisted hnodup
  have hsettled := settled_cleanEvents hlisted
  rw [heq] at hsettled
  have hbefore : before.filterMap keptEvent = before := cleanEvents_of_settled fun event hevent =>
    hsettled event (by simp [hevent])
  have hafter : after.filterMap keptEvent = after := cleanEvents_of_settled fun event hevent =>
    hsettled event (by simp [hevent])
  rw [hevents, heq, cleanEvents, List.filterMap_append, List.filterMap_cons, hbefore, hafter]
  rcases hold with ⟨rfl, rfl⟩ | rfl
  · rw [keptEvent_upserted h (by simp)]
    simp
  · obtain ⟨groups', hgroups', hne, hunmanaged⟩ := hsettled (descriptor.eventName, .array groups) (by simp)
    cases hgroups'
    rw [keptEvent_upserted h hunmanaged, if_neg (by simpa using hne)]
    simp

/-- A removal undoes an upsert. -/
theorem remove_upsert (h : Managed descriptor) (hlisted : Listed (eventsOf root))
    (hnodup : ((eventsOf root).map Prod.fst).Nodup) :
    removeManagedEntries (upsertManagedEntry root descriptor) = removeManagedEntries root := by
  have hclean := cleanEvents_upsert h hlisted hnodup
  rw [removeManagedEntries, removeManagedEntries, withoutManagedGroups_eq, hclean,
    withoutManagedGroups_eq, upsertManagedEntry, withoutManagedGroups_eq]
  split
  · rw [erase_define]
    exact erase_of_property_eq_none property_erase
  · rw [define_define, define_define]

/-- An upsert only depends on what a removal leaves. -/
theorem upsert_upsert (h : Managed descriptor) (hlisted : Listed (eventsOf root))
    (hnodup : ((eventsOf root).map Prod.fst).Nodup) :
    upsertManagedEntry (upsertManagedEntry root descriptor) descriptor =
      upsertManagedEntry root descriptor := by
  have hremove := remove_upsert h hlisted hnodup
  rw [removeManagedEntries, removeManagedEntries] at hremove
  rw [upsertManagedEntry, hremove, upsertManagedEntry]

theorem filter_groupHasMarker (h : ∀ group ∈ groups, isManagedGroup group = false) :
    (hookObjects (some (.array groups))).filter groupHasMarker = [] := by
  rw [List.filter_eq_nil_iff]
  intro fields hfields
  obtain ⟨group, hgroup, hrecord⟩ := List.mem_filterMap.1 hfields
  have hunmanaged := h group hgroup
  rw [isManagedGroup, hrecord, Option.any_some] at hunmanaged
  simp [hunmanaged]

theorem allManagedGroups_upsert (h : Managed descriptor) (hlisted : Listed (eventsOf root))
    (hnodup : ((eventsOf root).map Prod.fst).Nodup) :
    allManagedGroups (upsertManagedEntry root descriptor) =
      [(descriptor.eventName, managedFields descriptor)] := by
  obtain ⟨before, old, after, groups, heq, hold, hevents⟩ := eventsOf_upsert h hlisted hnodup
  have hsettled := settled_cleanEvents hlisted
  rw [heq] at hsettled
  have hnone : ∀ part : Properties, (∀ event ∈ part, Settled event) → (part.flatMap fun event =>
      ((hookObjects (some event.2)).filter groupHasMarker).map fun group => (event.1, group)) = [] := by
    intro part hpart
    rw [List.flatMap_eq_nil_iff]
    intro event hevent
    obtain ⟨groups, hgroups, -, hunmanaged⟩ := hpart event hevent
    rw [hgroups, filter_groupHasMarker hunmanaged, List.map_nil]
  have hunmanaged : ∀ group ∈ groups, isManagedGroup group = false := by
    rcases hold with ⟨-, rfl⟩ | rfl
    · nofun
    · obtain ⟨groups', hgroups', -, hunmanaged⟩ := hsettled (descriptor.eventName, .array groups) (by simp)
      cases hgroups'
      exact hunmanaged
  have hmarker : groupHasMarker (managedFields descriptor) = true := isManagedGroup_managedGroup h
  have hrecord : [managedGroup descriptor].filterMap asRecord = [managedFields descriptor] := rfl
  rw [allManagedGroups, hevents, List.flatMap_append, List.flatMap_cons,
    hnone before fun event hevent => hsettled event (by simp [hevent]),
    hnone after fun event hevent => hsettled event (by simp [hevent])]
  have hgroups := filter_groupHasMarker hunmanaged
  simp only [hookObjects, hookValues] at hgroups
  simp [hookObjects, hookValues, List.filterMap_append, List.filter_append, hgroups, hrecord, hmarker]

theorem health_upsert (h : Managed descriptor) (hlisted : Listed (eventsOf root))
    (hnodup : ((eventsOf root).map Prod.fst).Nodup) :
    managedEntryHealth (upsertManagedEntry root descriptor) descriptor = .healthy := by
  rw [managedEntryHealth, allManagedGroups_upsert h hlisted hnodup]
  have hmarker := h.marker
  cases htimeout : descriptor.timeout <;>
    simp [managedFields, property, hookObjects, hookValues, asRecord, hasMarker, hookMatches, text?, hmarker,
      htimeout, optionalProperty]

end Upserting

section Laws

variable {document : HookDocument}

theorem HookDocument.listed (document : HookDocument) : Listed (eventsOf document.root) := by
  intro event hevent
  have hsupported := document.supported
  rw [supportsHookDocument] at hsupported
  rw [eventsOf] at hevent
  cases hhooks : property document.root "hooks" with
  | none =>
    rw [hhooks] at hevent
    cases hevent
  | some value =>
    rw [hhooks] at hevent hsupported
    cases value with
    | object hooks =>
      have hgroups := List.all_eq_true.1 hsupported event hevent
      cases hvalue : event.2 with
      | array groups => exact ⟨groups, rfl⟩
      | _ =>
        rw [hvalue] at hgroups
        cases hgroups
    | _ => cases hevent

theorem HookDocument.property_hooks (document : HookDocument) :
    property document.root "hooks" = none ∧ eventsOf document.root = [] ∨
      property document.root "hooks" = some (.object (eventsOf document.root)) := by
  have hsupported := document.supported
  rw [supportsHookDocument] at hsupported
  rw [eventsOf]
  cases hhooks : property document.root "hooks" with
  | none => exact .inl ⟨rfl, rfl⟩
  | some value =>
    rw [hhooks] at hsupported
    cases value with
    | object hooks => exact .inr rfl
    | _ => cases hsupported

structure NoEmptyContainer (root : Properties) : Prop where
  hooks : property root "hooks" ≠ some (.object [])
  events : ∀ event ∈ eventsOf root, event.2 ≠ .array []

/-- What an edit of a document has to do and what it has to leave. -/
structure EditingLaws (root : Properties) (descriptor : ManagedHookDescriptor) : Prop where
  healthy : managedEntryHealth (upsertManagedEntry root descriptor) descriptor = .healthy
  idempotent : upsertManagedEntry (upsertManagedEntry root descriptor) descriptor =
    upsertManagedEntry root descriptor
  undone : removeManagedEntries (upsertManagedEntry root descriptor) = removeManagedEntries root
  upsertKeeps : Keeps root (upsertManagedEntry root descriptor)
  removeKeeps : Keeps root (removeManagedEntries root)
  untouched : allManagedGroups root = [] → removeManagedEntries root = root

variable {groups : List JsonValue}

/-- An event that is not empty keeps what is not managed, or goes because all of it was managed. -/
theorem foreignEvent_of_ne {name : String} (hne : groups ≠ []) :
    (keptEvent (name, .array groups)).bind foreignEvent = foreignEvent (name, .array groups) := by
  rw [keptEvent_array]
  by_cases hall : foreignGroups groups = []
  · have hmanaged := foreignGroups_eq_nil.1 hall
    simp [foreignEvent, hookValues, hall, hmanaged, hne]
  · have hmanaged : ¬ groups.all managedOnly = true := fun h => hall (foreignGroups_eq_nil.2 h)
    have hsettled : Settled (name, .array (foreignGroups groups)) :=
      ⟨_, rfl, hall, isManagedGroup_foreignGroups groups⟩
    rw [if_neg (by simpa using hall), Option.bind_some, hsettled.foreignEvent]
    simp [foreignEvent, hookValues, hmanaged]

theorem foreignEvents_cleanEvents (hlisted : Listed hooks)
    (hne : ∀ event ∈ hooks, event.2 ≠ .array []) :
    (cleanEvents hooks).filterMap foreignEvent = hooks.filterMap foreignEvent := by
  rw [cleanEvents, List.filterMap_filterMap]
  refine List.filterMap_congr fun event hevent => ?_
  obtain ⟨groups, hgroups⟩ := hlisted event hevent
  obtain ⟨name, value⟩ := event
  cases hgroups
  exact foreignEvent_of_ne fun hnil => hne _ hevent (by rw [hnil])

theorem keeps_remove (hempty : NoEmptyContainer document.root) :
    Keeps document.root (removeManagedEntries document.root) where
  fields := erase_withoutManagedGroups document.root
  events := by
    rw [removeManagedEntries, eventsOf_withoutManagedGroups]
    exact foreignEvents_cleanEvents document.listed hempty.events

theorem filled_upsert (h : Managed descriptor) (document : HookDocument) :
    ∀ event ∈ eventsOf (upsertManagedEntry document.root descriptor),
      ∃ groups, event.2 = .array groups ∧ groups ≠ [] := by
  obtain ⟨before, old, after, groups, heq, -, hevents⟩ :=
    eventsOf_upsert h document.listed document.eventKeys
  have hsettled : ∀ event ∈ before ++ old ++ after, ∃ groups, event.2 = .array groups ∧ groups ≠ [] := by
    intro event hevent
    rw [← heq] at hevent
    obtain ⟨groups, hgroups, hne, -⟩ := settled_cleanEvents document.listed event hevent
    exact ⟨groups, hgroups, hne⟩
  rw [hevents]
  intro event hevent
  rcases List.mem_append.1 hevent with hmem | hmem
  · exact hsettled event (by simp [hmem])
  · rcases List.mem_cons.1 hmem with rfl | hmem
    · exact ⟨_, rfl, by simp⟩
    · exact hsettled event (by simp [hmem])

theorem keeps_upsert (h : Managed descriptor) (hempty : NoEmptyContainer document.root) :
    Keeps document.root (upsertManagedEntry document.root descriptor) where
  fields := by
    rw [upsertManagedEntry, erase_define]
    exact erase_withoutManagedGroups document.root
  events := by
    have hfilled := filled_upsert h document
    have hlisted : Listed (eventsOf (upsertManagedEntry document.root descriptor)) :=
      fun event hevent => (hfilled event hevent).imp fun _ hgroups => hgroups.1
    have hne : ∀ event ∈ eventsOf (upsertManagedEntry document.root descriptor),
        event.2 ≠ .array [] := by
      intro event hevent hnil
      obtain ⟨groups, hgroups, hne⟩ := hfilled event hevent
      rw [hnil] at hgroups
      cases hgroups
      exact hne rfl
    rw [← foreignEvents_cleanEvents hlisted hne,
      cleanEvents_upsert h document.listed document.eventKeys]
    exact foreignEvents_cleanEvents document.listed hempty.events

/-- Without managed handlers and empty lists, the events are as a removal leaves them. -/
theorem settled_of_unmanaged (hempty : NoEmptyContainer document.root)
    (hnone : allManagedGroups document.root = []) : ∀ event ∈ eventsOf document.root, Settled event := by
  intro event hevent
  obtain ⟨groups, hgroups⟩ := document.listed event hevent
  refine ⟨groups, hgroups, fun hnil => hempty.events event hevent (by rw [hgroups, hnil]), ?_⟩
  intro group hgroup
  rw [allManagedGroups, List.flatMap_eq_nil_iff] at hnone
  have hnil := hnone event hevent
  rw [List.map_eq_nil_iff, List.filter_eq_nil_iff] at hnil
  cases hrecord : asRecord group with
  | none => rw [isManagedGroup, hrecord, Option.any_none]
  | some fields =>
    have hmem : fields ∈ hookObjects (some event.2) := by
      rw [hgroups]
      exact List.mem_filterMap.2 ⟨group, hgroup, hrecord⟩
    rw [isManagedGroup, hrecord, Option.any_some]
    simpa using hnil fields hmem

theorem remove_of_unmanaged (hempty : NoEmptyContainer document.root)
    (hnone : allManagedGroups document.root = []) :
    removeManagedEntries document.root = document.root := by
  have hclean := cleanEvents_of_settled (settled_of_unmanaged hempty hnone)
  rw [removeManagedEntries, withoutManagedGroups_eq, hclean]
  rcases document.property_hooks with ⟨habsent, hnil⟩ | hthere
  · rw [hnil]
    exact erase_of_property_eq_none habsent
  · have hne : ¬ (eventsOf document.root).isEmpty = true := fun hnil =>
      hempty.hooks (by rw [hthere, List.isEmpty_iff.1 hnil])
    rw [if_neg hne]
    exact define_same document.keys hthere

/-- A removal takes an empty object of events out. -/
theorem not_untouched (hthere : property root "hooks" = some (.object [])) :
    allManagedGroups root = [] ∧ removeManagedEntries root ≠ root := by
  have hevents : eventsOf root = [] := by rw [eventsOf, hthere]
  refine ⟨by rw [allManagedGroups, hevents, List.flatMap_nil], fun heq => ?_⟩
  have hremoved : property (removeManagedEntries root) "hooks" = none := by
    rw [removeManagedEntries, withoutManagedGroups_eq, hevents]
    exact property_erase
  rw [heq, hthere] at hremoved
  cases hremoved

/-- A removal takes an event with an empty list out. -/
theorem not_keeps_of_empty (hempty : ∃ event ∈ eventsOf document.root, event.2 = .array []) :
    ¬ Keeps document.root (removeManagedEntries document.root) := by
  intro hkeeps
  obtain ⟨⟨name, value⟩, hevent, hnil⟩ := hempty
  cases hnil
  have hforeign : foreignEvent (name, .array []) = some (name, []) := rfl
  have hmem : (name, []) ∈ (eventsOf document.root).filterMap foreignEvent :=
    List.mem_filterMap.2 ⟨_, hevent, hforeign⟩
  rw [← hkeeps.events, removeManagedEntries, eventsOf_withoutManagedGroups] at hmem
  obtain ⟨event, hclean, heq⟩ := List.mem_filterMap.1 hmem
  have hsettled := settled_cleanEvents document.listed event hclean
  have hforeignEvent := hsettled.foreignEvent
  obtain ⟨groups, hgroups, hne, -⟩ := hsettled
  rw [hforeignEvent, hgroups] at heq
  exact hne (congrArg Prod.snd (Option.some.inj heq))

/-- Editing obeys its laws exactly on the documents that have no empty container. -/
theorem editingLaws_iff (document : HookDocument) (h : Managed descriptor) :
    EditingLaws document.root descriptor ↔ NoEmptyContainer document.root := by
  constructor
  · intro hlaws
    refine ⟨fun hhooks => ?_, fun event hevent hnil => ?_⟩
    · obtain ⟨hnone, hne⟩ := not_untouched hhooks
      exact hne (hlaws.untouched hnone)
    · exact not_keeps_of_empty ⟨event, hevent, hnil⟩ hlaws.removeKeeps
  · intro hempty
    exact
      { healthy := health_upsert h document.listed document.eventKeys
        idempotent := upsert_upsert h document.listed document.eventKeys
        undone := remove_upsert h document.listed document.eventKeys
        upsertKeeps := keeps_upsert h hempty
        removeKeeps := keeps_remove hempty
        untouched := remove_of_unmanaged hempty }

def sampleDescriptor : ManagedHookDescriptor :=
  { marker := hookMarker, eventName := "PreToolUse", matcher := ".*"
    command := "mottainai hooks dispatch --client claude", timeout := some "10" }

theorem managed_sampleDescriptor : Managed sampleDescriptor := ⟨rfl, by decide⟩

/-- A configuration with one event. -/
def sampleRoot (groups : List JsonValue) : Properties :=
  [("model", .string "opus"), ("hooks", .object [("Stop", .array groups)])]

theorem keys_sampleRoot (groups : List JsonValue) : ((sampleRoot groups).map Prod.fst).Nodup := by
  simp [sampleRoot]

theorem eventsOf_sampleRoot (groups : List JsonValue) :
    eventsOf (sampleRoot groups) = [("Stop", .array groups)] := rfl

theorem eventKeys_sampleRoot (groups : List JsonValue) :
    ((eventsOf (sampleRoot groups)).map Prod.fst).Nodup := by
  simp [eventsOf_sampleRoot]

theorem supported_sampleRoot (h : groups.all supportsGroup = true) :
    supportsHookDocument (.object (sampleRoot groups)) = true := by
  simpa [supportsHookDocument, sampleRoot, property, supportsGroups] using h

def sampleDocument (groups : List JsonValue) (h : groups.all supportsGroup = true) : HookDocument where
  root := sampleRoot groups
  keys := keys_sampleRoot groups
  eventKeys := eventKeys_sampleRoot groups
  supported := supported_sampleRoot h

/-- A list with one group of the client. -/
theorem editingLaws_iff_foreign :
    EditingLaws (sampleDocument [.object [("matcher", .string "Bash")]] rfl).root sampleDescriptor ↔
      NoEmptyContainer (sampleDocument [.object [("matcher", .string "Bash")]] rfl).root :=
  editingLaws_iff _ managed_sampleDescriptor

/-- The event with an empty list is gone after a removal. -/
theorem not_editingLaws_empty_event : ¬ ∀ (document : HookDocument) (descriptor : ManagedHookDescriptor),
    Managed descriptor → EditingLaws document.root descriptor := by
  intro h
  have hlaws := h (sampleDocument [] rfl) sampleDescriptor managed_sampleDescriptor
  exact not_keeps_of_empty ⟨("Stop", .array []), List.mem_singleton_self _, rfl⟩ hlaws.removeKeeps

end Laws

end Mottainai.HookConfigurations
