import Mottainai.JsonKeyOrder

/-!
# Objects with another value at one of their keys

An object is determined, up to the order of its keys, by what is read from it at each key. So an
object in which the value at one key is replaced is determined by the rest of it and the new value.
-/

namespace Mottainai.JsonValues.Schema

/-- The schema accepts what it accepts also with the keys in order. -/
def KeyOrderFree (schema : Schema) : Prop :=
  ∀ v : JsonValue, v.plain = true → schema v = true → schema (inKeyOrder v) = true

section Scalars

@[simp] theorem keyOrderFree_string (test : List Char → Bool) : KeyOrderFree (string test) := by
  intro v _ h
  obtain ⟨text, rfl⟩ := exists_of_string h
  exact h

@[simp] theorem keyOrderFree_sized (min max : ℕ) (test : List Char → Bool) :
    KeyOrderFree (sized min max test) := keyOrderFree_string _

@[simp] theorem keyOrderFree_oneOf (values : List String) : KeyOrderFree (oneOf values) := by
  intro v _ h
  cases v with
  | string text => exact h
  | _ => cases h

@[simp] theorem keyOrderFree_boolean : KeyOrderFree boolean := by
  intro v _ h
  cases v with
  | boolean value => exact h
  | _ => cases h

@[simp] theorem keyOrderFree_literalNumber (value : String) :
    KeyOrderFree (literalNumber value) := by
  intro v _ h
  cases v with
  | number literal => exact h
  | _ => cases h

@[simp] theorem keyOrderFree_number (test : Decimal → Bool) : KeyOrderFree (number test) := by
  intro v _ h
  cases v with
  | number literal => exact h
  | _ => cases h

@[simp] theorem keyOrderFree_integerFrom (bound : ℕ) : KeyOrderFree (integerFrom bound) :=
  keyOrderFree_number _

end Scalars

section Composite

@[simp] theorem keyOrderFree_arrayOf {element : Schema} (min max : ℕ) (h : KeyOrderFree element) :
    KeyOrderFree (arrayOf min max element) := by
  intro v hv hschema
  obtain ⟨elements, rfl⟩ := exists_of_arrayOf hschema
  rw [arrayOf_iff] at hschema
  rw [inKeyOrder_array, arrayOf_iff, List.length_map]
  refine ⟨hschema.1, fun w hw => ?_⟩
  obtain ⟨w, hmem, rfl⟩ := List.mem_map.1 hw
  exact h w (plain_array.1 hv w hmem) (hschema.2 w hmem)

theorem keyOrderFree_object {fields : List Field} (h : ∀ field ∈ fields, KeyOrderFree field.schema) :
    KeyOrderFree (object fields) := by
  intro v hv hschema
  obtain ⟨properties, rfl, haccepts, hstrict⟩ := exists_of_object hschema
  obtain ⟨hnodup, hplain⟩ := plain_object.1 hv
  rw [inKeyOrder_object]
  simp only [object, Bool.and_eq_true, List.all_eq_true, List.any_eq_true, beq_iff_eq]
  constructor
  · intro field hfield
    have haccept := haccepts field hfield
    rw [Field.accepts] at haccept ⊢
    rw [property_inKeyOrder hnodup]
    cases hvalue : property properties field.name with
    | none => rwa [hvalue] at haccept
    | some value =>
      rw [hvalue] at haccept
      exact h field hfield value (hplain _ ((property_eq_some_iff hnodup).1 hvalue)) haccept
  · intro entry hentry
    obtain ⟨entry, hmem, rfl⟩ := List.mem_map.1 (mem_sortBy.1 hentry)
    exact hstrict entry hmem

end Composite

end Mottainai.JsonValues.Schema

namespace Mottainai.JsonValues

section Updates

def atProperty (name : String) (f : JsonValue → JsonValue) : JsonValue → JsonValue
  | .object properties => .object (properties.map fun p => if p.1 = name then (p.1, f p.2) else p)
  | value => value

def valueAt (path : List String) (value : JsonValue) : JsonValue := path.foldl member value

def textAt (path : List String) (value : JsonValue) : String := textOf (valueAt path value)

end Updates

section Extensionality

variable {ps qs : Properties} {v w : JsonValue} {name : String} {f g : JsonValue → JsonValue}

theorem inKeyOrder_object_ext (hps : (ps.map Prod.fst).Nodup) (hqs : (qs.map Prod.fst).Nodup) :
    inKeyOrder (.object ps) = inKeyOrder (.object qs) ↔
      ∀ name, (property ps name).map inKeyOrder = (property qs name).map inKeyOrder := by
  rw [inKeyOrder_object, inKeyOrder_object, JsonValue.object.injEq]
  constructor
  · intro heq name
    rw [← property_inKeyOrder hps, ← property_inKeyOrder hqs, heq]
  · intro hread
    have hkeys : ∀ l : Properties, (l.map entryInKeyOrder).map Prod.fst = l.map Prod.fst :=
      fun l => List.map_map
    have hentry : ∀ {l : Properties}, (l.map Prod.fst).Nodup → ∀ entry : String × JsonValue,
        entry ∈ l.map entryInKeyOrder ↔ (property l entry.1).map inKeyOrder = some entry.2 := by
      intro l hl entry
      rw [List.mem_map, Option.map_eq_some_iff]
      constructor
      · rintro ⟨p, hp, rfl⟩
        exact ⟨p.2, (property_eq_some_iff hl).2 hp, rfl⟩
      · rintro ⟨value, hvalue, heq⟩
        exact ⟨(entry.1, value), (property_eq_some_iff hl).1 hvalue, Prod.ext rfl heq⟩
    have hnodup : ∀ {l : Properties}, (l.map Prod.fst).Nodup → (l.map entryInKeyOrder).Nodup :=
      fun {l} hl => List.Nodup.of_map Prod.fst (by rwa [hkeys l])
    refine sortBy_eq_of_perm ((List.perm_ext_iff_of_nodup (hnodup hps) (hnodup hqs)).2 ?_) ?_
    · intro entry
      rw [hentry hps, hentry hqs, hread]
    · exact List.inj_on_of_nodup_map (by rwa [hkeys ps])

theorem keys_atProperty (name : String) (f : JsonValue → JsonValue) (ps : Properties) :
    (ps.map fun p => if p.1 = name then (p.1, f p.2) else p).map Prod.fst = ps.map Prod.fst := by
  rw [List.map_map]
  refine List.map_congr_left fun p _ => ?_
  rw [Function.comp_apply]
  split_ifs <;> rfl

theorem property_atProperty (name key : String) (f : JsonValue → JsonValue) (ps : Properties) :
    property (ps.map fun p => if p.1 = name then (p.1, f p.2) else p) key =
      if key = name then (property ps key).map f else property ps key := by
  induction ps with
  | nil => simp [property]
  | cons p ps ih =>
    simp only [property] at ih ⊢
    rw [List.map_cons, List.find?_cons, List.find?_cons]
    by_cases hp : p.1 = key
    · subst hp
      split_ifs with hname <;> simp
    · have hkey : ((if p.1 = name then (p.1, f p.2) else p).1 = key) ↔ False := by
        split_ifs <;> simp [hp]
      simp only [hkey, hp, decide_false]
      exact ih

theorem member?_atProperty (name key : String) (f : JsonValue → JsonValue) (v : JsonValue) :
    member? (atProperty name f v) key =
      if key = name then (member? v key).map f else member? v key := by
  cases v with
  | object ps => exact property_atProperty name key f ps
  | _ =>
    split_ifs
    · rfl
    · rfl

variable {key : String}

theorem member_atProperty_of_ne (h : key ≠ name) (f : JsonValue → JsonValue) (v : JsonValue) :
    member (atProperty name f v) key = member v key := by
  rw [member, member?_atProperty, if_neg h, member]

theorem member_atProperty (h : (member? v name).isSome) (f : JsonValue → JsonValue) :
    member (atProperty name f v) name = f (member v name) := by
  obtain ⟨value, hvalue⟩ := Option.isSome_iff_exists.1 h
  rw [member, member?_atProperty, if_pos rfl, member, hvalue]
  rfl

theorem plain_of_member? {value : JsonValue} (h : v.plain = true)
    (hvalue : member? v name = some value) : value.plain = true := by
  have hplain := plain_member h name
  rwa [member, hvalue] at hplain

theorem plain_atProperty (h : v.plain = true) (hf : ∀ w, w.plain = true → (f w).plain = true) :
    (atProperty name f v).plain = true := by
  cases v with
  | object ps =>
    obtain ⟨hnodup, hplain⟩ := plain_object.1 h
    refine plain_object.2 ⟨by rwa [keys_atProperty], fun entry hentry => ?_⟩
    obtain ⟨p, hp, rfl⟩ := List.mem_map.1 hentry
    split_ifs
    · exact hf p.2 (hplain p hp)
    · exact hplain p hp
  | _ => exact h

/-- The rest of the objects is equal up to the order of keys. -/
def SameApartFrom (name : String) (v w : JsonValue) : Prop :=
  inKeyOrder (atProperty name (fun _ => .null) v) = inKeyOrder (atProperty name (fun _ => .null) w)

/-- A replaced value and the rest of the object determine each other's text. -/
theorem inKeyOrder_atProperty_iff (hv : v.plain = true) (hw : w.plain = true)
    (hfv : (f (member v name)).plain = true) (hgw : (g (member w name)).plain = true)
    (hnamev : (member? v name).isSome) (hnamew : (member? w name).isSome) :
    inKeyOrder (atProperty name f v) = inKeyOrder (atProperty name g w) ↔
      SameApartFrom name v w ∧ inKeyOrder (f (member v name)) = inKeyOrder (g (member w name)) := by
  cases v with
  | object ps =>
    cases w with
    | object qs =>
      have hps := (plain_object.1 hv).1
      have hqs := (plain_object.1 hw).1
      obtain ⟨value, hvalue⟩ := Option.isSome_iff_exists.1 hnamev
      obtain ⟨value', hvalue'⟩ := Option.isSome_iff_exists.1 hnamew
      have hmember : member (.object ps) name = value := by rw [member, hvalue]; rfl
      have hmember' : member (.object qs) name = value' := by rw [member, hvalue']; rfl
      have hread : ∀ f g : JsonValue → JsonValue,
          inKeyOrder (atProperty name f (.object ps)) = inKeyOrder (atProperty name g (.object qs)) ↔
            ∀ key, (if key = name then (property ps key).map f else property ps key).map inKeyOrder =
              (if key = name then (property qs key).map g else property qs key).map inKeyOrder := by
        intro f g
        rw [atProperty, atProperty, inKeyOrder_object_ext (by rwa [keys_atProperty])
          (by rwa [keys_atProperty])]
        simp only [property_atProperty]
      have hat : property ps name = some value := hvalue
      have hat' : property qs name = some value' := hvalue'
      rw [SameApartFrom, hread, hread, hmember, hmember']
      constructor
      · intro h
        refine ⟨fun key => ?_, ?_⟩
        · by_cases hkey : key = name
          · rw [if_pos hkey, if_pos hkey, hkey, hat, hat']
            rfl
          · have hother := h key
            rwa [if_neg hkey, if_neg hkey] at hother ⊢
        · have hsame := h name
          rw [if_pos rfl, if_pos rfl, hat, hat'] at hsame
          exact Option.some.inj hsame
      · rintro ⟨h, hsame⟩ key
        by_cases hkey : key = name
        · rw [if_pos hkey, if_pos hkey, hkey, hat, hat']
          exact congrArg some hsame
        · have hother := h key
          rwa [if_neg hkey, if_neg hkey] at hother ⊢
    | _ => cases hnamew
  | _ => cases hnamev

/-- The function gives values that are equal up to the order of keys for such values. -/
def RespectsKeyOrder (f : JsonValue → JsonValue) : Prop :=
  ∀ v w, v.plain = true → w.plain = true → inKeyOrder v = inKeyOrder w →
    inKeyOrder (f v) = inKeyOrder (f w)

theorem respectsKeyOrder_atProperty (h : RespectsKeyOrder f) : RespectsKeyOrder (atProperty name f) := by
  intro v w hv hw heq
  have hkeys : ∀ u u' : JsonValue, inKeyOrder u = inKeyOrder u' → u.plain = true →
      u'.plain = true → ∀ key, (member? u key).map inKeyOrder = (member? u' key).map inKeyOrder := by
    intro u u' h hu hu' key
    rw [← member?_inKeyOrder hu, ← member?_inKeyOrder hu', h]
  cases v with
  | object ps =>
    cases w with
    | object qs =>
      have hps := (plain_object.1 hv).1
      have hqs := (plain_object.1 hw).1
      rw [atProperty, atProperty, inKeyOrder_object_ext (by rwa [keys_atProperty])
        (by rwa [keys_atProperty])]
      intro key
      have hsame : (property ps key).map inKeyOrder = (property qs key).map inKeyOrder :=
        hkeys _ _ heq hv hw key
      rw [property_atProperty, property_atProperty]
      split_ifs
      · cases hvalue : property ps key with
        | none =>
          rw [hvalue] at hsame
          rw [Option.map_eq_none_iff.1 hsame.symm]
        | some value =>
          rw [hvalue] at hsame
          obtain ⟨value', hvalue', hkey⟩ := Option.map_eq_some_iff.1 hsame.symm
          rw [hvalue']
          exact congrArg some (h value value' (plain_of_member? hv hvalue)
            (plain_of_member? hw hvalue') hkey.symm)
      · exact hsame
    | array elements =>
      rw [inKeyOrder_object, inKeyOrder_array] at heq
      cases heq
    | _ =>
      rw [inKeyOrder_object] at heq
      cases heq
  | array elements =>
    cases w with
    | object qs =>
      rw [inKeyOrder_object, inKeyOrder_array] at heq
      cases heq
    | _ => exact heq
  | _ =>
    cases w with
    | object qs =>
      rw [inKeyOrder_object] at heq
      cases heq
    | _ => exact heq

theorem valueAt_inKeyOrder (h : v.plain = true) (path : List String) :
    valueAt path (inKeyOrder v) = inKeyOrder (valueAt path v) := by
  induction path generalizing v with
  | nil => rfl
  | cons key path ih =>
    rw [valueAt, List.foldl_cons, member_inKeyOrder h]
    exact ih (plain_member h key)

theorem plain_valueAt (h : v.plain = true) (path : List String) : (valueAt path v).plain = true := by
  induction path generalizing v with
  | nil => exact h
  | cons key path ih => exact ih (plain_member h key)

theorem textAt_inKeyOrder (h : v.plain = true) (path : List String) :
    textAt path (inKeyOrder v) = textAt path v := by
  rw [textAt, valueAt_inKeyOrder h, textOf_inKeyOrder, textAt]

theorem valueAt_atProperty (h : (member? v name).isSome) (path : List String) :
    valueAt (key :: path) (atProperty name f v) =
      if key = name then valueAt path (f (member v name)) else valueAt (key :: path) v := by
  rw [valueAt, List.foldl_cons]
  split_ifs with hkey
  · rw [hkey, member_atProperty h]
    rfl
  · rw [member_atProperty_of_ne hkey]
    rfl

theorem atProperty_congr (hplain : v.plain = true) (h : f (member v name) = g (member v name)) :
    atProperty name f v = atProperty name g v := by
  cases v with
  | object properties =>
    rw [atProperty, atProperty, JsonValue.object.injEq]
    refine List.map_congr_left fun p hp => ?_
    split_ifs with hname
    · have hvalue : property properties name = some p.2 :=
        (property_eq_some_iff (plain_object.1 hplain).1).2 (hname ▸ hp)
      have hmember : member (.object properties) name = p.2 := by
        rw [member, show member? (.object properties) name = some p.2 from hvalue]
        rfl
      rw [hmember] at h
      rw [h]
    · rfl
  | _ => rfl

/-- The same value at a key changes nothing. -/
theorem atProperty_self (hplain : v.plain = true) (h : f (member v name) = member v name) :
    atProperty name f v = v := by
  have hid : f (member v name) = id (member v name) := h
  rw [atProperty_congr hplain hid]
  cases v with
  | object properties => simp only [atProperty, id, Prod.mk.eta, ite_self, List.map_id']
  | _ => rfl

theorem atProperty_atProperty (name : String) (f g : JsonValue → JsonValue) (v : JsonValue) :
    atProperty name f (atProperty name g v) = atProperty name (f ∘ g) v := by
  cases v with
  | object properties =>
    simp only [atProperty, List.map_map, JsonValue.object.injEq]
    refine List.map_congr_left fun p _ => ?_
    rw [Function.comp_apply]
    split_ifs <;> rfl
  | _ => rfl

theorem atProperty_comp (name : String) (f g : JsonValue → JsonValue) :
    atProperty name f ∘ atProperty name g = atProperty name (f ∘ g) :=
  funext (atProperty_atProperty name f g)

end Extensionality

namespace Schema

section Fields

variable {fields : List Field} {field : Field} {v : JsonValue} {f : JsonValue → JsonValue}
variable {name : String} {schema : Schema}

/-- What must be there is there, and passes its schema. -/
theorem accepted_required (h : object fields v = true) (hfield : required name schema ∈ fields) :
    (member? v name).isSome ∧ schema (member v name) = true := by
  obtain ⟨properties, rfl, haccepts, -⟩ := exists_of_object h
  have haccept := haccepts _ hfield
  rw [Field.accepts] at haccept
  cases hvalue : property properties name with
  | none =>
    rw [show (required name schema).name = name from rfl, hvalue] at haccept
    cases haccept
  | some value =>
    rw [show (required name schema).name = name from rfl, hvalue] at haccept
    rw [member, show member? (.object properties) name = some value from hvalue]
    exact ⟨rfl, haccept⟩

/-- An accepted object stays so with another accepted value. -/
theorem object_atProperty (h : object fields v = true)
    (hf : ∀ field ∈ fields, field.name = name → ∀ value, member? v name = some value →
      field.schema (f value) = true) : object fields (atProperty name f v) = true := by
  obtain ⟨properties, rfl, haccepts, hstrict⟩ := exists_of_object h
  simp only [atProperty, object, Bool.and_eq_true, List.all_eq_true, List.any_eq_true, beq_iff_eq]
  refine ⟨fun field hfield => ?_, fun entry hentry => ?_⟩
  · have haccept := haccepts field hfield
    rw [Field.accepts] at haccept ⊢
    rw [property_atProperty]
    by_cases hname : field.name = name
    · rw [if_pos hname]
      cases hvalue : property properties field.name with
      | none => rwa [hvalue] at haccept
      | some value => exact hf field hfield hname value (hname ▸ hvalue)
    · rwa [if_neg hname]
  · obtain ⟨p, hp, rfl⟩ := List.mem_map.1 hentry
    obtain ⟨field, hfield, hname⟩ := hstrict p hp
    refine ⟨field, hfield, hname.trans ?_⟩
    split_ifs <;> rfl

/-- A property that must be there may have another accepted value. -/
theorem object_atProperty_required (h : object fields v = true)
    (hfield : required name schema ∈ fields) (hnames : (fields.map Field.name).Nodup)
    (hf : schema (f (member v name)) = true) : object fields (atProperty name f v) = true := by
  refine object_atProperty h fun field hmem hname value hvalue => ?_
  obtain rfl : field = required name schema :=
    List.inj_on_of_nodup_map hnames hmem hfield hname
  rw [member, hvalue] at hf
  exact hf

/-- Where a property of a schema is. -/
theorem mem_fields {fields : List Field} {field : Field} (i : ℕ) (h : fields[i]? = some field) :
    field ∈ fields := List.mem_of_getElem? h

theorem object_single {v : JsonValue} (hplain : v.plain = true)
    (h : object [required name schema] v = true) : v = .object [(name, member v name)] := by
  obtain ⟨hsome, -⟩ := accepted_required h (mem_fields 0 rfl)
  obtain ⟨properties, rfl, -, hstrict⟩ := exists_of_object h
  have hkeys : ∀ p ∈ properties, p.1 = name := by
    intro p hp
    obtain ⟨field, hfield, hname⟩ := hstrict p hp
    rw [List.mem_singleton.1 hfield] at hname
    exact hname.symm
  have hnodup := (plain_object.1 hplain).1
  cases properties with
  | nil => cases hsome
  | cons p ps =>
    cases ps with
    | nil =>
      obtain ⟨key, value⟩ := p
      obtain rfl : key = name := hkeys _ List.mem_cons_self
      rw [JsonValue.object.injEq, List.cons.injEq, Prod.mk.injEq]
      refine ⟨⟨rfl, ?_⟩, rfl⟩
      have hproperty : property [(key, value)] key = some value := by simp [property]
      rw [member, show member? (.object [(key, value)]) key = some value from hproperty]
      rfl
    | cons q qs =>
      rw [List.map_cons, List.map_cons, List.nodup_cons, hkeys p List.mem_cons_self,
        hkeys q (List.mem_cons_of_mem p List.mem_cons_self)] at hnodup
      exact absurd List.mem_cons_self hnodup.1

theorem inKeyOrder_rebuilt (hrequired : ∀ field ∈ fields, field.optional = false)
    (hnames : (fields.map Field.name).Nodup) (hplain : v.plain = true) (h : object fields v = true) :
    inKeyOrder v = inKeyOrder (.object (fields.map fun field => (field.name, member v field.name))) := by
  obtain ⟨properties, rfl, haccepts, hstrict⟩ := exists_of_object h
  have hnodup := (plain_object.1 hplain).1
  have hkeys : ((fields.map fun field =>
      (field.name, member (.object properties) field.name)).map Prod.fst).Nodup := by
    rw [List.map_map]
    exact hnames
  rw [inKeyOrder_object_ext hnodup hkeys]
  intro key
  congr 1
  by_cases hmem : ∃ field ∈ fields, field.name = key
  · obtain ⟨field, hfield, rfl⟩ := hmem
    have haccept := haccepts field hfield
    rw [Field.accepts] at haccept
    cases hvalue : property properties field.name with
    | none =>
      rw [hvalue, hrequired field hfield] at haccept
      cases haccept
    | some value =>
      have hmember : member (.object properties) field.name = value := by
        rw [member, show member? (.object properties) field.name = some value from hvalue]
        rfl
      symm
      rw [property_eq_some_iff hkeys, List.mem_map]
      exact ⟨field, hfield, by rw [hmember]⟩
  · have hleft : property properties key = none := by
      rw [property, Option.map_eq_none_iff, List.find?_eq_none]
      intro entry hentry hkey
      obtain ⟨field, hfield, hname⟩ := hstrict entry hentry
      exact hmem ⟨field, hfield, hname.trans (of_decide_eq_true hkey)⟩
    rw [hleft, eq_comm, property, Option.map_eq_none_iff, List.find?_eq_none]
    intro entry hentry hkey
    obtain ⟨field, hfield, rfl⟩ := List.mem_map.1 hentry
    exact hmem ⟨field, hfield, of_decide_eq_true hkey⟩

end Fields

section Fixed

variable {schema : Schema} {f g : JsonValue → JsonValue}

/-- The function leaves alone what the schema accepts. -/
def Fixes (schema : Schema) (f : JsonValue → JsonValue) : Prop :=
  ∀ v, v.plain = true → schema v = true → f v = v

theorem fixes_comp (hf : Fixes schema f) (hg : Fixes schema g) : Fixes schema (f ∘ g) := by
  intro v hplain hv
  rw [Function.comp_apply, hg v hplain hv, hf v hplain hv]

variable {fields : List Field} {name : String}

theorem fixes_atProperty {field : Field} (hfield : field ∈ fields) (hf : Fixes field.schema f) :
    Fixes (object fields) (atProperty field.name f) := by
  intro v hplain hv
  obtain ⟨properties, rfl, haccepts, -⟩ := exists_of_object hv
  obtain ⟨hnodup, hvalues⟩ := plain_object.1 hplain
  have haccept := haccepts field hfield
  rw [atProperty, JsonValue.object.injEq]
  refine (List.map_congr_left fun p hp => ?_).trans (List.map_id properties)
  split_ifs with hname
  · have hvalue : property properties field.name = some p.2 :=
      (property_eq_some_iff hnodup).2 (hname ▸ hp)
    rw [Field.accepts, hvalue] at haccept
    rw [hf p.2 (hvalues p hp) haccept]
    rfl
  · rfl

theorem fixes_required (hfield : required name schema ∈ fields) (hf : Fixes schema f) :
    Fixes (object fields) (atProperty name f) := fixes_atProperty hfield hf

theorem fixes_optional (hfield : optional name schema ∈ fields) (hf : Fixes schema f) :
    Fixes (object fields) (atProperty name f) := fixes_atProperty hfield hf

def atElements (f : JsonValue → JsonValue) : JsonValue → JsonValue
  | .array elements => .array (elements.map f)
  | value => value

theorem plain_atElements {v : JsonValue} (h : v.plain = true)
    (hf : ∀ w, w.plain = true → (f w).plain = true) : (atElements f v).plain = true := by
  cases v with
  | array elements =>
    refine plain_array.2 fun w hw => ?_
    obtain ⟨w, hmem, rfl⟩ := List.mem_map.1 hw
    exact hf w (plain_array.1 h w hmem)
  | _ => exact h

theorem fixes_arrayOf {min max : ℕ} (hf : Fixes schema f) :
    Fixes (arrayOf min max schema) (atElements f) := by
  intro v hplain hv
  obtain ⟨elements, rfl⟩ := exists_of_arrayOf hv
  rw [arrayOf_iff] at hv
  rw [atElements, JsonValue.array.injEq]
  refine (List.map_congr_left fun w hw => ?_).trans (List.map_id elements)
  exact hf w (plain_array.1 hplain w hw) (hv.2 w hw)

theorem fixes_refined {test : JsonValue → Bool} (hf : Fixes schema f) :
    Fixes (refined schema test) f := by
  intro v hplain hv
  rw [refined, Bool.and_eq_true] at hv
  exact hf v hplain hv.1

end Fixed

end Schema

end Mottainai.JsonValues
