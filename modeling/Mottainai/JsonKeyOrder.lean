import Mottainai.JsonTexts
import Mottainai.OrderedMaps

/-!
# The order of keys, and reading a JSON text

Two values are the same up to the order of keys if one becomes the other when the properties of its
objects are listed in another order. `stableStringifyValue` prints the same for two plain values
exactly then: numbers are texts of numbers there, and no object has two properties with one key.
`jsonParse` reads a value off a text, with white space between its parts, and keeps a run of
characters of numbers as it is.
-/

namespace Mottainai.JsonValues

section Values

mutual

def JsonValue.plain : JsonValue → Bool
  | .number literal => literal.toList != [] && literal.toList.all isNumeric
  | .array elements => plainElements elements
  | .object properties => decide (properties.map Prod.fst).Nodup && plainProperties properties
  | _ => true

def plainElements : List JsonValue → Bool
  | [] => true
  | value :: values => value.plain && plainElements values

def plainProperties : Properties → Bool
  | [] => true
  | (_, value) :: properties => value.plain && plainProperties properties

end

mutual

def inKeyOrder : JsonValue → JsonValue
  | .array elements => .array (elementsInKeyOrder elements)
  | .object properties => .object (sortBy Prod.fst (propertiesInKeyOrder properties))
  | value => value

def elementsInKeyOrder : List JsonValue → List JsonValue
  | [] => []
  | value :: values => inKeyOrder value :: elementsInKeyOrder values

def propertiesInKeyOrder : Properties → Properties
  | [] => []
  | (key, value) :: properties => (key, inKeyOrder value) :: propertiesInKeyOrder properties

end

mutual

def Rekeyed : JsonValue → JsonValue → Prop
  | .array elements, w => ∃ elements', w = .array elements' ∧ RekeyedElements elements elements'
  | .object properties, w => ∃ listed properties', w = .object properties' ∧
      RekeyedProperties properties listed ∧ listed.Perm properties'
  | v, w => w = v

def RekeyedElements : List JsonValue → List JsonValue → Prop
  | [], ws => ws = []
  | v :: vs, ws => ∃ w ws', ws = w :: ws' ∧ Rekeyed v w ∧ RekeyedElements vs ws'

def RekeyedProperties : Properties → Properties → Prop
  | [], qs => qs = []
  | (key, v) :: ps, qs => ∃ w qs', qs = (key, w) :: qs' ∧ Rekeyed v w ∧ RekeyedProperties ps qs'

end

def JsonValue.children : JsonValue → List JsonValue
  | .array elements => elements
  | .object properties => properties.map Prod.snd
  | _ => []

theorem sizeOf_children : ∀ {v w : JsonValue}, w ∈ v.children → sizeOf w < sizeOf v
  | .array elements, w, h => by
    have hlt : sizeOf w < sizeOf elements := List.sizeOf_lt_of_mem h
    simp only [JsonValue.array.sizeOf_spec]
    omega
  | .object properties, w, h => by
    obtain ⟨⟨key, value⟩, hmem, rfl⟩ := List.mem_map.1 h
    have hlt := List.sizeOf_lt_of_mem hmem
    simp only [JsonValue.object.sizeOf_spec, Prod.mk.sizeOf_spec] at hlt ⊢
    omega

/-- What holds of a value if it holds of those inside it holds of every value. -/
theorem JsonValue.induction {P : JsonValue → Prop}
    (h : ∀ v : JsonValue, (∀ w ∈ v.children, P w) → P v) (v : JsonValue) : P v :=
  h v fun w _ => JsonValue.induction h w
termination_by sizeOf v
decreasing_by exact sizeOf_children ‹_›

end Values

section Lists

variable (elements : List JsonValue) (properties : Properties)

theorem plainElements_iff :
    plainElements elements = true ↔ ∀ value ∈ elements, value.plain = true := by
  induction elements with
  | nil => simp [plainElements]
  | cons value values ih => simp [plainElements, ih]

theorem plainProperties_iff :
    plainProperties properties = true ↔ ∀ entry ∈ properties, entry.2.plain = true := by
  induction properties with
  | nil => simp [plainProperties]
  | cons entry properties ih => simp [plainProperties, ih]

theorem plain_object {properties : Properties} : (JsonValue.object properties).plain = true ↔
    (properties.map Prod.fst).Nodup ∧ ∀ entry ∈ properties, entry.2.plain = true := by
  rw [JsonValue.plain, Bool.and_eq_true, decide_eq_true_iff, plainProperties_iff]

theorem plain_array {elements : List JsonValue} : (JsonValue.array elements).plain = true ↔
    ∀ value ∈ elements, value.plain = true := by
  rw [JsonValue.plain, plainElements_iff]

theorem plain_children {v : JsonValue} (h : v.plain = true) : ∀ w ∈ v.children, w.plain = true := by
  cases v with
  | array elements => exact plain_array.1 h
  | object properties =>
    intro w hw
    obtain ⟨entry, hentry, rfl⟩ := List.mem_map.1 hw
    exact (plain_object.1 h).2 entry hentry
  | _ => exact nofun

def entryInKeyOrder (entry : String × JsonValue) : String × JsonValue :=
  (entry.1, inKeyOrder entry.2)

theorem elementsInKeyOrder_eq : elementsInKeyOrder elements = elements.map inKeyOrder := by
  induction elements with
  | nil => simp [elementsInKeyOrder]
  | cons value values ih => simp [elementsInKeyOrder, ih]

theorem propertiesInKeyOrder_eq :
    propertiesInKeyOrder properties = properties.map entryInKeyOrder := by
  induction properties with
  | nil => simp [propertiesInKeyOrder]
  | cons entry properties ih =>
    obtain ⟨key, value⟩ := entry
    simp [propertiesInKeyOrder, ih, entryInKeyOrder]

theorem inKeyOrder_array : inKeyOrder (.array elements) = .array (elements.map inKeyOrder) := by
  rw [inKeyOrder, elementsInKeyOrder_eq]

theorem inKeyOrder_object : inKeyOrder (.object properties) =
    .object (sortBy Prod.fst (properties.map entryInKeyOrder)) := by
  rw [inKeyOrder, propertiesInKeyOrder_eq]

theorem rekeyedElements_iff (vs ws : List JsonValue) :
    RekeyedElements vs ws ↔ List.Forall₂ Rekeyed vs ws := by
  induction vs generalizing ws with
  | nil => rw [RekeyedElements, List.forall₂_nil_left_iff]
  | cons v vs ih =>
    rw [RekeyedElements, List.forall₂_cons_left_iff]
    constructor
    · rintro ⟨w, ws', rfl, hw, hws⟩
      exact ⟨w, ws', hw, (ih ws').1 hws, rfl⟩
    · rintro ⟨w, ws', hw, hws, rfl⟩
      exact ⟨w, ws', rfl, hw, (ih ws').2 hws⟩

/-- One property is the other, up to the order of keys in its value. -/
def RekeyedEntry (entry entry' : String × JsonValue) : Prop :=
  entry'.1 = entry.1 ∧ Rekeyed entry.2 entry'.2

theorem rekeyedProperties_iff (ps qs : Properties) :
    RekeyedProperties ps qs ↔ List.Forall₂ RekeyedEntry ps qs := by
  induction ps generalizing qs with
  | nil => rw [RekeyedProperties, List.forall₂_nil_left_iff]
  | cons p ps ih =>
    obtain ⟨key, v⟩ := p
    rw [RekeyedProperties, List.forall₂_cons_left_iff]
    constructor
    · rintro ⟨w, qs', rfl, hw, hqs⟩
      exact ⟨(key, w), qs', ⟨rfl, hw⟩, (ih qs').1 hqs, rfl⟩
    · rintro ⟨⟨key', w⟩, qs', ⟨hkey, hw⟩, hqs, rfl⟩
      cases hkey
      exact ⟨w, qs', rfl, hw, (ih qs').2 hqs⟩

end Lists

section Texts

theorem stableStringifyValue_inKeyOrder (v : JsonValue) :
    stableStringifyValue (inKeyOrder v) = stableStringifyValue v := by
  induction v using JsonValue.induction with
  | h v ih =>
    cases v with
    | array elements =>
      rw [inKeyOrder_array, stableStringifyValue, stableStringifyValue, stableElements_eq,
        stableElements_eq, List.map_map]
      congr 3
      exact List.map_congr_left fun w hw => ih w hw
    | object properties =>
      have hentries : sortBy Prod.fst (stableEntries
          (sortBy Prod.fst (properties.map entryInKeyOrder))) =
          sortBy Prod.fst (stableEntries properties) := by
        have hvalues : (properties.map entryInKeyOrder).map
            (fun entry => (entry.1, stableStringifyValue entry.2)) =
            properties.map fun entry => (entry.1, stableStringifyValue entry.2) := by
          rw [List.map_map]
          refine List.map_congr_left fun entry hentry => ?_
          exact congrArg (Prod.mk entry.1) (ih entry.2 (List.mem_map_of_mem hentry))
        have hsort : ∀ l : Properties,
            sortBy Prod.fst (l.map fun entry => (entry.1, stableStringifyValue entry.2)) =
              (sortBy Prod.fst l).map fun entry => (entry.1, stableStringifyValue entry.2) :=
          fun l => sortBy_map _ Prod.fst l
        rw [stableEntries_eq, stableEntries_eq, ← hvalues, hsort, hsort, sortBy_sortBy]
      rw [inKeyOrder_object, stableStringifyValue, stableStringifyValue, hentries]
    | _ => rfl

theorem increasing_of_pairwise : ∀ {keys : List String},
    keys.Pairwise (fun a b => precedes a b = true) → keys.Nodup → increasing keys = true
  | [], _, _ => rfl
  | [_], _, _ => rfl
  | a :: b :: keys, hpairwise, hnodup => by
    rw [List.pairwise_cons] at hpairwise
    rw [List.nodup_cons] at hnodup
    have hne : a ≠ b := fun heq => hnodup.1 (heq ▸ List.mem_cons_self)
    simp [increasing, hpairwise.1 b List.mem_cons_self, hne,
      increasing_of_pairwise hpairwise.2 hnodup.2]

theorem wellFormed_inKeyOrder (v : JsonValue) (h : v.plain = true) :
    (inKeyOrder v).wellFormed = true := by
  induction v using JsonValue.induction with
  | h v ih =>
    have hchildren : ∀ w ∈ v.children, (inKeyOrder w).wellFormed = true :=
      fun w hw => ih w hw (plain_children h w hw)
    cases v with
    | array elements =>
      rw [inKeyOrder_array, JsonValue.wellFormed, wellFormedElements_iff]
      intro w hw
      obtain ⟨w, hmem, rfl⟩ := List.mem_map.1 hw
      exact hchildren w hmem
    | object properties =>
      obtain ⟨hnodup, -⟩ := plain_object.1 h
      have hperm : ((sortBy Prod.fst (properties.map entryInKeyOrder)).map Prod.fst).Perm
          (properties.map Prod.fst) := by
        refine ((sortBy_perm Prod.fst _).map Prod.fst).trans (List.Perm.of_eq ?_)
        rw [List.map_map]
        rfl
      rw [inKeyOrder_object, JsonValue.wellFormed, Bool.and_eq_true, wellFormedProperties_iff]
      refine ⟨increasing_of_pairwise (List.pairwise_map.2 (pairwise_sortBy Prod.fst _))
        (hperm.nodup_iff.2 hnodup), fun entry hentry => ?_⟩
      obtain ⟨entry, hmem, rfl⟩ := List.mem_map.1 (mem_sortBy.1 hentry)
      exact hchildren entry.2 (List.mem_map_of_mem hmem)
    | number literal => exact h
    | _ => rfl

theorem plain_of_wellFormed (v : JsonValue) (h : v.wellFormed = true) : v.plain = true := by
  induction v using JsonValue.induction with
  | h v ih =>
    cases v with
    | array elements =>
      rw [JsonValue.wellFormed, wellFormedElements_iff] at h
      exact plain_array.2 fun w hw => ih w hw (h w hw)
    | object properties =>
      rw [JsonValue.wellFormed, Bool.and_eq_true, wellFormedProperties_iff] at h
      refine plain_object.2 ⟨nodup_of_increasing h.1, fun entry hentry => ?_⟩
      exact ih entry.2 (List.mem_map_of_mem hentry) (h.2 entry hentry)
    | number literal => exact h
    | _ => rfl

variable {v : JsonValue}

theorem plain_inKeyOrder (h : v.plain = true) : (inKeyOrder v).plain = true :=
  plain_of_wellFormed _ (wellFormed_inKeyOrder v h)

theorem inKeyOrder_inKeyOrder (h : v.plain = true) : inKeyOrder (inKeyOrder v) = inKeyOrder v := by
  have hplain := plain_inKeyOrder h
  exact stableStringifyValue_inj (wellFormed_inKeyOrder _ hplain) (wellFormed_inKeyOrder v h)
    (stableStringifyValue_inKeyOrder _)

end Texts

section Rekeying

theorem forall₂_congr_mem {α β : Type} {R S : α → β → Prop} {l : List α} {m : List β}
    (h : ∀ a ∈ l, ∀ b ∈ m, (R a b ↔ S a b)) : List.Forall₂ R l m ↔ List.Forall₂ S l m := by
  induction l generalizing m with
  | nil => rw [List.forall₂_nil_left_iff, List.forall₂_nil_left_iff]
  | cons a l ih =>
    cases m with
    | nil => exact ⟨nofun, nofun⟩
    | cons b m =>
      rw [List.forall₂_cons, List.forall₂_cons, h a List.mem_cons_self b List.mem_cons_self,
        ih fun a' ha b' hb => h a' (List.mem_cons_of_mem _ ha) b' (List.mem_cons_of_mem _ hb)]

theorem forall₂_map_eq {α β γ : Type} {f : α → γ} {g : β → γ} {l : List α} {m : List β} :
    List.Forall₂ (fun a b => f a = g b) l m ↔ l.map f = m.map g := by
  rw [← List.forall₂_eq_eq_eq, List.forall₂_map_left_iff, List.forall₂_map_right_iff]

variable {l l' : List JsonValue} {ps qs : Properties} {v w : JsonValue}

theorem rekeyed_iff (hv : v.plain = true) (hw : w.plain = true) :
    Rekeyed v w ↔ inKeyOrder v = inKeyOrder w := by
  induction v using JsonValue.induction generalizing w with
  | h v ih =>
    have hchild : ∀ a ∈ v.children, ∀ b : JsonValue, b.plain = true →
        (Rekeyed a b ↔ inKeyOrder a = inKeyOrder b) :=
      fun a ha b hb => ih a ha (plain_children hv a ha) hb
    cases v with
    | array elements =>
      have helements : ∀ elements', (JsonValue.array elements').plain = true →
          (RekeyedElements elements elements' ↔
            elements.map inKeyOrder = elements'.map inKeyOrder) := by
        intro elements' hplain
        rw [rekeyedElements_iff, ← forall₂_map_eq]
        exact forall₂_congr_mem fun a ha b hb => hchild a ha b (plain_array.1 hplain b hb)
      rw [Rekeyed, inKeyOrder_array]
      constructor
      · rintro ⟨elements', rfl, hsame⟩
        rw [inKeyOrder_array, (helements elements' hw).1 hsame]
      · intro heq
        cases w with
        | array elements' =>
          rw [inKeyOrder_array, JsonValue.array.injEq] at heq
          exact ⟨elements', rfl, (helements elements' hw).2 heq⟩
        | object properties =>
          rw [inKeyOrder_object] at heq
          cases heq
        | _ => cases heq
    | object properties =>
      have hentries : ∀ listed : Properties, (∀ entry ∈ listed, entry.2.plain = true) →
          (RekeyedProperties properties listed ↔
            properties.map entryInKeyOrder = listed.map entryInKeyOrder) := by
        intro listed hplain
        rw [rekeyedProperties_iff, ← forall₂_map_eq]
        refine forall₂_congr_mem fun a ha b hb => ?_
        rw [RekeyedEntry, hchild a.2 (List.mem_map_of_mem ha) b.2 (hplain b hb), entryInKeyOrder,
          entryInKeyOrder, Prod.mk.injEq, eq_comm]
      have hkeys : ∀ a ∈ properties.map entryInKeyOrder, ∀ b ∈ properties.map entryInKeyOrder,
          a.1 = b.1 → a = b := by
        refine List.inj_on_of_nodup_map ?_
        rw [List.map_map]
        exact (plain_object.1 hv).1
      rw [Rekeyed, inKeyOrder_object]
      constructor
      · rintro ⟨listed, properties', rfl, hsame, hperm⟩
        have hlisted : ∀ entry ∈ listed, entry.2.plain = true :=
          fun entry hentry => (plain_object.1 hw).2 entry (hperm.mem_iff.1 hentry)
        have hmap := (hentries listed hlisted).1 hsame
        have hsort := sortBy_eq_of_perm (hmap ▸ hperm.map entryInKeyOrder) hkeys
        rw [inKeyOrder_object, hsort]
      · intro heq
        cases w with
        | object properties' =>
          rw [inKeyOrder_object, JsonValue.object.injEq] at heq
          have hperm : (properties.map entryInKeyOrder).Perm (properties'.map entryInKeyOrder) :=
            (sortBy_perm Prod.fst _).symm.trans
              ((List.Perm.of_eq heq).trans (sortBy_perm Prod.fst _))
          obtain ⟨listed, hlisted, hmap⟩ := Canonical.exists_perm_map_eq hperm
          refine ⟨listed, properties', rfl, (hentries listed fun entry hentry => ?_).2 hmap.symm,
            hlisted⟩
          exact (plain_object.1 hw).2 entry (hlisted.mem_iff.1 hentry)
        | array elements =>
          rw [inKeyOrder_array] at heq
          cases heq
        | _ => cases heq
    | _ =>
      rw [Rekeyed]
      · cases w with
        | array elements => simp [inKeyOrder]
        | object properties => simp [inKeyOrder]
        | _ => simp [inKeyOrder, eq_comm]
      · nofun
      · nofun

theorem rekeyed_refl {v : JsonValue} (h : v.plain = true) : Rekeyed v v := (rekeyed_iff h h).2 rfl

/-- Two plain values have one text exactly if they are equal up to the order of keys. -/
theorem stableStringifyValue_eq_iff (hv : v.plain = true) (hw : w.plain = true) :
    stableStringifyValue v = stableStringifyValue w ↔ Rekeyed v w := by
  rw [rekeyed_iff hv hw, ← stableStringifyValue_inKeyOrder v, ← stableStringifyValue_inKeyOrder w]
  constructor
  · exact stableStringifyValue_inj (wellFormed_inKeyOrder v hv) (wellFormed_inKeyOrder w hw)
  · intro heq
    rw [heq]

/-- The same values in another order, each up to the order of its keys. -/
def Relisted (l l' : List JsonValue) : Prop := ∃ m, List.Forall₂ Rekeyed l m ∧ m.Perm l'

theorem relisted_iff (hl : ∀ v ∈ l, v.plain = true) (hl' : ∀ v ∈ l', v.plain = true) :
    Relisted l l' ↔ (l.map inKeyOrder).Perm (l'.map inKeyOrder) := by
  have hsame : ∀ m : List JsonValue, m.Perm l' →
      (List.Forall₂ Rekeyed l m ↔ l.map inKeyOrder = m.map inKeyOrder) := by
    intro m hm
    rw [← forall₂_map_eq]
    exact forall₂_congr_mem fun a ha b hb => rekeyed_iff (hl a ha) (hl' b (hm.mem_iff.1 hb))
  constructor
  · rintro ⟨m, hforall, hperm⟩
    rw [(hsame m hperm).1 hforall]
    exact hperm.map inKeyOrder
  · intro hperm
    obtain ⟨m, hm, hmap⟩ := Canonical.exists_perm_map_eq hperm
    exact ⟨m, (hsame m hm).2 hmap.symm, hm⟩

theorem inKeyOrder_sorted_iff (hl : ∀ v ∈ l, v.plain = true) (hl' : ∀ v ∈ l', v.plain = true) :
    (sortBy stableStringifyValue l).map inKeyOrder =
      (sortBy stableStringifyValue l').map inKeyOrder ↔ Relisted l l' := by
  have hsort : ∀ l : List JsonValue, (sortBy stableStringifyValue l).map inKeyOrder =
      sortBy stableStringifyValue (l.map inKeyOrder) := by
    intro l
    rw [sortBy_map]
    have hkey : stableStringifyValue ∘ inKeyOrder = stableStringifyValue :=
      funext stableStringifyValue_inKeyOrder
    rw [hkey]
  rw [relisted_iff hl hl', hsort, hsort]
  constructor
  · intro heq
    exact (sortBy_perm _ _).symm.trans ((List.Perm.of_eq heq).trans (sortBy_perm _ _))
  · intro hperm
    refine sortBy_eq_of_perm hperm fun a ha b hb hab => ?_
    obtain ⟨v, hv, rfl⟩ := List.mem_map.1 ha
    obtain ⟨w, hw, rfl⟩ := List.mem_map.1 hb
    exact stableStringifyValue_inj (wellFormed_inKeyOrder v (hl v hv))
      (wellFormed_inKeyOrder w (hl w hw)) hab

theorem eq_of_perm_of_keys (hkeys : ps.map Prod.fst = qs.map Prod.fst)
    (hnodup : (ps.map Prod.fst).Nodup) (hperm : ps.Perm qs) : ps = qs := by
  induction ps generalizing qs with
  | nil => exact hperm.nil_eq
  | cons p ps ih =>
    cases qs with
    | nil => cases hkeys
    | cons q qs =>
      rw [List.map_cons, List.map_cons, List.cons.injEq] at hkeys
      have hnodup' : ((q :: qs).map Prod.fst).Nodup := (hperm.map Prod.fst).nodup_iff.1 hnodup
      obtain rfl : p = q := List.inj_on_of_nodup_map hnodup'
        (hperm.mem_iff.1 List.mem_cons_self) List.mem_cons_self hkeys.1
      rw [ih hkeys.2 (List.nodup_cons.1 hnodup).2 hperm.cons_inv]

theorem inKeyOrder_object_iff (hkeys : ps.map Prod.fst = qs.map Prod.fst)
    (hnodup : (ps.map Prod.fst).Nodup) : inKeyOrder (.object ps) = inKeyOrder (.object qs) ↔
      ps.map (fun p => inKeyOrder p.2) = qs.map fun q => inKeyOrder q.2 := by
  rw [inKeyOrder_object, inKeyOrder_object, JsonValue.object.injEq]
  have hfst : ∀ l : Properties, (l.map entryInKeyOrder).map Prod.fst = l.map Prod.fst :=
    fun l => List.map_map
  have hsnd : ∀ l : Properties,
      (l.map entryInKeyOrder).map Prod.snd = l.map fun p => inKeyOrder p.2 := fun l => List.map_map
  constructor
  · intro heq
    have hperm : (ps.map entryInKeyOrder).Perm (qs.map entryInKeyOrder) :=
      (sortBy_perm Prod.fst _).symm.trans ((List.Perm.of_eq heq).trans (sortBy_perm Prod.fst _))
    have hsame := eq_of_perm_of_keys (by rw [hfst, hfst, hkeys]) (by rwa [hfst]) hperm
    rw [← hsnd, ← hsnd, hsame]
  · intro hvalues
    have hsame : ps.map entryInKeyOrder = qs.map entryInKeyOrder := by
      have hnames : (ps.map entryInKeyOrder).map Prod.fst = (qs.map entryInKeyOrder).map Prod.fst := by
        rw [hfst, hfst, hkeys]
      have hcontents :
          (ps.map entryInKeyOrder).map Prod.snd = (qs.map entryInKeyOrder).map Prod.snd := by
        rw [hsnd, hsnd, hvalues]
      rw [← List.zip_unzip (ps.map entryInKeyOrder), ← List.zip_unzip (qs.map entryInKeyOrder)]
      simp only [List.unzip_eq_map, hnames, hcontents]
    rw [hsame]

end Rekeying

section Records

variable {fields fields' : List (String × Option JsonValue)}

def record (fields : List (String × Option JsonValue)) : JsonValue :=
  .object (fields.filterMap fun field => field.2.map fun value => (field.1, value))

/-- Fewer keys are in the same order. -/
theorem increasing_sublist {keys keys' : List String} (hkeys : increasing keys' = true)
    (h : keys.Sublist keys') : increasing keys = true :=
  increasing_of_pairwise (((pairwise_of_increasing hkeys).imp fun h => h.1).sublist h)
    ((nodup_of_increasing hkeys).sublist h)

theorem keys_filterMap_sublist (fields : List (String × Option JsonValue)) :
    ((fields.filterMap fun field => field.2.map fun value => (field.1, value)).map
      Prod.fst).Sublist (fields.map Prod.fst) := by
  induction fields with
  | nil => exact .slnil
  | cons field fields ih =>
    obtain ⟨key, value⟩ := field
    cases value with
    | none => exact ih.cons _
    | some value => exact ih.cons_cons _

theorem record_wellFormed (hkeys : increasing (fields.map Prod.fst) = true)
    (hvalues : ∀ key value, (key, some value) ∈ fields → value.wellFormed = true) :
    (record fields).wellFormed = true := by
  rw [record, JsonValue.wellFormed, Bool.and_eq_true]
  refine ⟨increasing_sublist hkeys (keys_filterMap_sublist fields), ?_⟩
  rw [wellFormedProperties_iff]
  rintro ⟨key, value⟩ hmem
  obtain ⟨⟨name, found⟩, hfield, hvalue⟩ := List.mem_filterMap.1 hmem
  cases found with
  | none => cases hvalue
  | some found =>
    cases hvalue
    exact hvalues _ _ hfield

theorem record_inj (hkeys : fields.map Prod.fst = fields'.map Prod.fst)
    (hnodup : (fields.map Prod.fst).Nodup) (h : record fields = record fields') :
    fields = fields' := by
  have hobject := JsonValue.object.inj h
  clear h
  induction fields generalizing fields' with
  | nil => exact (List.map_eq_nil_iff.1 hkeys.symm).symm
  | cons field fields ih =>
    obtain ⟨key, value⟩ := field
    cases fields' with
    | nil => cases hkeys
    | cons field' fields' =>
      obtain ⟨key', value'⟩ := field'
      obtain ⟨rfl, hrest⟩ := List.cons.inj hkeys
      obtain ⟨hnew, hdistinct⟩ := List.nodup_cons.1 hnodup
      -- an absent field is not mistaken for a later one, whose key is another
      have hlater : ∀ (fields : List (String × Option JsonValue)) (value : JsonValue) properties,
          key ∉ fields.map Prod.fst →
          (fields.filterMap fun field => field.2.map fun value => (field.1, value)) ≠
            (key, value) :: properties := by
        intro fields value properties hkey heq
        apply hkey
        refine (keys_filterMap_sublist fields).subset ?_
        rw [heq]
        exact List.mem_cons_self
      cases value with
      | none =>
        cases value' with
        | none => rw [ih hrest hdistinct hobject]
        | some value' => exact absurd hobject (hlater fields value' _ hnew)
      | some value =>
        cases value' with
        | none => exact absurd hobject.symm (hlater fields' value _ (hrest ▸ hnew))
        | some value' =>
          obtain ⟨hvalue, htail⟩ := List.cons.inj hobject
          cases hvalue
          rw [ih hrest hdistinct htail]

end Records

section Written

/-- A type whose values are JSON values of which the text tells the value. -/
class Written (α : Type) where
  json : α → JsonValue
  wellFormed : ∀ a, (json a).wellFormed = true
  injective : ∀ a b, json a = json b → a = b

variable {α : Type} [Written α] {a b : α}

/-- `stableStringifyValue(left) === stableStringifyValue(right)`. -/
def valueEqual (left right : α) : Bool :=
  stableStringifyValue (Written.json left) = stableStringifyValue (Written.json right)

@[simp] theorem valueEqual_iff : valueEqual a b = true ↔ a = b := by
  rw [valueEqual, decide_eq_true_eq]
  constructor
  · exact fun h => Written.injective a b
      (stableStringifyValue_inj (Written.wellFormed a) (Written.wellFormed b) h)
  · rintro rfl
    rfl

theorem stableStringifyValue_json_inj
    (h : stableStringifyValue (Written.json a) = stableStringifyValue (Written.json b)) : a = b :=
  valueEqual_iff.1 (decide_eq_true h)

theorem wellFormed_string (text : String) : (JsonValue.string text).wellFormed = true := rfl

theorem string_inj (a b : String) (h : JsonValue.string a = .string b) : a = b :=
  JsonValue.string.inj h

instance : Written String where
  json := .string
  wellFormed := wellFormed_string
  injective := string_inj

theorem wellFormed_array (elements : List α) :
    (JsonValue.array (elements.map Written.json)).wellFormed = true := by
  rw [JsonValue.wellFormed, wellFormedElements_iff]
  intro value hmem
  obtain ⟨element, -, rfl⟩ := List.mem_map.1 hmem
  exact Written.wellFormed element

theorem array_inj (as bs : List α)
    (h : JsonValue.array (as.map Written.json) = .array (bs.map Written.json)) : as = bs :=
  List.map_injective_iff.2 (fun a b => Written.injective a b) (JsonValue.array.inj h)

instance : Written (List α) where
  json elements := .array (elements.map Written.json)
  wellFormed := wellFormed_array
  injective := array_inj

theorem wellFormed_boolean (value : Bool) : (JsonValue.boolean value).wellFormed = true := rfl

theorem boolean_inj (a b : Bool) (h : JsonValue.boolean a = .boolean b) : a = b :=
  JsonValue.boolean.inj h

instance : Written Bool where
  json := .boolean
  wellFormed := wellFormed_boolean
  injective := boolean_inj

/-- `left === right` if one of them is not there, otherwise whether the values are equal. -/
def optionalEqual (left right : Option α) : Bool :=
  match left, right with
  | some left, some right => valueEqual left right
  | left, right => left.isNone && right.isNone

@[simp] theorem optionalEqual_iff {left right : Option α} :
    optionalEqual left right = true ↔ left = right := by
  cases left <;> cases right <;> simp [optionalEqual]

abbrev FieldValue : Type :=
  { value : Option JsonValue // ∀ found, value = some found → found.wellFormed = true }

theorem wellFormed_of_map_json (value : Option α) (found : JsonValue)
    (h : value.map Written.json = some found) : found.wellFormed = true := by
  obtain ⟨a, -, rfl⟩ := Option.map_eq_some_iff.1 h
  exact Written.wellFormed a

def field (value : Option α) : FieldValue := ⟨value.map Written.json, wellFormed_of_map_json value⟩

@[simp] theorem field_inj {value value' : Option α} : field value = field value' ↔ value = value' := by
  constructor
  · intro h
    exact Option.map_injective (fun a b => Written.injective a b) (congrArg Subtype.val h)
  · rintro rfl
    rfl

end Written

section Fields

variable {α : Type}

/-- How a value is written: the keys of its fields, in order, and what the fields hold. -/
structure Fields (α : Type) where
  keys : List String
  values : α → List FieldValue

structure Fields.Faithful (fields : Fields α) : Prop where
  keys : increasing fields.keys = true
  length : ∀ a, (fields.values a).length = fields.keys.length
  injective : ∀ a b, fields.values a = fields.values b → a = b

variable {fields : Fields α}

def Fields.json (fields : Fields α) (a : α) : JsonValue :=
  record (fields.keys.zip ((fields.values a).map Subtype.val))

theorem Fields.Faithful.map_fst (h : fields.Faithful) (a : α) :
    (fields.keys.zip ((fields.values a).map Subtype.val)).map Prod.fst = fields.keys := by
  apply List.map_fst_zip
  rw [List.length_map, h.length]

theorem Fields.Faithful.map_snd (h : fields.Faithful) (a : α) :
    (fields.keys.zip ((fields.values a).map Subtype.val)).map Prod.snd =
      (fields.values a).map Subtype.val := by
  apply List.map_snd_zip
  rw [List.length_map, h.length]

theorem Fields.Faithful.wellFormed_json (h : fields.Faithful) (a : α) :
    (fields.json a).wellFormed = true := by
  apply record_wellFormed
  · rw [h.map_fst]
    exact h.keys
  · intro key value hmem
    obtain ⟨found, -, hfound⟩ := List.mem_map.1 (List.of_mem_zip hmem).2
    exact found.2 value hfound

theorem Fields.Faithful.json_inj (h : fields.Faithful) (a b : α) (hjson : fields.json a = fields.json b) :
    a = b := by
  have hzip : fields.keys.zip ((fields.values a).map Subtype.val) =
      fields.keys.zip ((fields.values b).map Subtype.val) := by
    apply record_inj _ _ hjson
    · rw [h.map_fst, h.map_fst]
    · rw [h.map_fst]
      exact nodup_of_increasing h.keys
  have hvalues := congrArg (List.map Prod.snd) hzip
  rw [h.map_snd, h.map_snd] at hvalues
  exact h.injective a b (List.map_injective_iff.2 Subtype.val_injective hvalues)

@[reducible] def Fields.Faithful.written (h : fields.Faithful) : Written α where
  json := fields.json
  wellFormed := h.wellFormed_json
  injective := h.json_inj

end Fields

section Members

/-- `item[name]`. -/
def member? (item : JsonValue) (name : String) : Option JsonValue :=
  match item with
  | .object properties => property properties name
  | _ => none

/-- `item[name]`, for a property that an item always has. -/
def member (item : JsonValue) (name : String) : JsonValue := (member? item name).getD .null

/-- `item[name]`, for a property that is a string. -/
def textMember (item : JsonValue) (name : String) : String := textOf (member item name)

def elementsOf : JsonValue → List JsonValue
  | .array elements => elements
  | _ => []

/-- `item[name]`, for a property that is an array. -/
def elementsMember (item : JsonValue) (name : String) : List JsonValue :=
  elementsOf (member item name)

end Members

section KeyOrder

variable {v : JsonValue} {properties : Properties}

theorem property_eq_some_iff (h : (properties.map Prod.fst).Nodup) {name : String}
    {value : JsonValue} : property properties name = some value ↔ (name, value) ∈ properties := by
  rw [property, Option.map_eq_some_iff]
  constructor
  · rintro ⟨entry, hfind, rfl⟩
    obtain ⟨hmem, rfl⟩ := (TableRows.find?_eq_some_iff h).1 hfind
    exact hmem
  · intro hmem
    exact ⟨(name, value), (TableRows.find?_eq_some_iff h).2 ⟨hmem, rfl⟩, rfl⟩

theorem property_inKeyOrder (h : (properties.map Prod.fst).Nodup) (name : String) :
    property (sortBy Prod.fst (properties.map entryInKeyOrder)) name =
      (property properties name).map inKeyOrder := by
  have hkeys : ((properties.map entryInKeyOrder).map Prod.fst) = properties.map Prod.fst := by
    rw [List.map_map]
    rfl
  have hnodup : ((sortBy Prod.fst (properties.map entryInKeyOrder)).map Prod.fst).Nodup := by
    rw [((sortBy_perm Prod.fst _).map Prod.fst).nodup_iff, hkeys]
    exact h
  apply Option.ext
  intro value
  rw [property_eq_some_iff hnodup, mem_sortBy, List.mem_map, Option.map_eq_some_iff]
  constructor
  · rintro ⟨entry, hentry, heq⟩
    obtain ⟨rfl, rfl⟩ := Prod.mk.inj heq
    exact ⟨entry.2, (property_eq_some_iff h).2 hentry, rfl⟩
  · rintro ⟨value, hvalue, rfl⟩
    exact ⟨(name, value), (property_eq_some_iff h).1 hvalue, rfl⟩

theorem member?_inKeyOrder (h : v.plain = true) (name : String) :
    member? (inKeyOrder v) name = (member? v name).map inKeyOrder := by
  cases v with
  | object properties =>
    rw [inKeyOrder_object]
    exact property_inKeyOrder (plain_object.1 h).1 name
  | array elements =>
    rw [inKeyOrder_array]
    rfl
  | _ => rfl

theorem member_inKeyOrder (h : v.plain = true) (name : String) :
    member (inKeyOrder v) name = inKeyOrder (member v name) := by
  rw [member, member, member?_inKeyOrder h]
  cases member? v name <;> rfl

theorem textOf_inKeyOrder (v : JsonValue) : textOf (inKeyOrder v) = textOf v := by
  cases v with
  | object properties =>
    rw [inKeyOrder_object]
    rfl
  | array elements =>
    rw [inKeyOrder_array]
    rfl
  | _ => rfl

theorem textMember_inKeyOrder (h : v.plain = true) (name : String) :
    textMember (inKeyOrder v) name = textMember v name := by
  rw [textMember, member_inKeyOrder h, textOf_inKeyOrder, textMember]

theorem elementsOf_inKeyOrder (v : JsonValue) :
    elementsOf (inKeyOrder v) = (elementsOf v).map inKeyOrder := by
  cases v with
  | object properties =>
    rw [inKeyOrder_object]
    rfl
  | array elements =>
    rw [inKeyOrder_array]
    rfl
  | _ => rfl

theorem plain_member (h : v.plain = true) (name : String) : (member v name).plain = true := by
  cases v with
  | object properties =>
    have hmember : member (.object properties) name = (property properties name).getD .null := rfl
    rw [hmember]
    cases hvalue : property properties name with
    | none => rfl
    | some value =>
      have hmem := (property_eq_some_iff (plain_object.1 h).1).1 hvalue
      exact (plain_object.1 h).2 (name, value) hmem
  | _ => rfl

theorem plain_elementsOf (h : v.plain = true) : ∀ w ∈ elementsOf v, w.plain = true := by
  cases v with
  | array elements => exact plain_array.1 h
  | _ => exact nofun

end KeyOrder

section Reading

def skipSpace : List Char → List Char
  | c :: cs => if c = ' ' ∨ c = '\t' ∨ c = '\n' ∨ c = '\r' then skipSpace cs else c :: cs
  | [] => []

/-- A text up to its closing quote, and what follows it. -/
def readText : ℕ → List Char → Option (List Char × List Char)
  | 0, _ => none
  | n + 1, cs =>
    match unescape cs with
    | some (c, rest) => (readText n rest).map fun read => (c :: read.1, read.2)
    | none =>
      match cs with
      | '"' :: rest => some ([], rest)
      | _ => none

def readNumber (cs : List Char) : Option (JsonValue × List Char) :=
  if cs.takeWhile isNumeric = [] then none
  else some (.number (String.ofList (cs.takeWhile isNumeric)), cs.dropWhile isNumeric)

mutual

def readValue : ℕ → List Char → Option (JsonValue × List Char)
  | 0, _ => none
  | n + 1, cs =>
    match skipSpace cs with
    | 'n' :: 'u' :: 'l' :: 'l' :: rest => some (.null, rest)
    | 't' :: 'r' :: 'u' :: 'e' :: rest => some (.boolean true, rest)
    | 'f' :: 'a' :: 'l' :: 's' :: 'e' :: rest => some (.boolean false, rest)
    | '"' :: rest => (readText n rest).map fun read => (.string (String.ofList read.1), read.2)
    | '[' :: rest =>
      match skipSpace rest with
      | ']' :: rest => some (.array [], rest)
      | rest => (readElements n rest).map fun read => (.array read.1, read.2)
    | '\x7b' :: rest =>
      match skipSpace rest with
      | '\x7d' :: rest => some (.object [], rest)
      | rest => (readProperties n rest).map fun read => (.object read.1, read.2)
    | rest => readNumber rest

/-- The elements up to the closing bracket, at least one. -/
def readElements : ℕ → List Char → Option (List JsonValue × List Char)
  | 0, _ => none
  | n + 1, cs =>
    match readValue n cs with
    | none => none
    | some (value, rest) =>
      match skipSpace rest with
      | ',' :: rest => (readElements n rest).map fun read => (value :: read.1, read.2)
      | ']' :: rest => some ([value], rest)
      | _ => none

/-- The properties up to the closing brace, at least one. -/
def readProperties : ℕ → List Char → Option (Properties × List Char)
  | 0, _ => none
  | n + 1, cs =>
    match skipSpace cs with
    | '"' :: rest =>
      match readText n rest with
      | none => none
      | some (key, rest) =>
        match skipSpace rest with
        | ':' :: rest =>
          match readValue n rest with
          | none => none
          | some (value, rest) =>
            match skipSpace rest with
            | ',' :: rest =>
              (readProperties n rest).map fun read => ((String.ofList key, value) :: read.1, read.2)
            | '\x7d' :: rest => some ([(String.ofList key, value)], rest)
            | _ => none
        | _ => none
    | _ => none

end

/-- `JSON.parse`. -/
def jsonParse (text : String) : Option JsonValue :=
  match readValue (text.toList.length + 1) text.toList with
  | some (value, rest) => if skipSpace rest = [] then some value else none
  | none => none

end Reading

section Scalars

theorem unescape_quote (cs : List Char) : unescape ('"' :: cs) = none := by
  rw [unescape]

theorem readText_escaped : ∀ (cs : List Char) {n : ℕ} (r : List Char), cs.length < n →
    readText n ((cs.flatMap fun c => (escape c).toList) ++ '"' :: r) = some (cs, r)
  | _, 0, _, h => absurd h (Nat.not_lt_zero _)
  | [], n + 1, r, _ => by
    rw [List.flatMap_nil, List.nil_append, readText, unescape_quote]
  | c :: cs, n + 1, r, h => by
    have ih := readText_escaped cs r (Nat.lt_of_succ_lt_succ h)
    rw [List.flatMap_cons, List.append_assoc, readText, unescape_escape]
    · simp only [ih, Option.map_some]
    · exact fun rest => escape_ne_quote c _ rest

theorem readNumber_append {literal : List Char} (hne : literal ≠ [])
    (hnumeric : literal.all isNumeric = true) {r : List Char} (hr : Ends r) :
    readNumber (literal ++ r) = some (.number (String.ofList literal), r) := by
  have hall : ∀ c ∈ literal, isNumeric c = true := List.all_eq_true.1 hnumeric
  have hnone : r.takeWhile isNumeric = [] ∧ r.dropWhile isNumeric = r := by
    cases r with
    | nil => exact ⟨rfl, rfl⟩
    | cons c cs =>
      have hc := hr c rfl
      exact ⟨List.takeWhile_cons_of_neg (by simp [hc]), List.dropWhile_cons_of_neg (by simp [hc])⟩
  rw [readNumber, List.takeWhile_append_of_pos hall, List.dropWhile_append_of_pos hall, hnone.1,
    hnone.2, List.append_nil, if_neg hne]

theorem readValue_numeric {c : Char} (h : isNumeric c = true) (cs : List Char) (n : ℕ) :
    readValue (n + 1) (c :: cs) = readNumber (c :: cs) := by
  have hne : ∀ d : Char, isNumeric d = false → c ≠ d := by
    rintro d hd rfl
    rw [h] at hd
    cases hd
  have hspace : skipSpace (c :: cs) = c :: cs := by
    rw [skipSpace, if_neg]
    rintro (heq | heq | heq | heq)
    · exact hne _ (by decide) heq
    · exact hne _ (by decide) heq
    · exact hne _ (by decide) heq
    · exact hne _ (by decide) heq
  rw [readValue, hspace]
  split
  · next heq => exact absurd (List.cons.inj heq).1 (hne _ (by decide))
  · next heq => exact absurd (List.cons.inj heq).1 (hne _ (by decide))
  · next heq => exact absurd (List.cons.inj heq).1 (hne _ (by decide))
  · next heq => exact absurd (List.cons.inj heq).1 (hne _ (by decide))
  · next heq => exact absurd (List.cons.inj heq).1 (hne _ (by decide))
  · next heq => exact absurd (List.cons.inj heq).1 (hne _ (by decide))
  · rfl

end Scalars

section Texts

variable {v : JsonValue}

theorem skipSpace_text (h : v.wellFormed = true) (r : List Char) :
    skipSpace ((stableStringifyValue v).toList ++ r) = (stableStringifyValue v).toList ++ r := by
  obtain ⟨c, cs, hcs, hkind⟩ := lead_stableStringifyValue h
  have hne : ∀ d : Char, kindOfLead d = 7 → c ≠ d := by
    rintro d hd rfl
    rw [hd] at hkind
    cases v with
    | boolean value => cases value <;> cases hkind
    | _ => cases hkind
  rw [hcs, List.cons_append, skipSpace, if_neg]
  rintro (heq | heq | heq | heq)
  · exact hne _ (by decide) heq
  · exact hne _ (by decide) heq
  · exact hne _ (by decide) heq
  · exact hne _ (by decide) heq

theorem skipSpace_quote (text : String) (r : List Char) :
    skipSpace ((quote text).toList ++ r) = (quote text).toList ++ r := by
  simp [toList_quote, skipSpace]

theorem length_le_escaped (cs : List Char) :
    cs.length ≤ (cs.flatMap fun c => (escape c).toList).length := by
  induction cs with
  | nil => exact Nat.le_refl _
  | cons c cs ih =>
    have hne : (escape c).toList ≠ [] := by
      intro heq
      have hsome := unescape_escape c []
      rw [heq] at hsome
      cases hsome
    have hpos := List.length_pos_iff.2 hne
    rw [List.flatMap_cons, List.length_append, List.length_cons]
    omega

theorem length_afterCommas_cons (part : String) (parts : List String) :
    (afterCommas (part :: parts)).length =
      part.toList.length + (afterCommas parts).length + 1 := by
  simp only [afterCommas, List.flatMap_cons, List.length_append, List.length_cons]
  omega

mutual

theorem readValue_text : ∀ (v : JsonValue) {n : ℕ} {r : List Char}, v.wellFormed = true →
    Ends r → (stableStringifyValue v).toList.length < n →
    readValue n ((stableStringifyValue v).toList ++ r) = some (v, r)
  | _, 0, _, _, _, h => by omega
  | .null, n + 1, r, _, _, _ => rfl
  | .boolean true, n + 1, r, _, _, _ => rfl
  | .boolean false, n + 1, r, _, _, _ => rfl
  | .number literal, n + 1, r, hv, hr, _ => by
    simp only [JsonValue.wellFormed, Bool.and_eq_true, bne_iff_ne, ne_eq] at hv
    have htext : (stableStringifyValue (.number literal)).toList = literal.toList := rfl
    have hread := readNumber_append hv.1 hv.2 hr
    obtain ⟨c, cs, hcs⟩ := List.exists_cons_of_ne_nil hv.1
    have hc : isNumeric c = true := by
      rw [hcs, List.all_cons, Bool.and_eq_true] at hv
      exact hv.2.1
    rw [String.ofList_toList] at hread
    rw [htext, ← hread, hcs, List.cons_append, readValue_numeric hc]
  | .string text, n + 1, r, _, _, h => by
    have htext : (stableStringifyValue (.string text)).toList = (quote text).toList := rfl
    rw [htext, toList_quote] at h ⊢
    have hlength : text.toList.length < n := by
      have hle := length_le_escaped text.toList
      simp only [List.length_append, List.length_cons, List.length_nil] at h
      omega
    have hread := readText_escaped text.toList r hlength
    have hskip : skipSpace ('"' :: (text.toList.flatMap fun c => (escape c).toList) ++ ['"'] ++ r) =
        '"' :: ((text.toList.flatMap fun c => (escape c).toList) ++ '"' :: r) := by
      simp [skipSpace]
    rw [readValue, hskip]
    simp only [hread, Option.map_some, String.ofList_toList]
  | .array [], n + 1, r, _, _, _ => rfl
  | .array (v :: vs), n + 1, r, hv, _, h => by
    rw [JsonValue.wellFormed, wellFormedElements, Bool.and_eq_true] at hv
    have htext := toList_stableArray (v :: vs)
    have hparts : (commaSeparated (stableElements (v :: vs))).toList =
        (stableStringifyValue v).toList ++ afterCommas (stableElements vs) := by
      rw [stableElements, toList_commaSeparated_cons]
    have hlength : ((stableStringifyValue v).toList ++
        afterCommas (stableElements vs)).length + 1 < n := by
      have hwhole := congrArg List.length (htext [])
      rw [List.append_nil, hparts] at hwhole
      simp only [List.length_append, List.length_cons, List.length_nil] at hwhole h ⊢
      omega
    have hread := readElements_text v vs hv.1 hv.2 hlength (r := r)
    have hskip := skipSpace_text hv.1 (afterCommas (stableElements vs) ++ ']' :: r)
    have hopen : ∀ cs, skipSpace ('[' :: cs) = '[' :: cs := fun cs => by simp [skipSpace]
    rw [htext r, hparts, List.append_assoc, readValue, hopen]
    simp only [hskip]
    split
    · next hclose => exact absurd hclose (stableStringifyValue_append_ne hv.1 _ _)
    · rw [hread]
      rfl
  | .object [], n + 1, r, _, _, _ => rfl
  | .object ((key, v) :: ps), n + 1, r, hv, _, h => by
    rw [JsonValue.wellFormed, Bool.and_eq_true, wellFormedProperties, Bool.and_eq_true] at hv
    have htext : ∀ r, (stableStringifyValue (.object ((key, v) :: ps))).toList ++ r = '\x7b' ::
        ((quote key).toList ++ ':' :: ((stableStringifyValue v).toList ++
          (afterCommas ((stableEntries ps).map entryText) ++ '\x7d' :: r))) := by
      intro r
      rw [toList_stableObject, sortBy_entries hv.1, stableEntries, List.map_cons,
        toList_commaSeparated_cons, List.append_assoc, toList_entryText]
    have hlength : (quote key).toList.length + (stableStringifyValue v).toList.length +
        (afterCommas ((stableEntries ps).map entryText)).length + 2 < n := by
      have hwhole := congrArg List.length (htext [])
      rw [List.append_nil] at hwhole
      simp only [List.length_append, List.length_cons, List.length_nil] at hwhole
      omega
    have hread := readProperties_text key v ps hv.2.1 hv.2.2 hlength (r := r)
    have hopen : ∀ cs, skipSpace ('\x7b' :: cs) = '\x7b' :: cs := fun cs => by simp [skipSpace]
    have hskip := skipSpace_quote key (':' :: ((stableStringifyValue v).toList ++
      (afterCommas ((stableEntries ps).map entryText) ++ '\x7d' :: r)))
    rw [htext r, readValue, hopen]
    simp only [hskip]
    split
    · next hclose =>
      rw [toList_quote] at hclose
      exact absurd (List.cons.inj hclose).1 (by decide)
    · rw [hread]
      rfl

theorem readElements_text : ∀ (v : JsonValue) (vs : List JsonValue) {n : ℕ} {r : List Char},
    v.wellFormed = true → wellFormedElements vs = true →
    ((stableStringifyValue v).toList ++ afterCommas (stableElements vs)).length + 1 < n →
    readElements n ((stableStringifyValue v).toList ++
      (afterCommas (stableElements vs) ++ ']' :: r)) = some (v :: vs, r)
  | _, _, 0, _, _, _, h => by omega
  | v, [], n + 1, r, hv, _, h => by
    have hlength : (stableStringifyValue v).toList.length < n := by
      rw [List.length_append] at h
      omega
    have hread := readValue_text v (r := ']' :: r) hv (by simp [Ends, isNumeric]) hlength
    rw [stableElements, afterCommas, List.flatMap_nil, List.nil_append, readElements, hread]
    simp [skipSpace]
  | v, w :: vs, n + 1, r, hv, hvs, h => by
    rw [wellFormedElements, Bool.and_eq_true] at hvs
    rw [stableElements, List.length_append, length_afterCommas_cons] at h
    have hends : Ends (afterCommas (stableElements (w :: vs)) ++ ']' :: r) :=
      ends_afterCommas _ (by decide) r
    have hread := readValue_text v hv hends (n := n) (by omega)
    have hrest := readElements_text w vs hvs.1 hvs.2 (n := n) (r := r) (by
      rw [List.length_append]
      omega)
    rw [stableElements] at hread
    rw [stableElements, readElements, hread]
    simp only [afterCommas_cons]
    simp [skipSpace, hrest]

theorem readProperties_text : ∀ (key : String) (v : JsonValue) (ps : Properties) {n : ℕ}
    {r : List Char}, v.wellFormed = true → wellFormedProperties ps = true →
    (quote key).toList.length + (stableStringifyValue v).toList.length +
      (afterCommas ((stableEntries ps).map entryText)).length + 2 < n →
    readProperties n ((quote key).toList ++ ':' :: ((stableStringifyValue v).toList ++
      (afterCommas ((stableEntries ps).map entryText) ++ '\x7d' :: r))) = some ((key, v) :: ps, r)
  | key, v, ps, 0, r, _, _, h => by omega
  | key, v, ps, n + 1, r, hv, hps, h => by
    have hkey : readText n ((key.toList.flatMap fun c => (escape c).toList) ++ '"' :: (':' ::
        ((stableStringifyValue v).toList ++
          (afterCommas ((stableEntries ps).map entryText) ++ '\x7d' :: r)))) =
        some (key.toList, ':' :: ((stableStringifyValue v).toList ++
          (afterCommas ((stableEntries ps).map entryText) ++ '\x7d' :: r))) := by
      refine readText_escaped key.toList _ ?_
      have hle := length_le_escaped key.toList
      rw [toList_quote] at h
      simp only [List.length_append, List.length_cons, List.length_nil] at h
      omega
    have hends : Ends (afterCommas ((stableEntries ps).map entryText) ++ '\x7d' :: r) :=
      ends_afterCommas _ (by decide) r
    have hvalue := readValue_text v hv hends (n := n) (by omega)
    have hcolon : ∀ cs, skipSpace (':' :: cs) = ':' :: cs := fun cs => by simp [skipSpace]
    rw [readProperties, skipSpace_quote, toList_quote]
    simp only [List.cons_append, List.append_assoc, List.nil_append, hkey, hcolon, hvalue,
      String.ofList_toList]
    match ps, hps, h with
    | [], _, _ => simp [skipSpace, stableEntries, afterCommas]
    | (key', w) :: ps, hps, h =>
      rw [wellFormedProperties, Bool.and_eq_true] at hps
      rw [stableEntries, List.map_cons, length_afterCommas_cons] at h
      have hlength := congrArg List.length (toList_entryText key' (stableStringifyValue w) [])
      simp only [List.length_append, List.length_cons, List.length_nil] at hlength
      have hrest := readProperties_text key' w ps hps.1 hps.2 (n := n) (r := r) (by omega)
      rw [stableEntries, List.map_cons, afterCommas_cons, toList_entryText]
      simp [skipSpace, hrest]

end

/-- What is printed is read back. -/
theorem jsonParse_wellFormed (h : v.wellFormed = true) :
    jsonParse (stableStringifyValue v) = some v := by
  have hread := readValue_text v (r := []) h nofun (Nat.lt_succ_self _)
  rw [List.append_nil] at hread
  rw [jsonParse, hread]
  rfl

/-- What is printed is read back with the keys of objects in order. -/
theorem jsonParse_stableStringifyValue (h : v.plain = true) :
    jsonParse (stableStringifyValue v) = some (inKeyOrder v) := by
  rw [← stableStringifyValue_inKeyOrder]
  exact jsonParse_wellFormed (wellFormed_inKeyOrder v h)

/-- Two values have one text exactly up to the order of their keys, and the value that is read back
has the text that it was read from. -/
theorem stableStringifyValue_canonical (hv : v.plain = true) (hw : w.plain = true) :
    (stableStringifyValue v = stableStringifyValue w ↔ Rekeyed v w) ∧
      ∃ parsed, jsonParse (stableStringifyValue v) = some parsed ∧ Rekeyed v parsed ∧
        stableStringifyValue parsed = stableStringifyValue v := by
  have htext := stableStringifyValue_inKeyOrder v
  exact ⟨stableStringifyValue_eq_iff hv hw, inKeyOrder v, jsonParse_stableStringifyValue hv,
    (stableStringifyValue_eq_iff hv (plain_inKeyOrder hv)).1 htext.symm, htext⟩

theorem stableStringifyValue_canonical_swapped :
    let v := JsonValue.object [("b", .null), ("a", .number "1")]
    let w := JsonValue.object [("a", .number "1"), ("b", .null)]
    (stableStringifyValue v = stableStringifyValue w ↔ Rekeyed v w) ∧
      ∃ parsed, jsonParse (stableStringifyValue v) = some parsed ∧ Rekeyed v parsed ∧
        stableStringifyValue parsed = stableStringifyValue v :=
  stableStringifyValue_canonical (by decide) (by decide)

end Texts

end Mottainai.JsonValues
