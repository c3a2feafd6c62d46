import Mathlib.Tactic.IntervalCases
import Mottainai.JsonValues

/-!
# Orders, texts and canonical forms

JavaScript compares strings by their UTF-16 code units, and sorting by a key is stable.
`stableStringifyValue` prints the properties of an object in the order of their keys: a well formed
value can be read off its text, also where the text is followed by more. A `Canonical` form sorts
some lists that are inside a value. It comes with the relation of being listed in another order, and
with the exact condition under which that order makes no difference: no list that is sorted has two
different items with one key.
-/

namespace Mottainai.JsonValues

section Order

theorem lexicographic_total : ∀ as bs : List ℕ, lexicographic as bs ∨ lexicographic bs as
  | [], _ => Or.inl (by simp [lexicographic])
  | _ :: _, [] => Or.inr (by simp [lexicographic])
  | a :: as, b :: bs => by
    simp only [lexicographic, Bool.or_eq_true, decide_eq_true_eq, Bool.and_eq_true]
    rcases lt_trichotomy a b with h | h | h
    · exact Or.inl (Or.inl h)
    · exact (lexicographic_total as bs).imp (fun hle => Or.inr ⟨h, hle⟩)
        fun hle => Or.inr ⟨h.symm, hle⟩
    · exact Or.inr (Or.inl h)

theorem lexicographic_antisymm : ∀ as bs : List ℕ,
    lexicographic as bs = true → lexicographic bs as = true → as = bs
  | [], [], _, _ => rfl
  | [], _ :: _, _, h => by simp [lexicographic] at h
  | _ :: _, [], h, _ => by simp [lexicographic] at h
  | a :: as, b :: bs, h, h' => by
    simp only [lexicographic, Bool.or_eq_true, decide_eq_true_eq, Bool.and_eq_true] at h h'
    rcases h with h | ⟨rfl, h⟩
    · rcases h' with h' | ⟨rfl, -⟩ <;> omega
    · rcases h' with h' | ⟨-, h'⟩
      · omega
      · rw [lexicographic_antisymm as bs h h']

theorem lexicographic_trans : ∀ as bs cs : List ℕ,
    lexicographic as bs = true → lexicographic bs cs = true → lexicographic as cs = true
  | [], _, _, _, _ => by simp [lexicographic]
  | _ :: _, [], _, h, _ => by simp [lexicographic] at h
  | _ :: _, _ :: _, [], _, h => by simp [lexicographic] at h
  | a :: as, b :: bs, c :: cs, h, h' => by
    simp only [lexicographic, Bool.or_eq_true, decide_eq_true_eq, Bool.and_eq_true] at h h' ⊢
    rcases h with h | ⟨rfl, h⟩
    · rcases h' with h' | ⟨rfl, -⟩
      · exact Or.inl (h.trans h')
      · exact Or.inl h
    · rcases h' with h' | ⟨rfl, h'⟩
      · exact Or.inl h'
      · exact Or.inr ⟨rfl, lexicographic_trans as bs cs h h'⟩

/-- A character is no half of a surrogate pair. -/
theorem toNat_not_surrogate (c : Char) :
    c.toNat < 0xD800 ∨ 0xDFFF < c.toNat ∧ c.toNat < 0x110000 := c.valid

/-- The first character of a text can be read off its code units. -/
theorem utf16_append_inj {c c' : Char} {as bs : List ℕ} (h : utf16 c ++ as = utf16 c' ++ bs) :
    c = c' ∧ as = bs := by
  have hc := toNat_not_surrogate c
  have hc' := toNat_not_surrogate c'
  have hnat : c.toNat = c'.toNat ∧ as = bs := by
    unfold utf16 at h
    split_ifs at h with h1 h2 h2
    · simpa using h
    · simp only [List.cons_append, List.nil_append, List.cons.injEq] at h
      omega
    · simp only [List.cons_append, List.nil_append, List.cons.injEq] at h
      omega
    · simp only [List.cons_append, List.nil_append, List.cons.injEq] at h
      exact ⟨by omega, h.2.2⟩
  exact ⟨Char.toNat_inj.1 hnat.1, hnat.2⟩

theorem flatMap_utf16_injective : ∀ cs ds : List Char,
    cs.flatMap utf16 = ds.flatMap utf16 → cs = ds
  | [], [], _ => rfl
  | [], d :: ds, h => by
    have hd : utf16 d ≠ [] := by unfold utf16; split_ifs <;> simp
    simp [hd] at h
  | c :: cs, [], h => by
    have hc : utf16 c ≠ [] := by unfold utf16; split_ifs <;> simp
    simp [hc] at h
  | c :: cs, d :: ds, h => by
    rw [List.flatMap_cons, List.flatMap_cons] at h
    obtain ⟨rfl, hrest⟩ := utf16_append_inj h
    rw [flatMap_utf16_injective cs ds hrest]

theorem precedes_total (a b : String) : precedes a b = true ∨ precedes b a = true :=
  lexicographic_total _ _

theorem precedes_refl (a : String) : precedes a a = true := (precedes_total a a).elim id id

theorem precedes_trans {a b c : String} (h : precedes a b = true) (h' : precedes b c = true) :
    precedes a c = true := lexicographic_trans _ _ _ h h'

theorem precedes_antisymm {a b : String} (h : precedes a b = true) (h' : precedes b a = true) :
    a = b :=
  String.toList_inj.1 (flatMap_utf16_injective _ _ (lexicographic_antisymm _ _ h h'))

theorem append_separator_inj {c : Char} {xs ys as bs : List Char} (hxs : c ∉ xs) (hys : c ∉ ys)
    (h : xs ++ c :: as = ys ++ c :: bs) : xs = ys ∧ as = bs := by
  induction xs generalizing ys with
  | nil =>
    cases ys with
    | nil => exact ⟨rfl, (List.cons.inj h).2⟩
    | cons y ys => exact absurd ((List.cons.inj h).1 ▸ List.mem_cons_self) hys
  | cons x xs ih =>
    cases ys with
    | nil => exact absurd ((List.cons.inj h).1 ▸ List.mem_cons_self) hxs
    | cons y ys =>
      obtain ⟨rfl, htail⟩ := List.cons.inj h
      obtain ⟨rfl, rfl⟩ := ih (fun hmem => hxs (List.mem_cons_of_mem _ hmem))
        (fun hmem => hys (List.mem_cons_of_mem _ hmem)) htail
      exact ⟨rfl, rfl⟩

end Order

section Sorting

variable {α : Type} {key : α → String} {l l' : List α} {a b : α}

/-- `items.sort((left, right) => compareText(key(left), key(right)))`. -/
def sortBy (key : α → String) (items : List α) : List α :=
  items.insertionSort fun left right => precedes (key left) (key right)

theorem sortBy_perm (key : α → String) (l : List α) : (sortBy key l).Perm l :=
  List.perm_insertionSort _ l

@[simp] theorem mem_sortBy : a ∈ sortBy key l ↔ a ∈ l := (sortBy_perm key l).mem_iff

theorem pairwise_sortBy (key : α → String) (l : List α) :
    (sortBy key l).Pairwise fun left right => precedes (key left) (key right) = true := by
  have : Std.Total fun left right : α => precedes (key left) (key right) = true :=
    ⟨fun _ _ => precedes_total _ _⟩
  have : IsTrans α fun left right => precedes (key left) (key right) = true :=
    ⟨fun _ _ _ => precedes_trans⟩
  exact List.pairwise_insertionSort _ l

theorem sortBy_map {β : Type} (f : α → β) (key : β → String) (l : List α) :
    sortBy key (l.map f) = (sortBy (key ∘ f) l).map f :=
  (List.map_insertionSort (fun a b => precedes (key (f a)) (key (f b)) = true)
    (fun a b => precedes (key a) (key b) = true) f l fun _ _ _ _ => Iff.rfl).symm

theorem sortBy_sortBy (key : α → String) (l : List α) : sortBy key (sortBy key l) = sortBy key l :=
  (pairwise_sortBy key l).insertionSort_eq

/-- The order of the items does not matter, where items with one key are equal. -/
theorem sortBy_eq_of_perm (hperm : l.Perm l') (hkey : ∀ a ∈ l, ∀ b ∈ l, key a = key b → a = b) :
    sortBy key l = sortBy key l' := by
  refine List.Perm.eq_of_pairwise ?_ (pairwise_sortBy key l) (pairwise_sortBy key l')
    (((sortBy_perm key l).trans hperm).trans (sortBy_perm key l').symm)
  intro a b ha hb hab hba
  rw [mem_sortBy] at ha hb
  exact hkey a ha b (hperm.mem_iff.2 hb) (precedes_antisymm hab hba)

/-- The items with one key stay in their order. -/
theorem filter_sortBy (key : α → String) (l : List α) (k : String) :
    (sortBy key l).filter (key · = k) = l.filter (key · = k) := by
  have : Std.Total fun left right : α => precedes (key left) (key right) = true :=
    ⟨fun _ _ => precedes_total _ _⟩
  have : IsTrans α fun left right => precedes (key left) (key right) = true :=
    ⟨fun _ _ _ => precedes_trans⟩
  have hpairwise : (l.filter (key · = k)).Pairwise
      fun left right => precedes (key left) (key right) = true := by
    refine List.pairwise_of_forall_mem_list fun a ha b hb => ?_
    rw [of_decide_eq_true (List.mem_filter.1 ha).2, of_decide_eq_true (List.mem_filter.1 hb).2]
    exact precedes_refl k
  have hsublist := (List.sublist_insertionSort hpairwise List.filter_sublist).filter (key · = k)
  rw [List.filter_filter] at hsublist
  simp only [Bool.and_self] at hsublist
  exact (hsublist.eq_of_length (((sortBy_perm key l).filter _).length_eq.symm)).symm

/-- Two items with one key that may change their places are equal. -/
theorem eq_of_sortBy_swap {l₁ l₂ l₃ : List α} (hkey : key a = key b)
    (h : sortBy key (l₁ ++ a :: l₂ ++ b :: l₃) = sortBy key (l₁ ++ b :: l₂ ++ a :: l₃)) :
    a = b := by
  have hfilter := congrArg (List.filter (key · = key b)) h
  rw [filter_sortBy, filter_sortBy] at hfilter
  simp only [List.filter_append, List.filter_cons, hkey, decide_true, if_true,
    List.append_assoc, List.append_cancel_left_eq, List.cons_append] at hfilter
  exact (List.cons.inj hfilter).1

end Sorting

section Stable

/-- The characters of the text of a number. -/
def isNumeric (c : Char) : Bool := c.isDigit || c = '-' || c = '+' || c = '.' || c = 'e'

mutual

/-- `stableStringifyValue`. -/
def stableStringifyValue : JsonValue → String
  | .array elements => "[" ++ commaSeparated (stableElements elements) ++ "]"
  | .object properties =>
    "\x7b" ++ commaSeparated ((sortBy Prod.fst (stableEntries properties)).map fun entry =>
      quote entry.1 ++ ":" ++ entry.2) ++ "\x7d"
  | value => stringify value

def stableElements : List JsonValue → List String
  | [] => []
  | value :: values => stableStringifyValue value :: stableElements values

def stableEntries : Properties → List (String × String)
  | [] => []
  | (key, value) :: properties => (key, stableStringifyValue value) :: stableEntries properties

end

/-- The keys are in order, and no two of them are equal. -/
def increasing : List String → Bool
  | a :: b :: keys => precedes a b && a != b && increasing (b :: keys)
  | _ => true

mutual

def JsonValue.wellFormed : JsonValue → Bool
  | .number literal => literal.toList != [] && literal.toList.all isNumeric
  | .array elements => wellFormedElements elements
  | .object properties => increasing (properties.map Prod.fst) && wellFormedProperties properties
  | _ => true

def wellFormedElements : List JsonValue → Bool
  | [] => true
  | value :: values => value.wellFormed && wellFormedElements values

def wellFormedProperties : Properties → Bool
  | [] => true
  | (_, value) :: properties => value.wellFormed && wellFormedProperties properties

end

theorem wellFormedElements_iff (elements : List JsonValue) :
    wellFormedElements elements = true ↔ ∀ value ∈ elements, value.wellFormed = true := by
  induction elements with
  | nil => simp [wellFormedElements]
  | cons value values ih => simp [wellFormedElements, ih]

theorem wellFormedProperties_iff (properties : Properties) :
    wellFormedProperties properties = true ↔
      ∀ entry ∈ properties, entry.2.wellFormed = true := by
  induction properties with
  | nil => simp [wellFormedProperties]
  | cons entry properties ih => simp [wellFormedProperties, ih]

end Stable

section Sorted

theorem pairwise_of_increasing : ∀ {keys : List String}, increasing keys = true →
    keys.Pairwise fun a b => precedes a b = true ∧ a ≠ b
  | [], _ => List.Pairwise.nil
  | [a], _ => List.pairwise_singleton _ a
  | a :: b :: keys, h => by
    simp only [increasing, Bool.and_eq_true, bne_iff_ne, ne_eq] at h
    obtain ⟨⟨hab, hne⟩, hrest⟩ := h
    have ih := pairwise_of_increasing hrest
    refine List.pairwise_cons.2 ⟨fun c hc => ?_, ih⟩
    rcases List.mem_cons.1 hc with rfl | hc
    · exact ⟨hab, hne⟩
    · obtain ⟨hbc, hbcne⟩ := (List.pairwise_cons.1 ih).1 c hc
      refine ⟨precedes_trans hab hbc, ?_⟩
      rintro rfl
      exact hne (precedes_antisymm hab hbc)

theorem nodup_of_increasing {keys : List String} (h : increasing keys = true) : keys.Nodup :=
  (pairwise_of_increasing h).imp fun h => h.2

theorem stableElements_eq (elements : List JsonValue) :
    stableElements elements = elements.map stableStringifyValue := by
  induction elements with
  | nil => simp [stableElements]
  | cons value values ih => simp [stableElements, ih]

theorem stableEntries_eq (properties : Properties) :
    stableEntries properties =
      properties.map fun entry => (entry.1, stableStringifyValue entry.2) := by
  induction properties with
  | nil => simp [stableEntries]
  | cons entry properties ih =>
    obtain ⟨key, value⟩ := entry
    simp [stableEntries, ih]

/-- Properties that are in order are printed in the order in which they are. -/
theorem sortBy_entries {properties : Properties} (h : increasing (properties.map Prod.fst) = true) :
    sortBy Prod.fst (stableEntries properties) = stableEntries properties := by
  refine List.Pairwise.insertionSort_eq ?_
  rw [stableEntries_eq, List.pairwise_map]
  exact (List.pairwise_map.1 (pairwise_of_increasing h)).imp fun h => h.1

end Sorted

section Characters

/-- The first character of an escaped text, and what follows it. -/
def unescape : List Char → Option (Char × List Char)
  | '\\' :: 'u' :: '0' :: '0' :: high :: low :: cs =>
    some (Char.ofNat (16 * (hexValue high) + hexValue low), cs)
  | '\\' :: 'b' :: cs => some ('\x08', cs)
  | '\\' :: 't' :: cs => some ('\x09', cs)
  | '\\' :: 'n' :: cs => some ('\x0a', cs)
  | '\\' :: 'f' :: cs => some ('\x0c', cs)
  | '\\' :: 'r' :: cs => some ('\x0d', cs)
  | '\\' :: c :: cs => some (c, cs)
  | '"' :: _ => none
  | c :: cs => some (c, cs)
  | [] => none
where
  hexValue (c : Char) : ℕ := if c.isDigit then c.toNat - 0x30 else c.toNat - 0x57

theorem unescape_escape (c : Char) (cs : List Char) :
    unescape ((escape c).toList ++ cs) = some (c, cs) := by
  have hchar : ∀ n, c.toNat = n → c = Char.ofNat n := fun n h => by rw [← h, Char.ofNat_toNat]
  unfold escape
  split_ifs with h h h h h h h h
  · rw [hchar _ h]
    rfl
  · rw [hchar _ h]
    rfl
  · rw [hchar _ h]
    rfl
  · rw [hchar _ h]
    rfl
  · rw [hchar _ h]
    rfl
  · rw [hchar _ h]
    rfl
  · rw [hchar _ h]
    rfl
  · have hcode : ∀ n < 0x20, unescape ('\\' :: 'u' :: '0' :: '0' :: hexDigit (n / 16) ::
        hexDigit (n % 16) :: cs) = some (Char.ofNat n, cs) := by
      intro n hn
      interval_cases n <;> rfl
    rw [String.toList_ofList]
    exact (hcode c.toNat h).trans (by rw [Char.ofNat_toNat])
  · rw [String.toList_singleton]
    unfold unescape
    split <;> simp_all

theorem escape_append_inj {c d : Char} {cs ds : List Char}
    (h : (escape c).toList ++ cs = (escape d).toList ++ ds) : c = d ∧ cs = ds := by
  have hsome := congrArg unescape h
  rw [unescape_escape, unescape_escape] at hsome
  exact Prod.mk.inj (Option.some.inj hsome)

/-- An escaped character does not end the string. -/
theorem escape_ne_quote (c : Char) (cs ds : List Char) : (escape c).toList ++ cs ≠ '"' :: ds := by
  intro h
  have hsome := congrArg unescape h
  rw [unescape_escape] at hsome
  cases hsome

theorem toList_concat (parts : List String) :
    (concat parts).toList = parts.flatMap String.toList := by
  induction parts with
  | nil => rfl
  | cons part parts ih =>
    have hcons : concat (part :: parts) = part ++ concat parts := rfl
    rw [hcons, String.toList_append, ih, List.flatMap_cons]

theorem toList_quote (text : String) :
    (quote text).toList = '"' :: (text.toList.flatMap fun c => (escape c).toList) ++ ['"'] := by
  simp only [quote, String.toList_append, toList_concat, List.flatMap_map]
  rfl

theorem escaped_append_inj : ∀ (cs ds : List Char) {r s : List Char},
    (cs.flatMap fun c => (escape c).toList) ++ '"' :: r =
      (ds.flatMap fun c => (escape c).toList) ++ '"' :: s → cs = ds ∧ r = s
  | [], [], r, s, h => ⟨rfl, (List.cons.inj h).2⟩
  | [], d :: ds, r, s, h => by
    rw [List.flatMap_cons, List.append_assoc] at h
    exact absurd h.symm (escape_ne_quote d _ _)
  | c :: cs, [], r, s, h => by
    rw [List.flatMap_cons, List.append_assoc] at h
    exact absurd h (escape_ne_quote c _ _)
  | c :: cs, d :: ds, r, s, h => by
    rw [List.flatMap_cons, List.flatMap_cons, List.append_assoc, List.append_assoc] at h
    obtain ⟨rfl, hrest⟩ := escape_append_inj h
    obtain ⟨rfl, hrs⟩ := escaped_append_inj cs ds hrest
    exact ⟨rfl, hrs⟩

theorem quote_append_inj {text text' : String} {r s : List Char}
    (h : (quote text).toList ++ r = (quote text').toList ++ s) : text = text' ∧ r = s := by
  rw [toList_quote, toList_quote, List.cons_append, List.cons_append, List.cons_append,
    List.cons_append, List.append_assoc, List.append_assoc] at h
  obtain ⟨hcs, hrs⟩ := escaped_append_inj _ _ (List.cons.inj h).2
  exact ⟨String.toList_inj.1 hcs, hrs⟩

/-- What follows a number does not go on with it. -/
def Ends (cs : List Char) : Prop := ∀ c ∈ cs.head?, isNumeric c = false

theorem numeric_append_inj : ∀ {cs ds r s : List Char}, cs.all isNumeric = true →
    ds.all isNumeric = true → Ends r → Ends s → cs ++ r = ds ++ s → cs = ds ∧ r = s
  | [], [], _, _, _, _, _, _, h => ⟨rfl, h⟩
  | [], d :: ds, r, s, _, hds, hr, _, h => by
    rw [List.nil_append] at h
    subst h
    have hd := hr d (by simp)
    simp [hd] at hds
  | c :: cs, [], r, s, hcs, _, _, hs, h => by
    rw [List.nil_append] at h
    subst h
    have hc := hs c (by simp)
    simp [hc] at hcs
  | c :: cs, d :: ds, r, s, hcs, hds, hr, hs, h => by
    rw [List.all_cons, Bool.and_eq_true] at hcs hds
    obtain ⟨rfl, hrest⟩ := List.cons.inj h
    obtain ⟨rfl, hrs⟩ := numeric_append_inj hcs.2 hds.2 hr hs hrest
    exact ⟨rfl, hrs⟩

end Characters

section Injectivity

def afterCommas (parts : List String) : List Char := parts.flatMap fun part => ',' :: part.toList

variable (part : String)

theorem toList_commaSeparated (parts : List String) :
    ',' :: (commaSeparated (part :: parts)).toList = afterCommas (part :: parts) := by
  simp only [commaSeparated, String.toList_append, toList_concat, List.flatMap_map, afterCommas,
    List.flatMap_cons]
  rfl

theorem toList_commaSeparated_cons (parts : List String) :
    (commaSeparated (part :: parts)).toList = part.toList ++ afterCommas parts := by
  simp only [commaSeparated, String.toList_append, toList_concat, List.flatMap_map, afterCommas]
  rfl

def entryText (entry : String × String) : String := quote entry.1 ++ ":" ++ entry.2

theorem toList_stableArray (elements : List JsonValue) (r : List Char) :
    (stableStringifyValue (.array elements)).toList ++ r =
      '[' :: ((commaSeparated (stableElements elements)).toList ++ ']' :: r) := by
  simp only [stableStringifyValue, String.toList_append, List.append_assoc]
  rfl

theorem toList_stableObject (properties : Properties) (r : List Char) :
    (stableStringifyValue (.object properties)).toList ++ r =
      '\x7b' :: ((commaSeparated ((sortBy Prod.fst (stableEntries properties)).map
        entryText)).toList ++ '\x7d' :: r) := by
  simp only [stableStringifyValue, String.toList_append, List.append_assoc]
  rfl

/-- Which kind of value begins with the character. -/
def kindOfLead (c : Char) : ℕ :=
  if c = 'n' then 0 else if c = 't' then 1 else if c = 'f' then 2 else if c = '"' then 3
  else if c = '[' then 4 else if c = '\x7b' then 5 else if isNumeric c then 6 else 7

def JsonValue.kind : JsonValue → ℕ
  | .null => 0
  | .boolean true => 1
  | .boolean false => 2
  | .string _ => 3
  | .array _ => 4
  | .object _ => 5
  | .number _ => 6

theorem kindOfLead_numeric {c : Char} (h : isNumeric c = true) : kindOfLead c = 6 := by
  have hne : ∀ d : Char, isNumeric d = false → c ≠ d := by
    rintro d hd rfl
    rw [h] at hd
    cases hd
  simp [kindOfLead, h, hne 'n' (by decide), hne 't' (by decide), hne 'f' (by decide),
    hne '"' (by decide), hne '[' (by decide), hne '\x7b' (by decide)]

variable {value : JsonValue} {close : Char}

/-- The first character of a text tells what kind of value it is. -/
theorem lead_stableStringifyValue (h : value.wellFormed = true) :
    ∃ c cs, (stableStringifyValue value).toList = c :: cs ∧ kindOfLead c = value.kind := by
  cases value with
  | null => exact ⟨'n', ['u', 'l', 'l'], rfl, rfl⟩
  | boolean value =>
    cases value with
    | true => exact ⟨'t', ['r', 'u', 'e'], rfl, rfl⟩
    | false => exact ⟨'f', ['a', 'l', 's', 'e'], rfl, rfl⟩
  | number literal =>
    simp only [JsonValue.wellFormed, Bool.and_eq_true, bne_iff_ne, ne_eq] at h
    obtain ⟨c, cs, hcs⟩ := List.exists_cons_of_ne_nil h.1
    rw [hcs, List.all_cons, Bool.and_eq_true] at h
    refine ⟨c, cs, ?_, kindOfLead_numeric h.2.1⟩
    simpa [stableStringifyValue, stringify] using hcs
  | string text =>
    refine ⟨'"', (text.toList.flatMap fun c => (escape c).toList) ++ ['"'], ?_, rfl⟩
    simp only [stableStringifyValue, stringify]
    exact toList_quote text
  | array elements =>
    refine ⟨'[', (commaSeparated (stableElements elements)).toList ++ [']'], ?_, rfl⟩
    simpa using toList_stableArray elements []
  | object properties =>
    refine ⟨'\x7b', (commaSeparated ((sortBy Prod.fst (stableEntries properties)).map
      entryText)).toList ++ ['\x7d'], ?_, rfl⟩
    simpa using toList_stableObject properties []

theorem stableStringifyValue_append_ne (h : value.wellFormed = true) (r s : List Char) :
    (stableStringifyValue value).toList ++ r ≠ ']' :: s := by
  obtain ⟨c, cs, hcs, hkind⟩ := lead_stableStringifyValue h
  rw [hcs]
  intro heq
  obtain rfl := (List.cons.inj heq).1
  have hlead : kindOfLead ']' = 7 := by decide
  rw [hlead] at hkind
  cases value with
  | boolean value => cases value <;> cases hkind
  | _ => cases hkind

theorem bracketed_inj {parts parts' : List String} {r s : List Char}
    (hne : ∀ part ∈ parts ++ parts', ∀ r s, part.toList ++ r ≠ close :: s)
    (h : (commaSeparated parts).toList ++ close :: r =
      (commaSeparated parts').toList ++ close :: s) :
    afterCommas parts ++ close :: r = afterCommas parts' ++ close :: s := by
  cases parts with
  | nil =>
    cases parts' with
    | nil => exact h
    | cons part' parts' =>
      refine absurd h.symm ?_
      rw [toList_commaSeparated_cons, List.append_assoc]
      exact hne part' (by simp) _ _
  | cons part parts =>
    cases parts' with
    | nil =>
      refine absurd h ?_
      rw [toList_commaSeparated_cons, List.append_assoc]
      exact hne part (by simp) _ _
    | cons part' parts' =>
      rw [← toList_commaSeparated, ← toList_commaSeparated, List.cons_append, List.cons_append, h]

theorem afterCommas_cons (parts : List String) (r : List Char) :
    afterCommas (part :: parts) ++ r = ',' :: (part.toList ++ (afterCommas parts ++ r)) := by
  simp [afterCommas]

/-- A number is followed by a comma or a bracket. -/
theorem ends_afterCommas (parts : List String) (hclose : isNumeric close = false) (r : List Char) :
    Ends (afterCommas parts ++ close :: r) := by
  intro c hc
  cases parts with
  | nil =>
    obtain rfl : close = c := by simpa [afterCommas] using hc
    exact hclose
  | cons part parts =>
    rw [afterCommas_cons] at hc
    obtain rfl : ',' = c := by simpa using hc
    decide

theorem toList_entryText (key text : String) (r : List Char) :
    (entryText (key, text)).toList ++ r = (quote key).toList ++ ':' :: (text.toList ++ r) := by
  simp only [entryText, String.toList_append, List.append_assoc]
  rfl

theorem elements_ne_close {vs ws : List JsonValue} (hvs : wellFormedElements vs = true)
    (hws : wellFormedElements ws = true) :
    ∀ part ∈ stableElements vs ++ stableElements ws, ∀ r s, part.toList ++ r ≠ ']' :: s := by
  intro part hpart
  rw [stableElements_eq, stableElements_eq, ← List.map_append] at hpart
  obtain ⟨value, hvalue, rfl⟩ := List.mem_map.1 hpart
  refine stableStringifyValue_append_ne ?_
  rcases List.mem_append.1 hvalue with hvalue | hvalue
  · exact (wellFormedElements_iff vs).1 hvs value hvalue
  · exact (wellFormedElements_iff ws).1 hws value hvalue

theorem entries_ne_close {es es' : List (String × String)} :
    ∀ part ∈ es.map entryText ++ es'.map entryText,
      ∀ r s, part.toList ++ r ≠ '\x7d' :: s := by
  intro part hpart r s heq
  rw [← List.map_append] at hpart
  obtain ⟨entry, -, rfl⟩ := List.mem_map.1 hpart
  rw [toList_entryText, toList_quote] at heq
  exact absurd (List.cons.inj heq).1 (by decide)

mutual

theorem stableStringifyValue_append_inj : ∀ (v w : JsonValue) {r s : List Char},
    v.wellFormed = true → w.wellFormed = true → Ends r → Ends s →
    (stableStringifyValue v).toList ++ r = (stableStringifyValue w).toList ++ s → v = w ∧ r = s
  | v, w, r, s, hv, hw, hr, hs, h => by
    have hkind : v.kind = w.kind := by
      obtain ⟨c, cs, hcs, hc⟩ := lead_stableStringifyValue hv
      obtain ⟨d, ds, hds, hd⟩ := lead_stableStringifyValue hw
      rw [hcs, hds] at h
      rw [← hc, ← hd, (List.cons.inj h).1]
    match v, w, hkind with
    | .null, .null, _ => exact ⟨rfl, List.append_cancel_left h⟩
    | .boolean true, .boolean true, _ => exact ⟨rfl, List.append_cancel_left h⟩
    | .boolean false, .boolean false, _ => exact ⟨rfl, List.append_cancel_left h⟩
    | .number l, .number l', _ =>
      simp only [JsonValue.wellFormed, Bool.and_eq_true] at hv hw
      obtain ⟨hl, hrs⟩ := numeric_append_inj hv.2 hw.2 hr hs h
      rw [String.toList_inj.1 hl]
      exact ⟨rfl, hrs⟩
    | .string t, .string t', _ =>
      obtain ⟨rfl, hrs⟩ := quote_append_inj h
      exact ⟨rfl, hrs⟩
    | .array vs, .array ws, _ =>
      rw [JsonValue.wellFormed] at hv hw
      rw [toList_stableArray, toList_stableArray] at h
      obtain ⟨rfl, hrs⟩ := stableElements_append_inj vs ws hv hw
        (bracketed_inj (elements_ne_close hv hw) (List.cons.inj h).2)
      exact ⟨rfl, hrs⟩
    | .object ps, .object qs, _ =>
      rw [JsonValue.wellFormed, Bool.and_eq_true] at hv hw
      rw [toList_stableObject, toList_stableObject, sortBy_entries hv.1, sortBy_entries hw.1] at h
      obtain ⟨rfl, hrs⟩ := stableEntries_append_inj ps qs hv.2 hw.2
        (bracketed_inj entries_ne_close (List.cons.inj h).2)
      exact ⟨rfl, hrs⟩

theorem stableElements_append_inj : ∀ (vs ws : List JsonValue) {r s : List Char},
    wellFormedElements vs = true → wellFormedElements ws = true →
    afterCommas (stableElements vs) ++ ']' :: r = afterCommas (stableElements ws) ++ ']' :: s →
    vs = ws ∧ r = s
  | [], [], r, s, _, _, h => ⟨rfl, (List.cons.inj h).2⟩
  | [], w :: ws, r, s, _, _, h => by
    have hhead := (List.cons.inj h).1
    exact absurd hhead (by decide)
  | v :: vs, [], r, s, _, _, h => by
    have hhead := (List.cons.inj h).1
    exact absurd hhead (by decide)
  | v :: vs, w :: ws, r, s, hvs, hws, h => by
    rw [wellFormedElements, Bool.and_eq_true] at hvs hws
    rw [stableElements, stableElements, afterCommas_cons, afterCommas_cons] at h
    obtain ⟨rfl, hrest⟩ := stableStringifyValue_append_inj v w hvs.1 hws.1
      (ends_afterCommas _ (by decide) r) (ends_afterCommas _ (by decide) s) (List.cons.inj h).2
    obtain ⟨rfl, hrs⟩ := stableElements_append_inj vs ws hvs.2 hws.2 hrest
    exact ⟨rfl, hrs⟩

theorem stableEntries_append_inj : ∀ (ps qs : Properties) {r s : List Char},
    wellFormedProperties ps = true → wellFormedProperties qs = true →
    afterCommas ((stableEntries ps).map entryText) ++ '\x7d' :: r =
      afterCommas ((stableEntries qs).map entryText) ++ '\x7d' :: s → ps = qs ∧ r = s
  | [], [], r, s, _, _, h => ⟨rfl, (List.cons.inj h).2⟩
  | [], q :: qs, r, s, _, _, h => by
    have hhead := (List.cons.inj h).1
    exact absurd hhead (by decide)
  | p :: ps, [], r, s, _, _, h => by
    have hhead := (List.cons.inj h).1
    exact absurd hhead (by decide)
  | (k, v) :: ps, (k', w) :: qs, r, s, hps, hqs, h => by
    rw [wellFormedProperties, Bool.and_eq_true] at hps hqs
    rw [stableEntries, stableEntries, List.map_cons, List.map_cons, afterCommas_cons,
      afterCommas_cons, toList_entryText, toList_entryText] at h
    obtain ⟨rfl, hvalues⟩ := quote_append_inj (List.cons.inj h).2
    obtain ⟨rfl, hrest⟩ := stableStringifyValue_append_inj v w hps.1 hqs.1
      (ends_afterCommas _ (by decide) r) (ends_afterCommas _ (by decide) s)
      (List.cons.inj hvalues).2
    obtain ⟨rfl, hrs⟩ := stableEntries_append_inj ps qs hps.2 hqs.2 hrest
    exact ⟨rfl, hrs⟩

end

/-- Two values with one text are equal. -/
theorem stableStringifyValue_inj {v w : JsonValue} (hv : v.wellFormed = true)
    (hw : w.wellFormed = true) (h : stableStringifyValue v = stableStringifyValue w) : v = w :=
  (stableStringifyValue_append_inj v w hv hw (r := []) (s := []) nofun nofun
    (by rw [h])).1

end Injectivity

section Digests

def tabulated (text digest : String) (input : String) : String :=
  if input = text then digest else "of " ++ input

theorem tabulated_injective (text : String) {digest : String} (h : digest.toList.head? ≠ some 'o') :
    Function.Injective (tabulated text digest) := by
  have hother : ∀ input, digest ≠ "of " ++ input := by
    intro input heq
    refine h ?_
    rw [heq, String.toList_append]
    rfl
  intro a b hab
  simp only [tabulated] at hab
  split_ifs at hab with ha hb hb
  · rw [ha, hb]
  · exact absurd hab (hother b)
  · exact absurd hab.symm (hother a)
  · exact String.append_right_inj "of " |>.1 hab

end Digests

def textOf (v : JsonValue) : String := (text? (some v)).getD ""

structure Canonical (α : Type) where
  canon : α → α
  permuted : α → α → Prop
  distinct : α → Prop
  canon_canon : ∀ a, canon (canon a) = canon a
  permuted_refl : ∀ a, permuted a a
  permuted_canon : ∀ a, permuted a (canon a)
  canon_eq : ∀ {a b}, distinct a → permuted a b → canon b = canon a
  distinct_of : ∀ {a}, (∀ b, permuted a b → canon b = canon a) → distinct a
  permuted_of : ∀ {a b}, canon a = canon b → permuted a b

namespace Canonical

variable {α ι : Type} {β : ι → Type}

/-- The order does not matter exactly where the condition holds. -/
theorem distinct_iff (c : Canonical α) (a : α) :
    (∀ b, c.permuted a b → c.canon b = c.canon a) ↔ c.distinct a :=
  ⟨c.distinct_of, fun h _ hab => c.canon_eq h hab⟩

/-- Nothing is sorted. -/
def keep : Canonical α where
  canon a := a
  permuted a b := b = a
  distinct _ := True
  canon_canon _ := rfl
  permuted_refl _ := rfl
  permuted_canon _ := rfl
  canon_eq _ h := h
  distinct_of _ := trivial
  permuted_of h := h.symm

section Sorted

variable (c : Canonical α) (key : α → String) {l l' m : List α} {a b : α}

/-- The items are listed in another order, and each of them is so inside. -/
def Reordered (l l' : List α) : Prop := ∃ m, List.Forall₂ c.permuted l m ∧ m.Perm l'

/-- No two items that differ have one key. -/
def DistinctKeys (l : List α) : Prop :=
  (∀ a ∈ l, c.distinct a) ∧
    ∀ a ∈ l, ∀ b ∈ l, key (c.canon a) = key (c.canon b) → c.canon a = c.canon b

theorem forall₂_permuted_refl (l : List α) : List.Forall₂ c.permuted l l :=
  List.forall₂_same.2 fun a _ => c.permuted_refl a

variable {c} in
theorem map_canon_eq (hl : ∀ a ∈ l, c.distinct a) (h : List.Forall₂ c.permuted l m) :
    m.map c.canon = l.map c.canon := by
  induction h with
  | nil => rfl
  | cons hab _ ih =>
    rw [List.map_cons, List.map_cons, c.canon_eq (hl _ List.mem_cons_self) hab,
      ih fun a ha => hl a (List.mem_cons_of_mem _ ha)]

/-- Two members of a list are equal, or one of them comes first. -/
theorem eq_or_split (ha : a ∈ l) (hb : b ∈ l) : a = b ∨
    (∃ l₁ l₂ l₃, l = l₁ ++ a :: l₂ ++ b :: l₃) ∨ ∃ l₁ l₂ l₃, l = l₁ ++ b :: l₂ ++ a :: l₃ := by
  obtain ⟨l₁, l₂, rfl⟩ := List.append_of_mem ha
  rcases List.mem_append.1 hb with hb | hb
  · obtain ⟨l₃, l₄, rfl⟩ := List.append_of_mem hb
    exact Or.inr (Or.inr ⟨l₃, l₄, l₂, by simp⟩)
  · rcases List.mem_cons.1 hb with rfl | hb
    · exact Or.inl rfl
    · obtain ⟨l₃, l₄, rfl⟩ := List.append_of_mem hb
      exact Or.inr (Or.inl ⟨l₁, l₃, l₄, by simp⟩)

/-- Exchange two items. -/
theorem perm_exchange (l₁ l₂ l₃ : List α) :
    (l₁ ++ a :: l₂ ++ b :: l₃).Perm (l₁ ++ b :: l₂ ++ a :: l₃) := by
  rw [List.append_assoc, List.append_assoc]
  refine List.Perm.append_left l₁ ?_
  rw [List.cons_append, List.cons_append]
  refine (List.Perm.cons a List.perm_middle).trans ?_
  exact (List.Perm.swap b a _).trans (List.Perm.cons b List.perm_middle.symm)

/-- A list whose image is another order of an image is the image of another order. -/
theorem exists_perm_map_eq {γ : Type} {f : α → γ} {l : List α} : ∀ {ys : List γ},
    ys.Perm (l.map f) → ∃ m : List α, m.Perm l ∧ m.map f = ys
  | [], h => by
    obtain rfl := List.map_eq_nil_iff.1 h.nil_eq.symm
    exact ⟨[], List.Perm.refl _, rfl⟩
  | y :: ys, h => by
    obtain ⟨x, hx, rfl⟩ := List.mem_map.1 (h.mem_iff.1 List.mem_cons_self)
    obtain ⟨l₁, l₂, rfl⟩ := List.append_of_mem hx
    have hmiddle : ((l₁ ++ x :: l₂).map f).Perm (f x :: (l₁ ++ l₂).map f) :=
      List.perm_middle.map f
    obtain ⟨m, hm, rfl⟩ := exists_perm_map_eq (h.trans hmiddle).cons_inv
    exact ⟨x :: m, (hm.cons x).trans List.perm_middle.symm, rfl⟩

theorem forall₂_permuted_of (h : l.map c.canon = m.map c.canon) :
    List.Forall₂ c.permuted l m := by
  have hsame := List.forall₂_eq_eq_eq.symm ▸ h
  rw [List.forall₂_map_left_iff, List.forall₂_map_right_iff] at hsame
  exact hsame.imp fun _ _ => c.permuted_of

def sorted : Canonical (List α) where
  canon l := sortBy key (l.map c.canon)
  permuted := c.Reordered
  distinct := c.DistinctKeys key
  canon_canon l := by
    have hmap : (sortBy key (l.map c.canon)).map c.canon = sortBy key (l.map c.canon) := by
      refine (List.map_congr_left fun a ha => ?_).trans (List.map_id _)
      obtain ⟨a, -, rfl⟩ := List.mem_map.1 (mem_sortBy.1 ha)
      exact c.canon_canon a
    rw [hmap, sortBy_sortBy]
  permuted_refl l := ⟨l, c.forall₂_permuted_refl l, List.Perm.refl l⟩
  permuted_canon l := by
    refine ⟨l.map c.canon, ?_, (sortBy_perm key _).symm⟩
    exact List.forall₂_map_right_iff.2 (List.forall₂_same.2 fun a _ => c.permuted_canon a)
  canon_eq := by
    rintro l l' ⟨hdistinct, hkeys⟩ ⟨m, hinside, hperm⟩
    have hmap := map_canon_eq hdistinct hinside
    have hsame := hperm.map c.canon
    rw [hmap] at hsame
    refine (sortBy_eq_of_perm hsame ?_).symm
    intro a ha b hb hab
    obtain ⟨x, hx, rfl⟩ := List.mem_map.1 ha
    obtain ⟨y, hy, rfl⟩ := List.mem_map.1 hb
    exact hkeys x hx y hy hab
  distinct_of := by
    intro l h
    constructor
    · intro a ha
      refine c.distinct_of fun b hab => ?_
      obtain ⟨l₁, l₂, rfl⟩ := List.append_of_mem ha
      have hsort := h (l₁ ++ b :: l₂) ⟨l₁ ++ b :: l₂,
        List.rel_append (c.forall₂_permuted_refl l₁) (.cons hab (c.forall₂_permuted_refl l₂)),
        List.Perm.refl _⟩
      have hperm := ((sortBy_perm key _).symm.trans (List.Perm.of_eq hsort)).trans
        (sortBy_perm key _)
      simp only [List.map_append, List.map_cons] at hperm
      rw [List.perm_append_left_iff] at hperm
      exact List.singleton_perm_singleton.1 ((List.perm_append_right_iff (l₂.map c.canon)).1 hperm)
    · intro a ha b hb hab
      rcases eq_or_split ha hb with rfl | ⟨l₁, l₂, l₃, rfl⟩ | ⟨l₁, l₂, l₃, rfl⟩
      · rfl
      · have hsort := h _ ⟨_, c.forall₂_permuted_refl _, perm_exchange l₁ l₂ l₃⟩
        simp only [List.map_append, List.map_cons] at hsort
        exact (eq_of_sortBy_swap hab.symm hsort).symm
      · have hsort := h _ ⟨_, c.forall₂_permuted_refl _, perm_exchange l₁ l₂ l₃⟩
        simp only [List.map_append, List.map_cons] at hsort
        exact eq_of_sortBy_swap hab hsort
  permuted_of := by
    intro l l' h
    have hperm := ((sortBy_perm key _).symm.trans (List.Perm.of_eq h)).trans (sortBy_perm key _)
    obtain ⟨m, hm, hmap⟩ := exists_perm_map_eq hperm
    exact ⟨m, c.forall₂_permuted_of hmap.symm, hm⟩

end Sorted

section Families

/-- A value that may be missing. -/
def optional (c : Canonical α) : Canonical (Option α) where
  canon := Option.map c.canon
  permuted o o' := Option.Rel c.permuted o o'
  distinct o := ∀ a ∈ o, c.distinct a
  canon_canon o := by cases o <;> simp [c.canon_canon]
  permuted_refl o := by
    cases o with
    | none => exact .none
    | some a => exact .some (c.permuted_refl a)
  permuted_canon o := by
    cases o with
    | none => exact .none
    | some a => exact .some (c.permuted_canon a)
  canon_eq := by
    rintro o o' h (hab | _)
    · exact congrArg some (c.canon_eq (h _ rfl) hab)
    · rfl
  distinct_of := by
    rintro _ h a rfl
    exact c.distinct_of fun b hab => Option.some.inj (h (some b) (.some hab))
  permuted_of := by
    intro o o' h
    cases o with
    | none =>
      cases o' with
      | none => exact .none
      | some a' => cases h
    | some a =>
      cases o' with
      | none => cases h
      | some a' => exact .some (c.permuted_of (Option.some.inj h))

/-- One value for each index. -/
def family [DecidableEq ι] (c : (i : ι) → Canonical (β i)) : Canonical ((i : ι) → β i) where
  canon f i := (c i).canon (f i)
  permuted f g := ∀ i, (c i).permuted (f i) (g i)
  distinct f := ∀ i, (c i).distinct (f i)
  canon_canon f := funext fun i => (c i).canon_canon (f i)
  permuted_refl f i := (c i).permuted_refl (f i)
  permuted_canon f i := (c i).permuted_canon (f i)
  canon_eq h hfg := funext fun i => (c i).canon_eq (h i) (hfg i)
  distinct_of := by
    intro f h i
    refine (c i).distinct_of fun b hb => ?_
    have hupdate := congrFun (h (Function.update f i b) fun j => ?_) i
    · rwa [Function.update_self] at hupdate
    · by_cases hj : j = i
      · subst hj
        rwa [Function.update_self]
      · rw [Function.update_of_ne hj]
        exact (c j).permuted_refl (f j)
  permuted_of h i := (c i).permuted_of (congrFun h i)

/-- Two values. -/
def both {α' : Type} (c : Canonical α) (c' : Canonical α') : Canonical (α × α') where
  canon p := (c.canon p.1, c'.canon p.2)
  permuted p q := c.permuted p.1 q.1 ∧ c'.permuted p.2 q.2
  distinct p := c.distinct p.1 ∧ c'.distinct p.2
  canon_canon p := by rw [c.canon_canon, c'.canon_canon]
  permuted_refl p := ⟨c.permuted_refl p.1, c'.permuted_refl p.2⟩
  permuted_canon p := ⟨c.permuted_canon p.1, c'.permuted_canon p.2⟩
  canon_eq h hpq := by rw [c.canon_eq h.1 hpq.1, c'.canon_eq h.2 hpq.2]
  distinct_of := by
    rintro ⟨a, a'⟩ h
    constructor
    · exact c.distinct_of fun b hab => congrArg Prod.fst (h (b, a') ⟨hab, c'.permuted_refl a'⟩)
    · exact c'.distinct_of fun b hab => congrArg Prod.snd (h (a, b) ⟨c.permuted_refl a, hab⟩)
  permuted_of h := ⟨c.permuted_of (congrArg Prod.fst h), c'.permuted_of (congrArg Prod.snd h)⟩

end Families

section Json

/-- The elements of an array; other values stay as they are. -/
def array (c : Canonical (List JsonValue)) : Canonical JsonValue where
  canon
    | .array elements => .array (c.canon elements)
    | value => value
  permuted v w := w = v ∨
    ∃ elements elements', v = .array elements ∧ w = .array elements' ∧ c.permuted elements elements'
  distinct v := ∀ elements, v = .array elements → c.distinct elements
  canon_canon v := by
    cases v with
    | array elements => exact congrArg JsonValue.array (c.canon_canon elements)
    | _ => rfl
  permuted_refl _ := Or.inl rfl
  permuted_canon v := by
    cases v with
    | array elements => exact Or.inr ⟨elements, _, rfl, rfl, c.permuted_canon elements⟩
    | _ => exact Or.inl rfl
  canon_eq := by
    rintro v w h (rfl | ⟨elements, elements', rfl, rfl, hperm⟩)
    · rfl
    · exact congrArg JsonValue.array (c.canon_eq (h elements rfl) hperm)
  distinct_of := by
    rintro v h elements rfl
    refine c.distinct_of fun elements' hperm => ?_
    exact JsonValue.array.inj (h (.array elements') (Or.inr ⟨_, _, rfl, rfl, hperm⟩))
  permuted_of := by
    intro v w h
    cases v with
    | array elements =>
      cases w with
      | array elements' =>
        exact Or.inr ⟨_, _, rfl, rfl, c.permuted_of (JsonValue.array.inj h)⟩
      | _ => cases h
    | _ => cases w <;> first | exact Or.inl h.symm | cases h

/-- `[...texts].sort(compareText)`. -/
def texts : Canonical JsonValue := array (sorted keep textOf)

/-- The property `kind` of an object. -/
def kindOf (properties : Properties) : String := (text? (property properties "kind")).getD ""

/-- Replace the values of an object, each by its own rule. -/
def mapValues (f : String → JsonValue → JsonValue) (properties : Properties) : Properties :=
  properties.map fun entry => (entry.1, f entry.1 entry.2)

theorem property_mapValues (f : String → JsonValue → JsonValue) (properties : Properties)
    (name : String) :
    property (mapValues f properties) name = (property properties name).map (f name) := by
  induction properties with
  | nil => rfl
  | cons entry properties ih =>
    simp only [property, mapValues, List.map_cons, List.find?_cons] at ih ⊢
    by_cases hname : entry.1 = name
    · simp [hname]
    · simpa [hname] using ih

variable (rules : String → String → Canonical JsonValue)

/-- The same properties, each with a value that is listed in another order. -/
def SameProperties (properties properties' : Properties) : Prop :=
  List.Forall₂ (fun entry entry' => entry'.1 = entry.1 ∧
    (rules (kindOf properties) entry.1).permuted entry.2 entry'.2) properties properties'

variable {rules}
variable {properties properties' : Properties}

theorem property_of_forall₂ {R : JsonValue → JsonValue → Prop} (name : String)
    (h : List.Forall₂ (fun entry entry' => entry'.1 = entry.1 ∧
      (entry.1 = name → R entry.2 entry'.2)) properties properties') :
    Option.Rel R (property properties name) (property properties' name) := by
  induction h with
  | nil => exact .none
  | @cons entry entry' _ _ hentry _ ih =>
    simp only [property, List.find?_cons] at ih ⊢
    by_cases hname : entry.1 = name
    · simpa [hname, hentry.1] using Option.Rel.some (hentry.2 hname)
    · simpa [hname, hentry.1] using ih

/-- The kind is not listed in another order. -/
theorem kindOf_eq (hkind : ∀ kind, rules kind "kind" = keep)
    (h : SameProperties rules properties properties') : kindOf properties' = kindOf properties := by
  have hrel := property_of_forall₂ (R := fun v w => w = v) "kind"
    (h.imp fun entry entry' hentry => ⟨hentry.1, fun hname => by
      have hsame := hentry.2
      rwa [hname, hkind] at hsame⟩)
  unfold kindOf
  cases hv : property properties "kind" with
  | none =>
    rw [hv] at hrel
    cases hw : property properties' "kind" with
    | none => rfl
    | some w =>
      rw [hw] at hrel
      cases hrel
  | some v =>
    rw [hv] at hrel
    cases hw : property properties' "kind" with
    | none =>
      rw [hw] at hrel
      cases hrel
    | some w =>
      rw [hw] at hrel
      cases hrel with
      | some hvw => rw [hvw]

theorem kindOf_mapValues (hkind : ∀ kind, rules kind "kind" = keep) (properties : Properties)
    (kind : String) :
    kindOf (mapValues (fun name => (rules kind name).canon) properties) = kindOf properties := by
  rw [kindOf, property_mapValues, hkind, kindOf]
  cases property properties "kind" <;> rfl

theorem mapValues_eq {c : String → Canonical JsonValue}
    (hdistinct : ∀ entry ∈ properties, (c entry.1).distinct entry.2)
    (h : List.Forall₂ (fun entry entry' => entry'.1 = entry.1 ∧
      (c entry.1).permuted entry.2 entry'.2) properties properties') :
    mapValues (fun name => (c name).canon) properties' =
      mapValues (fun name => (c name).canon) properties := by
  induction h with
  | nil => rfl
  | @cons entry entry' _ _ hentry _ ih =>
    have hvalue := (c entry.1).canon_eq (hdistinct entry List.mem_cons_self) hentry.2
    have hrest := ih fun entry' hentry' => hdistinct entry' (List.mem_cons_of_mem _ hentry')
    simp only [mapValues, List.map_cons] at hrest ⊢
    rw [hrest, hentry.1, hvalue]

/-- Only one value is listed in another order. -/
theorem sameProperties_replace (before after : Properties) {entry : String × JsonValue}
    {w : JsonValue}
    (hw : (rules (kindOf (before ++ entry :: after)) entry.1).permuted entry.2 w) :
    SameProperties rules (before ++ entry :: after) (before ++ (entry.1, w) :: after) :=
  List.rel_append (List.forall₂_same.2 fun _ _ => ⟨rfl, Canonical.permuted_refl _ _⟩)
    (.cons ⟨rfl, hw⟩ (List.forall₂_same.2 fun _ _ => ⟨rfl, Canonical.permuted_refl _ _⟩))

theorem sameProperties_of
    (h : mapValues (fun name => (rules (kindOf properties) name).canon) properties =
      mapValues (fun name => (rules (kindOf properties) name).canon) properties') :
    SameProperties rules properties properties' := by
  have hsame := List.forall₂_eq_eq_eq.symm ▸ h
  rw [mapValues, mapValues, List.forall₂_map_left_iff, List.forall₂_map_right_iff] at hsame
  refine hsame.imp fun entry entry' heq => ?_
  obtain ⟨hname, hvalue⟩ := Prod.mk.inj heq
  refine ⟨hname.symm, Canonical.permuted_of _ ?_⟩
  rw [hvalue, hname]

def object (rules : String → String → Canonical JsonValue)
    (hkind : ∀ kind, rules kind "kind" = keep) : Canonical JsonValue where
  canon
    | .object properties =>
      .object (mapValues (fun name => (rules (kindOf properties) name).canon) properties)
    | value => value
  permuted v w := w = v ∨ ∃ properties properties', v = .object properties ∧
    w = .object properties' ∧ SameProperties rules properties properties'
  distinct v := ∀ properties, v = .object properties →
    ∀ entry ∈ properties, (rules (kindOf properties) entry.1).distinct entry.2
  canon_canon v := by
    cases v with
    | object properties =>
      simp only [kindOf_mapValues hkind, JsonValue.object.injEq]
      simp [mapValues, Canonical.canon_canon]
    | _ => rfl
  permuted_refl _ := Or.inl rfl
  permuted_canon v := by
    cases v with
    | object properties =>
      refine Or.inr ⟨properties, _, rfl, rfl, ?_⟩
      refine List.forall₂_map_right_iff.2 (List.forall₂_same.2 fun entry _ => ⟨rfl, ?_⟩)
      exact Canonical.permuted_canon _ _
    | _ => exact Or.inl rfl
  canon_eq := by
    rintro v w h (rfl | ⟨properties, properties', rfl, rfl, hsame⟩)
    · rfl
    · simp only [kindOf_eq hkind hsame, JsonValue.object.injEq]
      exact mapValues_eq (h properties rfl) hsame
  distinct_of := by
    rintro v h properties rfl entry hentry
    refine Canonical.distinct_of _ fun w hw => ?_
    obtain ⟨before, after, rfl⟩ := List.append_of_mem hentry
    have hsame : SameProperties rules (before ++ entry :: after) (before ++ (entry.1, w) :: after) :=
      sameProperties_replace before after hw
    have hcanon := h (.object (before ++ (entry.1, w) :: after)) (Or.inr ⟨_, _, rfl, rfl, hsame⟩)
    simp only [kindOf_eq hkind hsame, JsonValue.object.injEq] at hcanon
    simp only [mapValues, List.map_append, List.map_cons] at hcanon
    have htail := (List.append_inj hcanon rfl).2
    exact congrArg Prod.snd (List.cons.inj htail).1
  permuted_of := by
    intro v w h
    cases v with
    | object properties =>
      cases w with
      | object properties' =>
        have hvalues := JsonValue.object.inj h
        have hkinds : kindOf properties = kindOf properties' := by
          rw [← kindOf_mapValues hkind properties (kindOf properties), hvalues,
            kindOf_mapValues hkind]
        refine Or.inr ⟨_, _, rfl, rfl, ?_⟩
        rw [← hkinds] at hvalues
        exact sameProperties_of hvalues
      | _ => cases h
    | _ => cases w <;> first | exact Or.inl h.symm | cases h

end Json

end Canonical

end Mottainai.JsonValues
