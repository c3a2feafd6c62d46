import Mathlib.Data.List.Infix

/-!
# Texts that are read back part by part

Parts are written with a separator between them or a terminator after each, or each after its
length. A text with brackets is cut at the separators outside of them, where a kind says of each
letter whether it opens or closes a bracket: two readers cut alike exactly if the first has counted
some open bracket at each separator inside brackets.
-/

namespace Mottainai.SeparatedTexts

section Separated

variable {α : Type} {x : α} {parts parts' : List (List α)}

theorem intercalate_cons (separator part : List α) (parts : List (List α)) :
    separator.intercalate (part :: parts) = part ++ parts.flatMap (separator ++ ·) := by
  induction parts generalizing part with
  | nil => simp
  | cons next parts ih => rw [List.intercalate_cons_cons, ih, List.flatMap_cons, List.append_assoc, List.append_assoc]

variable [DecidableEq α]

/-- Parts without the separator are told by the text in which each is after one. -/
theorem flatMap_cons_injective (h : ∀ part ∈ parts, x ∉ part) (h' : ∀ part ∈ parts', x ∉ part)
    (heq : parts.flatMap (x :: ·) = parts'.flatMap (x :: ·)) : parts = parts' := by
  have hsplit : ∀ parts : List (List α), (∀ part ∈ parts, x ∉ part) →
      (parts.flatMap (x :: ·)).splitOn x = [] :: parts := by
    intro parts h
    have hnil : ∀ part ∈ [] :: parts, x ∉ part := by
      intro part hpart
      rcases List.mem_cons.mp hpart with rfl | hpart
      · exact List.not_mem_nil
      · exact h part hpart
    have htext : [x].intercalate ([] :: parts) = parts.flatMap (x :: ·) := by
      rw [intercalate_cons]
      rfl
    rw [← htext, List.splitOn_intercalate x hnil (List.cons_ne_nil _ _)]
  have hboth := congrArg (List.splitOn x) heq
  rw [hsplit parts h, hsplit parts' h'] at hboth
  exact (List.cons.inj hboth).2

/-- Parts with a terminator after each are read back by splitting at it. -/
theorem splitOn_terminated (h : ∀ part ∈ parts, x ∉ part ∧ part ≠ []) :
    ((parts.flatMap (· ++ [x])).splitOn x).filter (· ≠ []) = parts := by
  have htext : parts.flatMap (· ++ [x]) = [x].intercalate (parts ++ [[]]) := by
    clear h
    induction parts with
    | nil => simp
    | cons part parts ih =>
      rw [List.flatMap_cons, ih, List.cons_append, intercalate_cons]
      cases parts with
      | nil => simp
      | cons next parts => simp [intercalate_cons]
  have hplain : ∀ part ∈ parts ++ [[]], x ∉ part := by
    intro part hpart
    rcases List.mem_append.mp hpart with hpart | hpart
    · exact (h part hpart).1
    · rw [List.mem_singleton.mp hpart]
      exact List.not_mem_nil
  rw [htext, List.splitOn_intercalate x hplain (by simp), List.filter_append,
    List.filter_eq_self.mpr fun part hpart => by simp [(h part hpart).2]]
  simp

end Separated

end Mottainai.SeparatedTexts

namespace LengthFraming

variable {α β γ : Type}

/-- A value is told from what follows its encoding. -/
def SelfDelimiting (encode : β → List α) : Prop :=
  ∀ ⦃a b : β⦄ ⦃r s : List α⦄, encode a ++ r = encode b ++ s → a = b ∧ r = s

def frame (numeral : ℕ → List α) (stop : α) (text : List α) : List α :=
  numeral text.length ++ stop :: text

section Frames

variable {numeral : ℕ → List α} {stop : α}

/-- What is before the first `stop` of two equal texts is equal. -/
theorem append_stop_cancel {xs ys r s : List α} (hx : stop ∉ xs) (hy : stop ∉ ys)
    (h : xs ++ stop :: r = ys ++ stop :: s) : xs = ys ∧ r = s := by
  induction xs generalizing ys with
  | nil =>
    cases ys with
    | nil => exact ⟨rfl, (List.cons.inj h).2⟩
    | cons y ys => exact absurd ((List.cons.inj h).1 ▸ List.mem_cons_self) hy
  | cons x xs ih =>
    cases ys with
    | nil => exact absurd ((List.cons.inj h).1.symm ▸ List.mem_cons_self) hx
    | cons y ys =>
      obtain ⟨rfl, htail⟩ := List.cons.inj h
      obtain ⟨rfl, hrest⟩ := ih (fun hmem => hx (List.mem_cons_of_mem _ hmem))
        (fun hmem => hy (List.mem_cons_of_mem _ hmem)) htail
      exact ⟨rfl, hrest⟩

theorem selfDelimiting_frame (hinjective : Function.Injective numeral)
    (hstop : ∀ n, stop ∉ numeral n) : SelfDelimiting (frame numeral stop) := by
  intro a b r s h
  simp only [frame, List.append_assoc, List.cons_append] at h
  obtain ⟨hnumeral, hrest⟩ := append_stop_cancel (hstop _) (hstop _) h
  exact List.append_inj hrest (hinjective hnumeral)

end Frames

section Records

variable {encode : β → List α} {other : γ → List α} {separator : α} {l l' : List β}

theorem SelfDelimiting.injective (h : SelfDelimiting encode) : Function.Injective encode := by
  intro a b hab
  exact (h (r := []) (s := []) (by rw [hab])).1

theorem SelfDelimiting.pair (h : SelfDelimiting encode) (h' : SelfDelimiting other) :
    SelfDelimiting fun value : β × γ => encode value.1 ++ separator :: other value.2 := by
  rintro ⟨a, c⟩ ⟨b, d⟩ r s heq
  simp only [List.append_assoc, List.cons_append] at heq
  obtain ⟨rfl, hrest⟩ := h heq
  obtain ⟨rfl, hend⟩ := h' (List.cons.inj hrest).2
  exact ⟨rfl, hend⟩

theorem intercalate_cons_cons (a b : β) :
    [separator].intercalate ((a :: b :: l).map encode) =
      encode a ++ separator :: [separator].intercalate ((b :: l).map encode) := by
  rw [List.map_cons, List.map_cons, List.intercalate_cons_cons, List.append_assoc]
  rfl

/-- Joined encodings, none of which is empty, are read back. -/
theorem SelfDelimiting.intercalate_injective (h : SelfDelimiting encode)
    (hne : ∀ a, encode a ≠ []) (heq : [separator].intercalate (l.map encode) =
      [separator].intercalate (l'.map encode)) : l = l' := by
  have hnil : ∀ (a : β) (l : List β), [separator].intercalate ((a :: l).map encode) ≠ [] := by
    intro a l
    cases l with
    | nil => simpa using hne a
    | cons b l =>
      rw [intercalate_cons_cons]
      simp
  induction l generalizing l' with
  | nil =>
    cases l' with
    | nil => rfl
    | cons b l' => exact absurd heq.symm (hnil b l')
  | cons a l ih =>
    cases l' with
    | nil => exact absurd heq (hnil a l)
    | cons b l' =>
      cases l with
      | nil =>
        cases l' with
        | nil =>
          have hsingle : encode a = encode b := by simpa using heq
          rw [h.injective hsingle]
        | cons b' l' =>
          rw [intercalate_cons_cons, ← List.append_nil ([separator].intercalate _)] at heq
          have hsingle : encode a ++ [] = encode b ++
              separator :: [separator].intercalate ((b' :: l').map encode) := by
            simpa using heq
          exact absurd (h hsingle).2 (by simp)
      | cons a' l =>
        cases l' with
        | nil =>
          rw [intercalate_cons_cons] at heq
          have hsingle : encode a ++ separator :: [separator].intercalate ((a' :: l).map encode) =
              encode b ++ [] := by
            simpa using heq
          exact absurd (h hsingle).2 (by simp)
        | cons b' l' =>
          rw [intercalate_cons_cons, intercalate_cons_cons] at heq
          obtain ⟨rfl, hrest⟩ := h heq
          rw [ih (List.cons.inj hrest).2]

end Records

end LengthFraming

namespace NestedTexts

inductive Kind where
  | opening
  | closing
  | separator
  | other
  deriving DecidableEq

variable {α : Type}

section Depth

/-- A bracket that was not opened is passed over. -/
def Kind.move : Kind → ℕ → ℕ
  | opening, depth => depth + 1
  | closing, depth => depth - 1
  | separator, depth => depth
  | other, depth => depth

def depthFrom (kind : α → Kind) (depth : ℕ) (text : List α) : ℕ :=
  text.foldl (fun depth letter => (kind letter).move depth) depth

def depthAfter (kind : α → Kind) (text : List α) : ℕ := depthFrom kind 0 text

def openings (kind : α → Kind) (text : List α) : ℕ := text.countP (kind · = .opening)

def closings (kind : α → Kind) (text : List α) : ℕ := text.countP (kind · = .closing)

variable (kind : α → Kind)
variable (text : List α)

theorem depthAfter_concat (letter : α) :
    depthAfter kind (text ++ [letter]) = (kind letter).move (depthAfter kind text) := by
  simp [depthAfter, depthFrom]

theorem openings_concat (letter : α) :
    openings kind (text ++ [letter]) = openings kind text + if kind letter = .opening then 1 else 0 := by
  simp [openings, List.countP_singleton]

theorem closings_concat (letter : α) :
    closings kind (text ++ [letter]) = closings kind text + if kind letter = .closing then 1 else 0 := by
  simp [closings, List.countP_singleton]

theorem exists_suffix_concat {text : List α} {letter : α} {P : List α → Prop} (hnil : ¬ P []) :
    (∃ stretch, stretch <:+ text ++ [letter] ∧ P stretch) ↔
      ∃ stretch, stretch <:+ text ∧ P (stretch ++ [letter]) := by
  constructor
  · rintro ⟨stretch, hsuffix, hp⟩
    rcases List.suffix_concat_iff.1 hsuffix with rfl | ⟨stretch', rfl, hsuffix'⟩
    · exact absurd hp hnil
    · exact ⟨stretch', hsuffix', hp⟩
  · rintro ⟨stretch, ⟨before, rfl⟩, hp⟩
    exact ⟨stretch ++ [letter], ⟨before, by rw [List.append_assoc]⟩, hp⟩

theorem lt_depthAfter_iff (n : ℕ) :
    n < depthAfter kind text ↔
      ∃ stretch, stretch <:+ text ∧ closings kind stretch + n < openings kind stretch := by
  induction text using List.reverseRecOn generalizing n with
  | nil =>
    simp [depthAfter, depthFrom, openings, closings]
  | append_singleton text letter ih =>
    rw [depthAfter_concat, exists_suffix_concat (by simp [openings, closings])]
    simp only [openings_concat, closings_concat]
    cases hkind : kind letter with
    | opening =>
      cases n with
      | zero =>
        refine ⟨fun _ => ⟨[], List.nil_suffix, by simp [openings, closings]⟩, fun _ => ?_⟩
        exact Nat.succ_pos _
      | succ n =>
        simpa [Kind.move, ← Nat.add_assoc] using ih n
    | closing =>
      have hmove : n < depthAfter kind text - 1 ↔ n + 1 < depthAfter kind text := by omega
      rw [Kind.move, hmove, ih (n + 1)]
      simp [Nat.add_assoc, Nat.add_comm 1 n]
    | separator => simpa [Kind.move] using ih n
    | other => simpa [Kind.move] using ih n

end Depth

section Cutting

def cutFrom (kind : α → Kind) (depth : ℕ) (part : List α) : List α → List (List α)
  | [] => [part]
  | letter :: text =>
      if kind letter = .separator ∧ depth = 0 then part :: cutFrom kind 0 [] text
      else cutFrom kind ((kind letter).move depth) (part ++ [letter]) text

def cut (kind : α → Kind) (text : List α) : List (List α) := cutFrom kind 0 [] text

variable {kind kind' : α → Kind} {p : α → Bool}

theorem cutFrom_ne_nil (depth : ℕ) (part text : List α) : cutFrom kind depth part text ≠ [] := by
  induction text generalizing depth part with
  | nil => exact List.cons_ne_nil _ _
  | cons letter text ih =>
    unfold cutFrom
    split
    · exact List.cons_ne_nil _ _
    · exact ih _ _

/-- What else is known of the letters does not matter to the reader. -/
theorem cutFrom_map {β : Type} (f : β → α) (depth : ℕ) (part text : List β) :
    cutFrom kind depth (part.map f) (text.map f) =
      (cutFrom (fun letter => kind (f letter)) depth part text).map (List.map f) := by
  induction text generalizing depth part with
  | nil => rfl
  | cons letter text ih =>
    simp only [List.map_cons, cutFrom]
    split
    · exact congrArg (part.map f :: ·) (ih 0 [])
    · rw [← ih, List.map_append, List.map_singleton]

theorem cut_map {β : Type} (f : β → α) (text : List β) :
    cut kind (text.map f) = (cut (fun letter => kind (f letter)) text).map (List.map f) :=
  cutFrom_map f 0 [] text

/-- A reader that sees closing brackets where another sees nothing. -/
def ClosesMore (kind kind' : α → Kind) : Prop :=
  ∀ letter, kind letter = kind' letter ∨ kind letter = .closing ∧ kind' letter = .other

theorem ClosesMore.separator (h : ClosesMore kind kind') (letter : α) :
    kind letter = .separator ↔ kind' letter = .separator := by
  rcases h letter with heq | ⟨hclosing, hother⟩
  · rw [heq]
  · simp [hclosing, hother]

variable {text : List α} {depth depth' : ℕ}

/-- It never counts deeper. -/
theorem ClosesMore.move_le (h : ClosesMore kind kind') (letter : α) (hdepth : depth ≤ depth') :
    (kind letter).move depth ≤ (kind' letter).move depth' := by
  rcases h letter with heq | ⟨hclosing, hother⟩
  · rw [heq]
    cases kind' letter <;> simp only [Kind.move] <;> omega
  · rw [hclosing, hother]
    simp only [Kind.move]
    omega

/-- The first reader has counted some open bracket at each separator inside brackets. -/
def Inside (kind kind' : α → Kind) (depth depth' : ℕ) (text : List α) : Prop :=
  ∀ before letter after, text = before ++ letter :: after → kind' letter = .separator →
    0 < depthFrom kind' depth' before → 0 < depthFrom kind depth before

theorem inside_cons {letter : α} :
    Inside kind kind' depth depth' (letter :: text) ↔
      (kind' letter = .separator → 0 < depth' → 0 < depth) ∧
        Inside kind kind' ((kind letter).move depth) ((kind' letter).move depth') text := by
  constructor
  · intro h
    refine ⟨fun hsep => h [] letter text rfl hsep, fun before other after htext => ?_⟩
    exact h (letter :: before) other after (by rw [htext, List.cons_append])
  · rintro ⟨hfirst, hrest⟩ before other after htext
    cases before with
    | nil =>
      obtain ⟨rfl, rfl⟩ := List.cons.inj htext
      exact hfirst
    | cons first before =>
      obtain ⟨rfl, htail⟩ := List.cons.inj htext
      exact hrest before other after htail

/-- Then the readers cut alike. -/
theorem cutFrom_eq (h : ClosesMore kind kind') (hdepth : depth ≤ depth')
    (hinside : Inside kind kind' depth depth' text) (part : List α) :
    cutFrom kind depth part text = cutFrom kind' depth' part text := by
  induction text generalizing depth depth' part with
  | nil => rfl
  | cons letter text ih =>
    obtain ⟨hfirst, hrest⟩ := inside_cons.1 hinside
    have hcut : (kind letter = .separator ∧ depth = 0) ↔ kind' letter = .separator ∧ depth' = 0 := by
      rw [h.separator]
      refine and_congr_right fun hsep => ⟨fun hzero => ?_, fun hzero => by omega⟩
      by_contra hne
      exact absurd (hfirst hsep (Nat.pos_of_ne_zero hne)) (by omega)
    simp only [cutFrom, hcut]
    split
    · next hsep =>
      have hsep' := h.separator letter |>.2 hsep.1
      rw [hsep.1, hsep', hsep.2, show depth = 0 by omega] at hrest
      rw [ih (Nat.le_refl 0) hrest]
    · exact ih (h.move_le letter hdepth) hrest _

def leftIn (p : α → Bool) (parts : List (List α)) : ℕ :=
  (parts.map (List.countP p)).foldr (· + ·) 0

theorem leftIn_cons (part : List α) (parts : List (List α)) :
    leftIn p (part :: parts) = part.countP p + leftIn p parts := by simp [leftIn]

theorem leftIn_part (depth : ℕ) (part text : List α) :
    leftIn p (cutFrom kind depth part text) =
      part.countP p + leftIn p (cutFrom kind depth [] text) := by
  induction text generalizing depth part with
  | nil => simp [cutFrom, leftIn]
  | cons letter text ih =>
    simp only [cutFrom]
    split
    · simp [leftIn_cons]
    · rw [ih _ (part ++ [letter]), ih _ ([] ++ [letter])]
      simp [Nat.add_assoc]

/-- The first reader leaves no more separators in its parts, and fewer if it has counted none open
at some separator inside brackets. -/
theorem leftIn_cutFrom (h : ClosesMore kind kind')
    (hp : ∀ letter, p letter ↔ kind' letter = .separator) (hdepth : depth ≤ depth')
    (text : List α) {part part' : List α} (hpart : part.countP p ≤ part'.countP p) :
    leftIn p (cutFrom kind depth part text) ≤ leftIn p (cutFrom kind' depth' part' text) ∧
      (part.countP p < part'.countP p ∨ ¬ Inside kind kind' depth depth' text →
        leftIn p (cutFrom kind depth part text) < leftIn p (cutFrom kind' depth' part' text)) := by
  induction text generalizing depth depth' part part' with
  | nil =>
    simp only [cutFrom, leftIn_cons]
    refine ⟨by omega, ?_⟩
    rintro (hlt | hinside)
    · omega
    · exact absurd (fun before letter after htext => by simp at htext) hinside
  | cons letter text ih =>
    have hsep := h.separator letter
    have hcount : ∀ part : List α, (part ++ [letter]).countP p =
        part.countP p + if kind' letter = .separator then 1 else 0 := by
      intro part
      simp [List.countP_append, List.countP_singleton, hp]
    by_cases hcut : kind letter = .separator ∧ depth = 0
    · obtain ⟨hletter, rfl⟩ := hcut
      have hletter' := hsep.1 hletter
      by_cases hzero : depth' = 0
      · subst hzero
        have hrest := ih (Nat.le_refl 0) (Nat.le_refl (([] : List α).countP p))
        simp only [cutFrom, hletter, hletter', and_self, if_true, leftIn_cons, inside_cons, Kind.move]
        refine ⟨by omega, ?_⟩
        rintro (hlt | hinside)
        · omega
        · have hlt := hrest.2 (Or.inr fun htext => hinside ⟨fun _ hpos => hpos, htext⟩)
          omega
      · -- The second reader keeps this separator.
        have hrest := ih (Nat.zero_le depth')
          (show part.countP p ≤ (part' ++ [letter]).countP p by rw [hcount]; omega)
        rw [leftIn_part] at hrest
        have hlt := hrest.2 (Or.inl (by rw [hcount, if_pos hletter']; omega))
        simp only [cutFrom, hletter, hletter', hzero, and_self, and_false, if_true, if_false,
          leftIn_cons, Kind.move]
        exact ⟨by omega, fun _ => hlt⟩
    · have hcut' : ¬ (kind' letter = .separator ∧ depth' = 0) := by
        rintro ⟨hletter', rfl⟩
        exact hcut ⟨hsep.2 hletter', by omega⟩
      have hrest := ih (h.move_le letter hdepth)
        (show (part ++ [letter]).countP p ≤ (part' ++ [letter]).countP p by
          rw [hcount, hcount]; omega)
      simp only [cutFrom, hcut, hcut', if_false]
      refine ⟨hrest.1, fun hor => hrest.2 (hor.imp ?_ ?_)⟩
      · rw [hcount, hcount]
        omega
      · intro hinside htext
        refine hinside (inside_cons.2 ⟨fun hletter' _ => ?_, htext⟩)
        exact Nat.pos_of_ne_zero fun hzero => hcut ⟨hsep.2 hletter', hzero⟩

/-- A reader that is inside brackets wherever the other one is cuts alike. -/
theorem cut_eq (h : ClosesMore kind kind') (hinside : Inside kind kind' 0 0 text) :
    cut kind text = cut kind' text := cutFrom_eq h (Nat.le_refl 0) hinside []

/-- Otherwise the first reader leaves fewer separators. -/
theorem leftIn_cut_lt (h : ClosesMore kind kind')
    (hp : ∀ letter, p letter ↔ kind' letter = .separator) (hinside : ¬ Inside kind kind' 0 0 text) :
    leftIn p (cut kind text) < leftIn p (cut kind' text) :=
  (leftIn_cutFrom h hp (Nat.le_refl 0) text (Nat.le_refl _)).2 (Or.inr hinside)

/-- Where a reader is inside brackets, said without its depth. -/
theorem inside_iff :
    Inside kind kind' 0 0 text ↔ ∀ before letter after, text = before ++ letter :: after →
      kind' letter = .separator → 0 < depthAfter kind' before →
        ∃ stretch, stretch <:+ before ∧ closings kind stretch < openings kind stretch := by
  have hpos : ∀ before, 0 < depthFrom kind 0 before ↔
      ∃ stretch, stretch <:+ before ∧ closings kind stretch < openings kind stretch :=
    fun before => lt_depthAfter_iff kind before 0
  simp only [Inside, hpos]
  rfl

end Cutting

end NestedTexts
