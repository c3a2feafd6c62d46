import Mathlib.Data.List.Basic

/-!
# Words of a shell command

A POSIX shell reads a line character by character. Blanks end a word, a backslash keeps the next
character, nothing is special between single quotes, and between double quotes only what begins an
expansion. `words` splits a line into its words and removes the quotes. It has no answer for a line
with an operator, an expansion, a pattern, a comment or an open quote.
-/

namespace ShellWords

section Reading

inductive Quoting where
  | unquoted
  | escaped
  | single
  | double
  | doubleEscaped
  deriving DecidableEq

def isBlank (c : Char) : Bool := c = ' ' || c = '\t'

/-- What begins an operator, an expansion or a pattern outside quotes. -/
def isSpecial (c : Char) : Bool :=
  c ∈ ['\n', '|', '&', ';', '<', '>', '(', ')', '$', '\x60', '*', '?', '[', ']', '~', '\x7b', '\x7d',
    '!', '=']

/-- What a backslash between double quotes may precede. -/
def isEscapable (c : Char) : Bool := c ∈ ['$', '\x60', '"', '\\']

/-- The word so far with another character. -/
def extend (word : Option (List Char)) (c : Char) : Option (List Char) :=
  some (word.getD [] ++ [c])

def wordsFrom : Quoting → Option (List Char) → List Char → Option (List (List Char))
  | .unquoted, word, [] => some word.toList
  | _, _, [] => none
  | .unquoted, word, c :: cs =>
    if isBlank c then (wordsFrom .unquoted none cs).map (word.toList ++ ·)
    else if c = '\\' then wordsFrom .escaped word cs
    else if c = '\'' then wordsFrom .single (some (word.getD [])) cs
    else if c = '"' then wordsFrom .double (some (word.getD [])) cs
    else if isSpecial c then none
    else if c = '#' ∧ word = none then none
    else wordsFrom .unquoted (extend word c) cs
  | .escaped, word, c :: cs =>
    if c = '\n' then wordsFrom .unquoted word cs
    else wordsFrom .unquoted (extend word c) cs
  | .single, word, c :: cs =>
    if c = '\'' then wordsFrom .unquoted word cs
    else wordsFrom .single (extend word c) cs
  | .double, word, c :: cs =>
    if c = '"' then wordsFrom .unquoted word cs
    else if c = '\\' then wordsFrom .doubleEscaped word cs
    else if c = '$' ∨ c = '\x60' then none
    else wordsFrom .double (extend word c) cs
  | .doubleEscaped, word, c :: cs =>
    if c = '\n' then wordsFrom .double word cs
    else if isEscapable c then wordsFrom .double (extend word c) cs
    else wordsFrom .double (extend (extend word '\\') c) cs

def words (line : String) : Option (List String) :=
  (wordsFrom .unquoted none line.toList).map fun words => words.map String.ofList

end Reading

section Quoted

/-- A character between single quotes. A quote is put between double quotes, outside of them. -/
def quotedChar (c : Char) : List Char :=
  if c = '\'' then ['\'', '"', '\'', '"', '\''] else [c]

def quoted (text : List Char) : List Char := '\'' :: (text.flatMap quotedChar ++ ['\''])

theorem wordsFrom_quotedChar (word : List Char) (c : Char) (rest : List Char) :
    wordsFrom .single (some word) (quotedChar c ++ rest) =
      wordsFrom .single (some (word ++ [c])) rest := by
  unfold quotedChar
  split
  · next hquote =>
    subst hquote
    simp [wordsFrom, extend, isBlank]
  · next hquote => simp [wordsFrom, extend, hquote]

theorem wordsFrom_quotedChars (word text rest : List Char) :
    wordsFrom .single (some word) (text.flatMap quotedChar ++ rest) =
      wordsFrom .single (some (word ++ text)) rest := by
  induction text generalizing word with
  | nil => simp
  | cons c text ih =>
    rw [List.flatMap_cons, List.append_assoc, wordsFrom_quotedChar, ih, List.append_assoc,
      List.singleton_append]

theorem wordsFrom_quoted (text rest : List Char) :
    wordsFrom .unquoted none (quoted text ++ rest) = wordsFrom .unquoted (some text) rest := by
  have hopen : wordsFrom .unquoted none (quoted text ++ rest) =
      wordsFrom .single (some []) (text.flatMap quotedChar ++ ('\'' :: rest)) := by
    simp [quoted, wordsFrom, isBlank]
  rw [hopen, wordsFrom_quotedChars]
  simp [wordsFrom]

theorem wordsFrom_intercalate_quoted (texts : List (List Char)) :
    wordsFrom .unquoted none ([' '].intercalate (texts.map quoted)) = some texts := by
  induction texts with
  | nil => rfl
  | cons text texts ih =>
    cases texts with
    | nil =>
      have hquoted := wordsFrom_quoted text []
      rw [List.append_nil] at hquoted
      simp [List.intercalate_singleton, hquoted, wordsFrom]
    | cons next texts =>
      rw [List.map_cons, List.map_cons, List.intercalate_cons_cons, List.append_assoc,
        wordsFrom_quoted]
      rw [List.map_cons] at ih
      simp [wordsFrom, isBlank, ih]

end Quoted

end ShellWords
