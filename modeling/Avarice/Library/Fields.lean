import Mathlib.Data.List.DropRight

/-!
# Separated lists

A text is made of fields between separators, with white space around them.  The
fields are found from the left: what is neither space nor separator begins one,
and the next separator ends it.
-/

namespace Fields

variable {Symbol : Type} [DecidableEq Symbol] (separator : Symbol) (space : Symbol → Bool)

/-- The fields without the white space around them, if something is left. -/
def tokens (text : List Symbol) : List (List Symbol) :=
  ((text.splitOn separator).map fun field => (field.dropWhile space).rdropWhile space).filter
    (· ≠ [])

/-- The fields without the white space before them. -/
def fields (text : List Symbol) : List (List Symbol) :=
  (text.splitOn separator).map (·.dropWhile space)

/-- From the left, the fields that have something in them, and an empty one at
the end of a text whose last field has not. -/
def pieces (text : List Symbol) : List (List Symbol) :=
  (fields separator space text).filter (· ≠ []) ++
    if text ≠ [] ∧ (fields separator space text).getLast? = some [] then [[]] else []

def skip (text : List Symbol) : List Symbol :=
  text.dropWhile fun symbol => space symbol || symbol == separator

def field (text : List Symbol) : List Symbol := text.takeWhile (· ≠ separator)

def behind (text : List Symbol) : List Symbol := text.dropWhile (· ≠ separator)

variable {separator space}

theorem fields_ne_nil (text : List Symbol) : fields separator space text ≠ [] := by
  simp [fields, List.splitOn_ne_nil]

@[simp]
theorem fields_separator (text : List Symbol) :
    fields separator space (separator :: text) = [] :: fields separator space text := by
  simp [fields, List.splitOn_cons_eq_if_modifyHead]

theorem fields_space {symbol : Symbol} (isSpace : space symbol = true)
    (other : symbol ≠ separator) (text : List Symbol) :
    fields separator space (symbol :: text) = fields separator space text := by
  cases split : text.splitOn separator with
  | nil => exact absurd split (List.splitOn_ne_nil separator text)
  | cons first others =>
      simp [fields, List.splitOn_cons_eq_if_modifyHead, other, split, isSpace]

theorem getLast?_cons_fields (front text : List Symbol) :
    (front :: fields separator space text).getLast? = (fields separator space text).getLast? := by
  rw [List.getLast?_cons, List.getLast?_eq_some_getLast (fields_ne_nil text)]
  rfl

theorem behind_eq (text : List Symbol) :
    behind separator text = [] ∨ ∃ later, behind separator text = separator :: later := by
  induction text with
  | nil => exact .inl rfl
  | cons symbol rest inductionHypothesis =>
      by_cases isSeparator : symbol = separator
      · exact .inr ⟨rest, by simp [behind, isSeparator]⟩
      · simpa [behind, isSeparator] using inductionHypothesis

theorem pieces_nil : pieces separator space [] = [] := by
  simp [pieces, fields]

theorem pieces_skip {symbol : Symbol} (skipped : space symbol = true ∨ symbol = separator)
    {text : List Symbol} (some : text ≠ []) :
    pieces separator space (symbol :: text) = pieces separator space text := by
  by_cases isSeparator : symbol = separator
  · subst isSeparator
    simp [pieces, getLast?_cons_fields, some]
  · have isSpace := skipped.resolve_right isSeparator
    simp [pieces, fields_space isSpace isSeparator, some]

theorem pieces_skipped {symbol : Symbol} (skipped : space symbol = true ∨ symbol = separator) :
    pieces separator space [symbol] = [[]] := by
  have none : fields separator space [] = [[]] := by simp [fields]
  by_cases isSeparator : symbol = separator
  · subst isSeparator
    simp [pieces, none]
  · have isSpace := skipped.resolve_right isSeparator
    simp [pieces, fields_space isSpace isSeparator, none]

theorem pieces_append {word rest : List Symbol} (some : word ≠ [])
    (trimmed : word.dropWhile space = word) (whole : separator ∉ word)
    (ends : rest = [] ∨ ∃ later, rest = separator :: later) :
    pieces separator space (word ++ rest) = word :: pieces separator space rest := by
  rcases ends with rfl | ⟨later, rfl⟩
  · have single : fields separator space word = [word] := by
      rw [fields, List.splitOn_eq_singleton whole, List.map_singleton, trimmed]
    rw [List.append_nil, pieces_nil, pieces, single]
    simp [some]
  · have split : fields separator space (word ++ separator :: later) =
        word :: fields separator space later := by
      rw [fields, List.splitOn_append_cons_self_of_not_mem whole, List.map_cons, trimmed]
      rfl
    simp [pieces, split, getLast?_cons_fields, some]

theorem pieces_eq {text : List Symbol} (some : text ≠ []) :
    pieces separator space text =
      field separator (skip separator space text) ::
        pieces separator space (behind separator (skip separator space text)) := by
  induction text with
  | nil => exact absurd rfl some
  | cons symbol rest inductionHypothesis =>
      by_cases skipped : space symbol = true ∨ symbol = separator
      · have skips : skip separator space (symbol :: rest) = skip separator space rest := by
          simp [skip, skipped]
        rw [skips]
        by_cases last : rest = []
        · rw [last, pieces_skipped skipped]
          simp [skip, field, behind, pieces_nil]
        · rw [pieces_skip skipped last]
          exact inductionHypothesis last
      · obtain ⟨noSpace, noSeparator⟩ := not_or.mp skipped
        have stays : skip separator space (symbol :: rest) = symbol :: rest := by
          simp [skip, noSpace, noSeparator]
        have starts : field separator (symbol :: rest) =
            symbol :: rest.takeWhile (· ≠ separator) := by simp [field, noSeparator]
        have parts : field separator (symbol :: rest) ++ behind separator (symbol :: rest) =
            symbol :: rest := List.takeWhile_append_dropWhile
        rw [stays]
        calc pieces separator space (symbol :: rest)
            = pieces separator space
                (field separator (symbol :: rest) ++ behind separator (symbol :: rest)) := by
              rw [parts]
          _ = _ := pieces_append (by simp [starts]) (by simp [starts, noSpace])
              (fun inside => by simpa using List.mem_takeWhile_imp inside)
              (behind_eq (symbol :: rest))

theorem behind_skip_length_lt {text : List Symbol} (some : text ≠ []) :
    (behind separator (skip separator space text)).length < text.length := by
  have shorter : ∀ rest : List Symbol,
      (behind separator (skip separator space rest)).length ≤ rest.length := fun rest =>
    Nat.le_trans (List.length_dropWhile_le _ _) (List.length_dropWhile_le _ _)
  cases text with
  | nil => exact absurd rfl some
  | cons symbol rest =>
      by_cases skipped : space symbol = true ∨ symbol = separator
      · have skips : skip separator space (symbol :: rest) = skip separator space rest := by
          simp [skip, skipped]
        rw [skips]
        exact Nat.lt_succ_of_le (shorter rest)
      · obtain ⟨noSpace, noSeparator⟩ := not_or.mp skipped
        have stays : behind separator (skip separator space (symbol :: rest)) =
            behind separator rest := by
          simp [skip, behind, noSpace, noSeparator]
        rw [stays]
        exact Nat.lt_succ_of_le (List.length_dropWhile_le _ _)

theorem mem_pieces_iff {piece text : List Symbol} (some : piece ≠ []) :
    piece ∈ pieces separator space text ↔ piece ∈ fields separator space text := by
  rw [pieces, List.mem_append]
  split <;> simp [some]

theorem mem_tokens_iff {token text : List Symbol} (some : token ≠ []) :
    token ∈ tokens separator space text ↔
      ∃ field ∈ fields separator space text, field.rdropWhile space = token := by
  simp [tokens, fields, some]

end Fields
