import RuntimeAnalyzer.Findings.Log
import RuntimeAnalyzer.Findings.Reports

/-!
# Searching lines of words

What the parser's searches find in a line that is printed as words: its words come back
(`words_unwords`), a bounds heading needs its rule as an inner word (`not_bounds_heading`), a
field is found under its own key only (`field_of_word_self`, `field_of_word_other`), and a line
opens no box unless it ends in a bracket (`opens_eq_false`).
-/

namespace RuntimeAnalyzer

/-! ## Literals as words and spaces -/

theorem lit_space : lit " " = [space] := by
  decide

theorem lit_two_spaces : lit "  " = [space, space] := by
  decide

theorem lit_ct_space : lit "ct: " = lit "ct:" ++ [space] := by
  decide

theorem newline_ne_space : newline ≠ space := by
  decide

/-! ## Lines of words -/

/-- A word: it holds no space, and no newline. -/
def Plain (word : Bytes) : Prop :=
  space ∉ word ∧ newline ∉ word

instance (word : Bytes) : Decidable (Plain word) :=
  inferInstanceAs (Decidable (_ ∧ _))

@[simp] theorem plain_append_iff {first second : Bytes} :
    Plain (first ++ second) ↔ Plain first ∧ Plain second := by
  simp only [Plain, List.mem_append, not_or]
  tauto

@[simp] theorem plain_assign_iff {key value : Bytes} :
    Plain (assign key value) ↔ Plain key ∧ Plain value := by
  rw [assign, ← List.singleton_append, plain_append_iff, plain_append_iff]
  simp [show Plain [equals] by decide]

@[simp] theorem plain_nil : Plain [] := by decide

@[simp] theorem plain_render (n : Nat) : Plain (Decimal.render n) :=
  ⟨Decimal.not_mem_render n (by decide), Decimal.not_mem_render n (by decide)⟩

@[simp] theorem plain_site (site : Site) : Plain site.text :=
  ⟨space_not_mem_site_text site, newline_not_mem_site_text site⟩

@[simp] theorem plain_token (token : Token) : Plain token.bytes :=
  ⟨token.no_space, token.no_newline⟩

/-- A line's words are read off it. -/
theorem words_unwords {ws : List Bytes} (hne : ws ≠ []) (h : ∀ word ∈ ws, Plain word) :
    words (unwords ws) = ws :=
  List.splitOn_intercalate space (fun word hword => (h word hword).1) hne

/-- A line of words is one line. -/
theorem newline_not_mem_unwords {ws : List Bytes} (h : ∀ word ∈ ws, newline ∉ word) :
    newline ∉ unwords ws := by
  induction ws with
  | nil => simp [unwords]
  | cons word ws ih =>
      have hword := h word (by simp)
      have hrest := ih fun w hw => h w (List.mem_cons_of_mem word hw)
      cases ws with
      | nil => simpa [unwords] using hword
      | cons next ws =>
          rw [unwords, List.intercalate_cons_cons]
          simp only [List.mem_append, not_or]
          exact ⟨⟨hword, by decide⟩, hrest⟩

theorem unwords_append {first second : List Bytes} (hfirst : first ≠ []) (hsecond : second ≠ []) :
    unwords (first ++ second) = unwords first ++ space :: unwords second := by
  induction first with
  | nil => exact absurd rfl hfirst
  | cons word first ih =>
      cases first with
      | nil =>
          obtain ⟨next, more, rfl⟩ := List.exists_cons_of_ne_nil hsecond
          simp [unwords, List.intercalate_cons_cons]
      | cons next first =>
          have hrest := ih (by simp)
          simp only [unwords, List.cons_append, List.intercalate_cons_cons] at hrest ⊢
          rw [hrest]
          simp

/-- Words in a row occur as they are printed alone. -/
theorem infix_unwords {before middle after : List Bytes} (hbefore : before ≠ [])
    (hmiddle : middle ≠ []) (hafter : after ≠ []) :
    unwords middle <:+: unwords (before ++ (middle ++ after)) := by
  rw [unwords_append hbefore (by simp [hmiddle]), unwords_append hmiddle hafter]
  exact ⟨unwords before ++ [space], space :: unwords after, by simp⟩

/-- The last word of a line ends it. -/
theorem unwords_suffix {ws : List Bytes} (hne : ws ≠ []) (word : Bytes) :
    word <:+ unwords (ws ++ [word]) := by
  rw [unwords_append hne (by simp)]
  exact ⟨unwords ws ++ [space], by simp [unwords]⟩

/-- The words that log lines start with. -/
theorem log_prefix_plain {pid : Nat} {level : Level} {word : Bytes}
    (h : word ∈ logPrefix pid level) : Plain word := by
  have htag : Plain level.tag := by cases level <;> decide
  simp only [logPrefix, List.mem_cons, List.not_mem_nil, or_false] at h
  rcases h with rfl | rfl | rfl
  · simp only [plain_append_iff, plain_render, and_true]
    decide
  · decide
  · exact htag

theorem log_prefix_ne_nil (pid : Nat) (level : Level) : logPrefix pid level ≠ [] := by
  simp [logPrefix]

/-! ## Headings in lines of words -/

/-- A bounds heading names its rule as an inner word of the line. -/
theorem not_bounds_heading {line : Bytes} {error : BoundsError}
    (h : error.rule ∉ (words line).tail.dropLast) :
    ¬ lit "ct: " ++ error.rule ++ lit " " <:+: line := by
  have hplain : space ∉ error.rule := by cases error <;> decide
  have hsplit : lit "ct: " ++ error.rule ++ lit " " =
      lit "ct:" ++ space :: error.rule ++ space :: [] := by
    rw [lit_ct_space, lit_space]
    simp
  intro hheading
  rw [hsplit] at hheading
  exact h (ListSplit.mem_inner_pieces hplain hheading)

/-- The words that a bounds report is not named by. -/
def fixedWords : List Bytes :=
  [lit "==ct==", lit "[INFO]", lit "[WARN]", lit "[ERROR]", lit "ct:", lit "WRITE", lit "READ",
    lit "of", lit "size", lit "tracing-free", lit "(double", lit "free)", lit "leak"]

theorem rule_not_fixed (error : BoundsError) : ∀ word ∈ fixedWords, error.rule ≠ word := by
  cases error <;> decide

/-- A rule is no field. -/
theorem rule_ne_assign (error : BoundsError) (key value : Bytes) :
    error.rule ≠ assign key value := by
  have hequals : equals ∉ error.rule := by cases error <;> decide
  intro heq
  exact hequals (by simp [heq, assign])

/-- A list of fixed words and fields names no rule. -/
theorem rule_not_mem (error : BoundsError) {ws : List Bytes}
    (h : ∀ word ∈ ws, word ∈ fixedWords ∨ ∃ key value, word = assign key value) :
    error.rule ∉ ws := by
  intro hmem
  rcases h _ hmem with hfixed | ⟨key, value, heq⟩
  · exact rule_not_fixed error _ hfixed rfl
  · exact rule_ne_assign error key value heq

theorem tag_mem_fixed (level : Level) : level.tag ∈ fixedWords := by
  cases level <;> decide

/-- A prefix without `=` of a field is a prefix of its key. -/
theorem prefix_of_prefix_assign {needle key value : Bytes} (hequals : equals ∉ needle)
    (h : needle <+: assign key value) : needle <+: key := by
  rcases List.prefix_or_prefix_of_prefix h (List.prefix_append key (equals :: value)) with h' | h'
  · exact h'
  · obtain ⟨rest, rfl⟩ := h'
    rw [assign, List.prefix_append_right_inj] at h
    cases rest with
    | nil => simp
    | cons byte rest =>
        rw [List.cons_prefix_cons] at h
        exact absurd (by simp [h.1]) hequals

/-! ## Fields in lines of words -/

/-- A key of a field: a word without `=`. -/
def IsKey (key : Bytes) : Prop :=
  key ≠ [] ∧ space ∉ key ∧ equals ∉ key

instance (key : Bytes) : Decidable (IsKey key) :=
  inferInstanceAs (Decidable (_ ∧ _))

theorem field_of_word_self (key value : Bytes) :
    fieldOfWord key (assign key value) = some value := by
  have hsplit : assign key value = (key ++ [equals]) ++ value := by simp [assign]
  rw [fieldOfWord, hsplit, if_pos (List.prefix_append _ _)]
  congr 1
  rw [show key.length + 1 = (key ++ [equals]).length by simp, List.drop_left]

/-- A field of another key is not the field. -/
theorem field_of_word_other {key other : Bytes} (value : Bytes)
    (h : IsKey key ∧ IsKey other ∧ key ≠ other) : fieldOfWord key (assign other value) = none := by
  obtain ⟨⟨_, _, hkey⟩, ⟨_, _, hother⟩, hne⟩ := h
  rw [fieldOfWord, if_neg]
  intro hpre
  rw [assign, List.append_cons other] at hpre
  have hkeys : key ++ [equals] = other ++ [equals] := by
    rcases List.prefix_or_prefix_of_prefix hpre (List.prefix_append _ value) with h | h
    · rcases List.prefix_concat_iff.mp h with h | h
      · exact h
      · exact absurd (h.subset (by simp)) hother
    · rcases List.prefix_concat_iff.mp h with h | h
      · exact h.symm
      · exact absurd (h.subset (by simp)) hkey
  exact hne (List.append_cancel_right hkeys)

/-- A word without `=` is no field. -/
theorem field_of_word_plain {key word : Bytes} (h : equals ∉ word) :
    fieldOfWord key word = none := by
  rw [fieldOfWord, if_neg]
  exact fun hpre => h (hpre.subset (by simp))

/-- The marker begins with `=`, which no key does. -/
theorem field_of_word_marker {key : Bytes} (h : IsKey key) :
    fieldOfWord key (lit "==ct==") = none := by
  obtain ⟨hne, _, hequals⟩ := h
  rw [fieldOfWord, if_neg]
  intro hpre
  obtain ⟨first, rest, rfl⟩ := List.exists_cons_of_ne_nil hne
  rw [show lit "==ct==" = equals :: lit "=ct==" by decide, List.cons_append,
    List.cons_prefix_cons] at hpre
  exact hequals (by simp [hpre.1])

/-- A field of a line of words is looked up in its words. -/
theorem field_unwords {ws : List Bytes} {key : Bytes} (hne : ws ≠ [])
    (hplain : ∀ word ∈ ws, Plain word) (hkey : IsKey key) :
    field (unwords ws) key = ws.findSome? (fieldOfWord key) := by
  rw [field_eq_find_word hkey.1 hkey.2.1, words_unwords hne hplain]

/-! ## Lines that open no box and are not indented -/

/-- A line that does not end in a bracket opens no box. -/
theorem opens_eq_false {line tail : Bytes} (hsuffix : tail <:+ line)
    (h : tail.getLast? ≠ some closingBracket) (hne : tail ≠ []) :
    DiagnosticBox.opens line = false := by
  have hlast : line.getLast? = tail.getLast? := by
    obtain ⟨before, rfl⟩ := hsuffix
    rw [List.getLast?_append_of_ne_nil before hne]
  have hends : ∀ tag : Bytes, tag.getLast? = some closingBracket → endsWith line tag = false := by
    intro tag htag
    rw [← Bool.not_eq_true, endsWith_iff]
    intro hline
    obtain ⟨before, hbefore⟩ := hline
    refine h ?_
    rw [← hlast, ← hbefore, List.getLast?_append, htag]
    rfl
  simp [DiagnosticBox.opens, hends (lit "[VTABLE]") (by decide), hends (lit "[VCALL]") (by decide)]

/-- A line with the prefix is not indented. -/
theorem log_line_not_indented (pid : Nat) (level : Level) (ws : List Bytes) :
    startsWith (unwords (logPrefix pid level ++ ws)) (lit "  ") = false := by
  rw [logPrefix, show lit "|" = [124] by decide, List.cons_append, List.append_assoc,
    List.singleton_append, unwords, List.intercalate_cons_cons_left, ← Bool.not_eq_true,
    startsWith_iff, lit_two_spaces, List.cons_prefix_cons]
  exact fun h => absurd h.1 (by decide)

/-- A numeral ends in no bracket. -/
theorem getLast_render_ne (n : Nat) : (Decimal.render n).getLast? ≠ some closingBracket := by
  intro h
  exact Decimal.not_mem_render n (by decide) (List.mem_of_getLast? h)

/-- Nor does a site. -/
theorem getLast_site_ne (site : Site) : site.text.getLast? ≠ some closingBracket := by
  cases site with
  | unknown => decide
  | known site =>
      cases hcolumn : site.column with
      | none =>
          rw [Site.text, hcolumn, Site.columnText, List.append_nil,
            List.append_cons, List.getLast?_append_of_ne_nil _ (Decimal.render_ne_nil _)]
          exact getLast_render_ne site.line
      | some column =>
          rw [Site.text, hcolumn, Site.columnText,
            List.append_cons, List.getLast?_append_of_ne_nil _ (Decimal.render_ne_nil _)]
          exact getLast_render_ne column

/-- The last byte of a field with a value is the value's. -/
theorem getLast_assign (key : Bytes) {value : Bytes} (hne : value ≠ []) :
    (assign key value).getLast? = value.getLast? := by
  rw [assign, List.append_cons, List.getLast?_append_of_ne_nil _ hne]

/-- A token's field ends in no bracket. -/
theorem getLast_assign_token (key : Bytes) (token : Token) :
    (assign key token.bytes).getLast? ≠ some closingBracket := by
  by_cases hne : token.bytes = []
  · rw [hne, assign, List.getLast?_append_of_ne_nil _ (by simp)]
    decide
  · rw [getLast_assign key hne]
    exact fun h => token.no_bracket (List.mem_of_getLast? h)

end RuntimeAnalyzer
