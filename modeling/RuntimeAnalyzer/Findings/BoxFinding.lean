import RuntimeAnalyzer.Findings.Box

/-!
# The finding of a box

`DiagnosticBox.toFinding` walks the rows once. Read as a whole (`to_finding_of_warning`), the
message lists the warnings from the first that is not empty, the rule is the first entry of the
table that any of them starts with, and the location is the one all site rows agree on.
-/

namespace RuntimeAnalyzer

namespace DiagnosticBox

/-- The values of the rows that warn. -/
def warnValues (rows : List (Bytes × Bytes)) : List Bytes :=
  (rows.filter (·.1 = lit "warn")).map (·.2)

/-- The entry of the table that a list of warnings names. -/
def entryOf (values : List Bytes) : Option VtableRule :=
  kVtableRules.find? fun entry => values.any (startsWith · entry.warning)

theorem warn_ne_site : lit "warn" ≠ lit "site" := by
  decide

/-! ## One row -/

variable {reading : Reading} {row : Bytes × Bytes} {rows : List (Bytes × Bytes)}

/-- A row that does not warn leaves the message and the rule. -/
theorem read_row_other (h : row.1 ≠ lit "warn") :
    (readRow reading row).message = reading.message ∧
      (readRow reading row).rule = reading.rule := by
  unfold readRow
  rw [if_pos h]
  split <;> exact ⟨rfl, rfl⟩

/-- A row that warns adds to the message and may name an earlier rule. -/
theorem read_row_warn (h : row.1 = lit "warn") :
    readRow reading row =
      { reading with
        message := (if reading.message ≠ [] then reading.message ++ lit "; " else []) ++ row.2
        rule := earlier reading.rule (candidate row.2) } := by
  unfold readRow
  rw [if_neg (by rw [h]; exact warn_ne_site), if_neg (not_not.mpr h)]

theorem warn_values_warn (h : row.1 = lit "warn") :
    warnValues (row :: rows) = row.2 :: warnValues rows := by
  simp [warnValues, h]

theorem warn_values_other (h : row.1 ≠ lit "warn") :
    warnValues (row :: rows) = warnValues rows := by
  simp [warnValues, h]

/-! ## The message -/

/-- Once the message has begun, each warning is added behind a separator. -/
theorem message_of_begun (h : reading.message ≠ []) :
    (rows.foldl readRow reading).message =
      reading.message ++ (warnValues rows).flatMap (lit "; " ++ ·) := by
  induction rows generalizing reading with
  | nil => simp [warnValues]
  | cons row rows ih =>
      rw [List.foldl_cons]
      by_cases hwarn : row.1 = lit "warn"
      · have hrow : (readRow reading row).message = reading.message ++ lit "; " ++ row.2 := by
          rw [read_row_warn hwarn, if_pos h]
        rw [ih (by simp [hrow, h]), hrow, warn_values_warn hwarn, List.flatMap_cons]
        simp only [List.append_assoc]
      · have hrow := (@read_row_other reading row hwarn).1
        rw [ih (by rwa [hrow]), hrow, warn_values_other hwarn]

/-- Joining a nonempty list puts the separator before each later piece. -/
theorem intercalate_cons_eq (separator first : Bytes) (pieces : List Bytes) :
    separator.intercalate (first :: pieces) = first ++ pieces.flatMap (separator ++ ·) := by
  induction pieces generalizing first with
  | nil => simp
  | cons next pieces ih => simp [List.intercalate_cons_cons, ih]

/-- The message lists the warnings from the first that is not empty. -/
theorem message_eq (h : reading.message = []) :
    (rows.foldl readRow reading).message =
      (lit "; ").intercalate ((warnValues rows).dropWhile (· = [])) := by
  induction rows generalizing reading with
  | nil => simpa [warnValues] using h
  | cons row rows ih =>
      rw [List.foldl_cons]
      by_cases hwarn : row.1 = lit "warn"
      · have hrow : (readRow reading row).message = row.2 := by
          rw [read_row_warn hwarn, h]
          simp
        rw [warn_values_warn hwarn]
        by_cases hempty : row.2 = []
        · rw [ih (by rw [hrow, hempty]), List.dropWhile_cons_of_pos (by simpa using hempty)]
        · rw [message_of_begun (by rwa [hrow]), hrow,
            List.dropWhile_cons_of_neg (by simpa using hempty), intercalate_cons_eq]
      · rw [ih (by rwa [(read_row_other hwarn).1]), warn_values_other hwarn]

/-! ## The rule -/

/-- The earlier of two first matches is the first match of either. -/
theorem earlier_find_index {α : Type} (first second : α → Bool) (table : List α) :
    earlier (table.findIdx? first) (table.findIdx? second) =
      table.findIdx? fun entry => first entry || second entry := by
  induction table with
  | nil => rfl
  | cons entry table ih =>
      simp only [List.findIdx?_cons]
      cases hfirst : first entry with
      | true => cases hsecond : second entry <;> cases table.findIdx? second <;> simp [earlier]
      | false =>
          cases hsecond : second entry with
          | true => cases table.findIdx? first <;> simp [earlier]
          | false =>
              simp only [Bool.false_eq_true, if_false, Bool.or_false, ← ih]
              cases table.findIdx? first <;> cases table.findIdx? second <;> simp [earlier]
              split <;> rfl

/-- The rule of a reading that starts from the first match of `test`. -/
theorem rule_eq {test : VtableRule → Bool} (h : reading.rule = kVtableRules.findIdx? test) :
    (rows.foldl readRow reading).rule =
      kVtableRules.findIdx? fun entry =>
        test entry || (warnValues rows).any (startsWith · entry.warning) := by
  induction rows generalizing reading test with
  | nil => simpa [warnValues] using h
  | cons row rows ih =>
      rw [List.foldl_cons]
      by_cases hwarn : row.1 = lit "warn"
      · have hrow : (readRow reading row).rule =
            kVtableRules.findIdx? fun entry => test entry || startsWith row.2 entry.warning := by
          rw [read_row_warn hwarn, h, candidate, earlier_find_index]
        rw [ih hrow, warn_values_warn hwarn]
        simp only [List.any_cons, Bool.or_assoc]
      · rw [ih (by rw [(read_row_other hwarn).2, h]), warn_values_other hwarn]

/-- The entry a box is reported under. -/
theorem entry_eq :
    (rows.foldl readRow {}).rule.bind (kVtableRules[·]?) = entryOf (warnValues rows) := by
  have hnone : ({} : Reading).rule = kVtableRules.findIdx? fun _ => false := rfl
  rw [rule_eq hnone, entryOf, List.find?_eq_bind_findIdx?_getElem?]
  simp only [Bool.false_or]

/-! ## The location -/

/-- When all site rows show the same place, that place is the location. -/
theorem location_eq {location : Option SourceLocation}
    (hsame : ∀ row ∈ rows, row.1 = lit "site" → parseSite row.2 = location)
    (hshown : reading.location = location ∨ ∃ row ∈ rows, row.1 = lit "site") :
    (rows.foldl readRow reading).location = location := by
  induction rows generalizing reading with
  | nil => simpa using hshown
  | cons row rows ih =>
      rw [List.foldl_cons]
      refine ih (fun r hr => hsame r (List.mem_cons_of_mem row hr)) ?_
      by_cases hsite : row.1 = lit "site"
      · refine .inl ?_
        rw [readRow, if_pos hsite]
        exact hsame row (by simp) hsite
      · rcases hshown with hlocation | ⟨found, hfound, hlabel⟩
        · refine .inl ?_
          rw [readRow, if_neg hsite]
          split <;> exact hlocation
        · rcases List.mem_cons.mp hfound with rfl | hfound
          · exact absurd hlabel hsite
          · exact .inr ⟨found, hfound, hlabel⟩

/-! ## The finding -/

/-- The message of a box is empty while no warning has been read. -/
theorem message_eq_nil_iff :
    (rows.foldl readRow reading).message = [] ↔
      reading.message = [] ∧ ∀ value ∈ warnValues rows, value = [] := by
  by_cases h : reading.message = []
  · rw [message_eq h]
    cases hvalues : (warnValues rows).dropWhile (· = []) with
    | nil =>
        rw [List.dropWhile_eq_nil_iff] at hvalues
        simpa [h] using hvalues
    | cons value values =>
        have hvalue : value ≠ [] := by
          intro hempty
          have hhead := List.head?_dropWhile_not (· = ([] : Bytes)) (warnValues rows)
          rw [hvalues] at hhead
          simp [hempty] at hhead
        have hmem : value ∈ warnValues rows :=
          (List.dropWhile_sublist _).subset (hvalues ▸ List.mem_cons_self)
        have hnot : ¬ ∀ value ∈ warnValues rows, value = [] := fun hall => hvalue (hall value hmem)
        simp [intercalate_cons_eq, hvalue, hnot]
  · simp [message_of_begun h, h]

/-- The box has a warning that is not empty. -/
def warns (box : DiagnosticBox) : Bool :=
  (warnValues box.rows).any (· ≠ [])

/-- A box has a finding exactly when it has a warning that is not empty. -/
theorem to_finding_isSome_iff {box : DiagnosticBox} :
    box.toFinding.isSome = true ↔ box.warns = true := by
  have hmessage := @message_eq_nil_iff {} box.rows
  have hwarns : box.warns = true ↔ ¬ ∀ value ∈ warnValues box.rows, value = [] := by
    simp [warns]
  rw [hwarns]
  unfold toFinding
  by_cases hempty : (box.rows.foldl readRow {}).message = []
  · simpa [hempty] using (hmessage.mp hempty).2
  · simpa [hempty] using fun h => hempty (hmessage.mpr ⟨rfl, h⟩)

/-- The finding of a box with a warning that is not empty, but for the location. -/
theorem to_finding_eq (hwarning : ∃ value ∈ warnValues rows, value ≠ []) :
    toFinding { rows := rows } =
      some
        { rule := ((entryOf (warnValues rows)).getD otherWarning).rule
          cwe := ((entryOf (warnValues rows)).getD otherWarning).cwe
          severity := ((entryOf (warnValues rows)).getD otherWarning).severity
          message := (lit "; ").intercalate ((warnValues rows).dropWhile (· = []))
          location := (rows.foldl readRow {}).location } := by
  have hne : (rows.foldl readRow {}).message ≠ [] := by
    intro hempty
    obtain ⟨value, hvalue, hsome⟩ := hwarning
    exact hsome ((message_eq_nil_iff.mp hempty).2 value hvalue)
  unfold toFinding
  dsimp only
  rw [if_neg hne, message_eq rfl, entry_eq]

/-- The finding of a box with a warning that is not empty, read as a whole. -/
theorem to_finding_of_warning {location : Option SourceLocation}
    (hwarning : ∃ value ∈ warnValues rows, value ≠ [])
    (hsame : ∀ row ∈ rows, row.1 = lit "site" → parseSite row.2 = location)
    (hshown : location = none ∨ ∃ row ∈ rows, row.1 = lit "site") :
    toFinding { rows := rows } =
      some
        { rule := ((entryOf (warnValues rows)).getD otherWarning).rule
          cwe := ((entryOf (warnValues rows)).getD otherWarning).cwe
          severity := ((entryOf (warnValues rows)).getD otherWarning).severity
          message := (lit "; ").intercalate ((warnValues rows).dropWhile (· = []))
          location := location } := by
  have hlocation := @location_eq {} rows location hsame (hshown.imp_left Eq.symm)
  rw [to_finding_eq hwarning, hlocation]

/-- The finding has the rule, the CWE and the severity of the entry. -/
structure Names (entry : VtableRule) (finding : Finding) : Prop where
  rule : finding.rule = entry.rule
  cwe : finding.cwe = entry.cwe
  severity : finding.severity = entry.severity

/-- An entry of the table names the finding, or the one for boxes that match none. -/
theorem to_finding_entry {box : DiagnosticBox} {finding : Finding}
    (h : box.toFinding = some finding) :
    ∃ entry ∈ otherWarning :: kVtableRules, Names entry finding := by
  unfold toFinding at h
  dsimp only at h
  split at h
  · cases h
  · cases h
    refine ⟨_, ?_, rfl, rfl, rfl⟩
    cases hrule : (box.rows.foldl readRow {}).rule.bind (kVtableRules[·]?) with
    | none => simp
    | some entry =>
        obtain ⟨place, _, hplace⟩ := Option.bind_eq_some_iff.mp hrule
        exact List.mem_cons_of_mem _ (List.mem_of_getElem? hplace)

end DiagnosticBox

end RuntimeAnalyzer
