import RuntimeAnalyzer.Findings.BoxFinding

/-!
# The most specific warning of a box

`kVtableRules` lists the warnings from the most specific one on, and a box is reported under the
earliest entry that one of its warnings starts with. `most_specific_warning_decides` says so of
every list of rows: the entry depends on the set of the warnings alone, and one more warning can
only make it an earlier one.
-/

namespace RuntimeAnalyzer

namespace DiagnosticBox

/-! ## Places in the table -/

/-- The entry at a place of the table; past its end, the one for boxes that match none. -/
def entryAt (place : Nat) : VtableRule :=
  (kVtableRules[place]?).getD otherWarning

/-- The place is that of the earliest entry that some of the values starts with, and the end of the
table when there is none. -/
structure EarliestPlace (values : List Bytes) (place : Nat) : Prop where
  le : place ≤ kVtableRules.length
  matched : ∀ entry, kVtableRules[place]? = some entry → ∃ value ∈ values, entry.warning <+: value
  least : ∀ earlier < place, ∀ entry, kVtableRules[earlier]? = some entry →
    ∀ value ∈ values, ¬ entry.warning <+: value

/-- Some of the values starts with the entry's warning. -/
def matchesEntry (values : List Bytes) (entry : VtableRule) : Bool :=
  values.any (startsWith · entry.warning)

theorem matches_entry_iff {values : List Bytes} {entry : VtableRule} :
    matchesEntry values entry = true ↔ ∃ value ∈ values, entry.warning <+: value := by
  simp [matchesEntry, startsWith_iff]

/-- The place of the first entry that matches. -/
def rank (values : List Bytes) : Nat :=
  kVtableRules.findIdx (matchesEntry values)

theorem rank_earliest (values : List Bytes) : EarliestPlace values (rank values) := by
  refine ⟨List.findIdx_le_length, fun entry hentry => ?_, fun earlier hlt entry hentry => ?_⟩
  · exact matches_entry_iff.mp (List.findIdx_of_getElem?_eq_some hentry)
  · have hnot := List.not_of_lt_findIdx hlt
    obtain ⟨_, hget⟩ := List.getElem?_eq_some_iff.mp hentry
    rw [hget, ← Bool.not_eq_true, matches_entry_iff] at hnot
    exact fun value hvalue hpre => hnot ⟨value, hvalue, hpre⟩

/-- The entry that the values name is the one at their place. -/
theorem entry_at_rank (values : List Bytes) :
    (entryOf values).getD otherWarning = entryAt (rank values) := by
  rw [entryOf, List.find?_eq_getElem?_findIdx]
  rfl

/-- More warnings have an earlier place. -/
theorem rank_le_of_subset {values more : List Bytes} (h : values ⊆ more) :
    rank more ≤ rank values := by
  refine List.findIdx_le_findIdx fun entry _ hmatch => ?_
  obtain ⟨value, hvalue, hpre⟩ := matches_entry_iff.mp hmatch
  exact matches_entry_iff.mpr ⟨value, h hvalue, hpre⟩

/-- The table has its errors first. -/
theorem severity_of_le {place earlier : Nat} (hplace : place ≤ kVtableRules.length)
    (hle : earlier ≤ place) (herror : (entryAt place).severity = .error) :
    (entryAt earlier).severity = .error := by
  have htable : ∀ later < kVtableRules.length + 1, ∀ first < later + 1,
      (entryAt later).severity = .error → (entryAt first).severity = .error := by decide
  exact htable place (by omega) earlier (by omega) herror

/-! ## The finding -/

/-- The rows hold a warning, and no empty one. -/
structure Warned (rows : List (Bytes × Bytes)) : Prop where
  warns : ∃ value, (lit "warn", value) ∈ rows
  no_empty : (lit "warn", []) ∉ rows

variable {rows : List (Bytes × Bytes)}

theorem mem_warn_values {value : Bytes} : value ∈ warnValues rows ↔ (lit "warn", value) ∈ rows := by
  simp [warnValues]

/-- The finding of rows with warnings: the entry at the place of the warnings names it, and its
message joins them. -/
theorem to_finding_of_warned (h : Warned rows) :
    ∃ finding, toFinding { rows := rows } = some finding ∧
      Names (entryAt (rank (warnValues rows))) finding ∧
      finding.message = (lit "; ").intercalate (warnValues rows) := by
  have hne : ∀ value ∈ warnValues rows, value ≠ [] := by
    rintro value hvalue rfl
    exact h.no_empty (mem_warn_values.mp hvalue)
  obtain ⟨value, hvalue⟩ := h.warns
  have hwarning : ∃ value ∈ warnValues rows, value ≠ [] :=
    ⟨value, mem_warn_values.mpr hvalue, hne value (mem_warn_values.mpr hvalue)⟩
  have hwhole : (warnValues rows).dropWhile (· = []) = warnValues rows :=
    List.dropWhile_eq_self_iff.mpr fun hpos => by
      simpa using hne _ (List.getElem_mem hpos)
  refine ⟨_, to_finding_eq hwarning, ?_, ?_⟩
  · rw [entry_at_rank]
    exact ⟨rfl, rfl, rfl⟩
  · rw [hwhole]

/-- Warnings of the same set have the same place. -/
theorem rank_congr {others : List (Bytes × Bytes)}
    (h : ∀ value, (lit "warn", value) ∈ others ↔ (lit "warn", value) ∈ rows) :
    rank (warnValues others) = rank (warnValues rows) := by
  refine le_antisymm (rank_le_of_subset fun value hvalue => ?_)
    (rank_le_of_subset fun value hvalue => ?_)
  · exact mem_warn_values.mpr ((h value).mpr (mem_warn_values.mp hvalue))
  · exact mem_warn_values.mpr ((h value).mp (mem_warn_values.mp hvalue))

/-- What the warnings of a box decide: the earliest entry that one of them starts with names its
finding, whatever the order, the repetitions and the other rows; one more warning never leads to a
later entry or from an error to a warning; the message joins the warnings in order. -/
structure DecidedBy (rows : List (Bytes × Bytes)) (finding : Finding) : Prop where
  found : toFinding { rows := rows } = some finding
  named : ∃ place, EarliestPlace (warnValues rows) place ∧ Names (entryAt place) finding
  message : finding.message = (lit "; ").intercalate (warnValues rows)
  same_set : ∀ others : List (Bytes × Bytes),
    (∀ value, (lit "warn", value) ∈ others ↔ (lit "warn", value) ∈ rows) →
    ∃ other, toFinding { rows := others } = some other ∧ other.rule = finding.rule ∧
      other.cwe = finding.cwe ∧ other.severity = finding.severity
  one_more : ∀ before after value, rows = before ++ after → value ≠ [] →
    ∃ further place earlier,
      toFinding { rows := before ++ (lit "warn", value) :: after } = some further ∧
      EarliestPlace (warnValues rows) place ∧
      EarliestPlace (warnValues (before ++ (lit "warn", value) :: after)) earlier ∧
      Names (entryAt earlier) further ∧ earlier ≤ place ∧
      (finding.severity = .error → further.severity = .error)

/-- The most specific warning of a box decides, in any order. -/
theorem most_specific_warning_decides (h : Warned rows) : ∃ finding, DecidedBy rows finding := by
  obtain ⟨finding, hfound, hnames, hmessage⟩ := to_finding_of_warned h
  refine ⟨finding, hfound, ⟨_, rank_earliest _, hnames⟩, hmessage, ?_, ?_⟩
  · intro others hset
    obtain ⟨value, hvalue⟩ := h.warns
    have hothers : Warned others := ⟨⟨value, (hset value).mpr hvalue⟩, mt (hset []).mp h.no_empty⟩
    obtain ⟨other, hother, hsame, _⟩ := to_finding_of_warned hothers
    rw [rank_congr hset] at hsame
    exact ⟨other, hother, hsame.rule.trans hnames.rule.symm, hsame.cwe.trans hnames.cwe.symm,
      hsame.severity.trans hnames.severity.symm⟩
  · rintro before after value rfl hne
    have hmore : Warned (before ++ (lit "warn", value) :: after) := by
      refine ⟨⟨value, by simp⟩, fun hempty => h.no_empty ?_⟩
      simpa [hne.symm] using hempty
    obtain ⟨further, hfurther, hentry, _⟩ := to_finding_of_warned hmore
    have hle : rank (warnValues (before ++ (lit "warn", value) :: after)) ≤
        rank (warnValues (before ++ after)) := by
      refine rank_le_of_subset fun old hold => ?_
      have hmem := mem_warn_values.mp hold
      simp only [List.mem_append] at hmem
      exact mem_warn_values.mpr (by simp only [List.mem_append, List.mem_cons]; tauto)
    refine ⟨further, _, _, hfurther, rank_earliest _, rank_earliest _, hentry, hle,
      fun herror => ?_⟩
    rw [hnames.severity] at herror
    rw [hentry.severity]
    exact severity_of_le (rank_earliest _).le hle herror

/-- Two warnings of which the second is the more specific one. -/
theorem most_specific_warning_decides_two :
    Warned [(lit "warn", lit "no vptr"), (lit "warn", lit "vptr on freed object")] ∧
      ∃ finding, DecidedBy [(lit "warn", lit "no vptr"), (lit "warn", lit "vptr on freed object")]
        finding := by
  have hwarned : Warned [(lit "warn", lit "no vptr"), (lit "warn", lit "vptr on freed object")] :=
    ⟨⟨lit "no vptr", by simp⟩, by decide⟩
  exact ⟨hwarned, most_specific_warning_decides hwarned⟩

end DiagnosticBox

end RuntimeAnalyzer
