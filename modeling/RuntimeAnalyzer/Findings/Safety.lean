import RuntimeAnalyzer.Findings.Checked
import RuntimeAnalyzer.Findings.Cut
import RuntimeAnalyzer.Findings.Reports

/-!
# The parser inside its bounds

`Checked.parseFindings` fails on no output and reads what `parseFindings` reads
(`parse_findings_safe`). The guards of each helper keep its positions inside the text, one lemma a
helper, and the last finding is that of the bounds report whose lines are being read
(`ContinuesReport`).
-/

namespace RuntimeAnalyzer

open Access

/-! ## The helpers never fail -/

/-- Where a search from a position ends. -/
theorem find_from_bounds {line key : Bytes} {start pos : Nat}
    (h : findFrom line key start = some pos) :
    start ≤ pos ∧ pos + key.length ≤ line.length := by
  unfold findFrom at h
  split at h
  · obtain ⟨gap, hfind, rfl⟩ := Option.map_eq_some_iff.mp h
    have hlength := ListSearch.find_add_length_le hfind
    rw [List.length_drop] at hlength
    omega
  · cases h

theorem checked_starts_field {line : Bytes} {pos : Nat} (h : pos ≤ line.length) :
    Checked.startsField line pos = some (decide (pos = 0 ∨ (line)[pos - 1]? = some space)) := by
  unfold Checked.startsField
  by_cases hzero : pos = 0
  · simp [hzero]
  · have hlt : pos - 1 < line.length := by omega
    rw [if_neg hzero, difference_of_le (by omega)]
    simp [index, List.getElem?_eq_getElem hlt, hzero]

theorem checked_assigns (line : Bytes) (valueStart : Nat) :
    Checked.assigns line valueStart = some (decide ((line)[valueStart]? = some equals)) := by
  unfold Checked.assigns
  split
  · rename_i hlt
    simp [index, List.getElem?_eq_getElem hlt]
  · rename_i hge
    simp [List.getElem?_eq_none (Nat.le_of_not_lt hge)]

theorem checked_field_value {line : Bytes} {valueStart : Nat} (h : valueStart < line.length) :
    Checked.fieldValue line valueStart =
      some ((line.drop (valueStart + 1)).takeWhile (· ≠ space)) := by
  rw [Checked.fieldValue, substr_of_le h, ← ListSearch.take_find_singleton]
  exact substrUpTo_zero _ _

theorem checked_field_loop {line key : Bytes} {turns start : Nat}
    (hturns : line.length < start + turns) (hstart : start ≤ line.length + 1) :
    Checked.fieldLoop line key (turns + 1) start = some (fieldLoop line key turns start) := by
  induction turns generalizing start with
  | zero =>
      have hnone : findFrom line key start = none := if_neg (by omega)
      simp only [Checked.fieldLoop, hnone, fieldLoop]
  | succ turns ih =>
      rw [Checked.fieldLoop, fieldLoop]
      cases hfind : findFrom line key start with
      | none => rfl
      | some pos =>
          obtain ⟨hle, hbound⟩ := find_from_bounds hfind
          have hnext := @ih (pos + 1) (by omega) (by omega)
          have hfollows := @checked_starts_field line pos (by omega)
          dsimp only
          rw [hfollows, Option.bind_eq_bind, Option.bind_some]
          by_cases hbefore : pos = 0 ∨ (line)[pos - 1]? = some space
          · rw [decide_eq_true hbefore, if_pos rfl, checked_assigns, Option.bind_some]
            by_cases hequals : (line)[pos + key.length]? = some equals
            · obtain ⟨hlt, -⟩ := List.getElem?_eq_some_iff.mp hequals
              rw [decide_eq_true hequals, if_pos rfl, if_pos ⟨hbefore, hequals⟩,
                checked_field_value hlt]
              rfl
            · rw [decide_eq_false hequals, if_neg (by simp), if_neg fun h => hequals h.2]
              exact hnext
          · rw [decide_eq_false hbefore, if_neg (by simp), Option.bind_some, if_neg (by simp),
              if_neg fun h => hbefore h.1]
            exact hnext

theorem checked_field (line key : Bytes) : Checked.field line key = some (field line key) :=
  checked_field_loop (by omega) (by omega)

theorem checked_take_number (site : Bytes) :
    Checked.takeNumber site = some (takeNumber site) := by
  unfold Checked.takeNumber takeNumber
  cases hcolon : ListSearch.rfind [colon] site with
  | none => rfl
  | some pos =>
      have hle : pos + 1 ≤ site.length := ListSearch.rfind_add_length_le hcolon
      dsimp only
      rw [substr_of_le hle, Option.bind_eq_bind, Option.bind_some]
      cases fromChars (site.drop (pos + 1)) with
      | none => rfl
      | some read =>
          dsimp only
          split
          · rfl
          · rw [substrUpTo_zero]
            rfl

theorem checked_parse_site (site : Bytes) : Checked.parseSite site = some (parseSite site) := by
  unfold Checked.parseSite parseSite
  rw [checked_take_number, Option.bind_eq_bind, Option.bind_some]
  cases takeNumber site with
  | none => rfl
  | some taken =>
      dsimp only
      rw [checked_take_number, Option.bind_some]
      cases takeNumber taken.1 with
      | none =>
          dsimp only
          split <;> rfl
      | some second =>
          dsimp only
          split <;> rfl

theorem checked_site_field (line key : Bytes) :
    Checked.siteField line key = some ((field line key).bind parseSite) := by
  rw [Checked.siteField, checked_field, Option.bind_eq_bind, Option.bind_some]
  cases field line key with
  | none => rfl
  | some site => exact checked_parse_site site

/-- A text of spaces only has no first byte to keep, and every other text has a last one. -/
theorem checked_trim (text : Bytes) : Checked.trim text = some (DiagnosticBox.trim text) := by
  have hdrop : (fun byte : Byte => !decide (byte ≠ space)) = fun byte => decide (byte = space) := by
    funext byte
    simp
  unfold Checked.trim DiagnosticBox.trim
  cases hfirst : text.findIdx? (· ≠ space) with
  | none =>
      have hspaces : text.dropWhile (· = space) = [] := by
        rw [List.dropWhile_eq_nil_iff]
        intro byte hbyte
        simpa using List.findIdx?_eq_none_iff.mp hfirst byte hbyte
      rw [hspaces]
      rfl
  | some first =>
      obtain ⟨last, hlast, hle, hlt, htext⟩ := substr_trimmed hfirst
      rw [hdrop] at htext
      simp only [hlast, Option.bind_eq_bind, Option.bind_some, difference_of_le hle]
      rw [substrUpTo_of_le (by omega), htext]

theorem checked_add_text (box : DiagnosticBox) (text : Bytes) :
    Checked.addText box text = some (box.addText text) := by
  unfold Checked.addText DiagnosticBox.addText
  cases hcolon : ListSearch.find [colon] text with
  | none => rfl
  | some pos =>
      have hle : pos + 1 ≤ text.length := ListSearch.find_add_length_le hcolon
      simp only [substrUpTo_zero, substr_of_le hle, checked_trim, Option.bind_eq_bind,
        Option.bind_some]
      split
      · rename_i hrow
        rw [modifyBack_of_ne hrow.2]
        rfl
      · rfl

/-- Between the bars there is a text, which may be empty. -/
theorem checked_add_row (box : DiagnosticBox) (line : Bytes) :
    Checked.addRow box line = some (box.addRow line) := by
  unfold Checked.addRow DiagnosticBox.addRow
  cases hopen : ListSearch.find DiagnosticBox.kOpen line with
  | none => rfl
  | some opened =>
      cases ListSearch.rfind DiagnosticBox.kClose line with
      | none => rfl
      | some closed =>
          have hle := ListSearch.find_add_length_le hopen
          dsimp only
          split
          · rfl
          · rename_i hbetween
            simp only [difference_of_le (show opened ≤ closed by omega),
              difference_of_le (show DiagnosticBox.kOpen.length ≤ closed - opened by omega),
              substrUpTo_of_le hle, Option.bind_eq_bind, Option.bind_some]
            exact checked_add_text _ _

theorem checked_read_row (reading : DiagnosticBox.Reading) (row : Bytes × Bytes) :
    Checked.readRow reading row = some (DiagnosticBox.readRow reading row) := by
  unfold Checked.readRow
  split
  · rename_i hsite
    rw [checked_parse_site, DiagnosticBox.readRow, if_pos hsite]
    rfl
  · rfl

theorem checked_read_rows (reading : DiagnosticBox.Reading) (rows : List (Bytes × Bytes)) :
    rows.foldlM Checked.readRow reading = some (rows.foldl DiagnosticBox.readRow reading) := by
  induction rows generalizing reading with
  | nil => rfl
  | cons row rows ih =>
      rw [List.foldlM_cons, checked_read_row, Option.bind_eq_bind, Option.bind_some, ih,
        List.foldl_cons]

theorem checked_to_finding (box : DiagnosticBox) :
    Checked.toFinding box = some box.toFinding := by
  rw [Checked.toFinding, checked_read_rows, Option.bind_eq_bind, Option.bind_some,
    DiagnosticBox.toFinding]
  dsimp only
  split <;> rfl

theorem checked_bounds_finding_of (line : Bytes) (bounds : BoundsRule) :
    Checked.boundsFindingOf line bounds = some (boundsFindingOf line bounds) := by
  unfold Checked.boundsFindingOf boundsFindingOf
  cases hheading : ListSearch.find (lit "ct: " ++ bounds.rule ++ lit " ") line with
  | none => rfl
  | some pos =>
      have hct : (lit "ct: ").length = 4 := by decide
      have hle : pos + 4 ≤ line.length := by
        have hlength := ListSearch.find_add_length_le hheading
        simp only [List.length_append] at hlength
        omega
      dsimp only
      rw [substr_of_le hle]
      rfl

theorem checked_bounds_finding (line : Bytes) :
    Checked.boundsFinding line = some (boundsFinding line) := by
  have hamong : ∀ table, Checked.boundsFindingAmong line table =
      some (table.findSome? (boundsFindingOf line)) := by
    intro table
    induction table with
    | nil => rfl
    | cons bounds rest ih =>
        rw [Checked.boundsFindingAmong, checked_bounds_finding_of, Option.bind_eq_bind,
          Option.bind_some, List.findSome?_cons]
        cases boundsFindingOf line bounds with
        | none => exact ih
        | some finding => rfl
  exact hamong kBoundsRules

theorem checked_one_line_finding (line rule cwe : Bytes) (severity : Severity) (message : Bytes) :
    Checked.oneLineFinding line rule cwe severity message =
      some (oneLineFinding line rule cwe severity message) := by
  simp only [Checked.oneLineFinding, checked_site_field, Option.bind_eq_bind, Option.bind_some]
  rfl

theorem checked_one_line_report (line : Bytes) :
    Checked.oneLineReport line = some (oneLineReport line) := by
  have hmessage : Checked.leakMessage line = some (leakMessage line) := by
    rw [Checked.leakMessage, checked_field, Option.bind_eq_bind, Option.bind_some, leakMessage]
    cases field line (lit "size") <;> rfl
  simp only [Checked.oneLineReport, oneLineReport, hmessage, checked_one_line_finding,
    Option.bind_eq_bind, Option.bind_some, Option.map_some]
  split
  · rfl
  · split <;> rfl

/-- The sites go to the last finding, where there is one. -/
theorem checked_continue_report (line : Bytes) {findings : List Finding} (h : findings ≠ []) :
    Checked.continueReport line findings =
      some (findings.modifyLast (continueReport line)) := by
  obtain ⟨init, last, rfl⟩ := List.eq_nil_or_concat findings |>.resolve_left h
  unfold Checked.continueReport continueReport
  simp only [checked_field, checked_parse_site, Option.bind_eq_bind, Option.bind_some]
  cases field line (lit "access") <;> cases field line (lit "alloc_site") <;>
    simp [modifyBack, List.modifyLast_concat]

/-! ## The loop -/

/-- In a bounds report there is a finding to continue, so no turn of the loop fails. -/
theorem checked_parse_line {state : ParserState} (h : state.Anchored) (line : Bytes) :
    Checked.parseLine state line = some (parseLine state line) := by
  unfold Checked.parseLine parseLine
  cases state.box with
  | some box =>
      dsimp only
      split
      · rw [checked_to_finding]
        rfl
      · rw [checked_add_row]
        rfl
  | none =>
      dsimp only
      split
      · rfl
      · split
        · rename_i hcontinues
          have hbounds : state.inBoundsReport = true := (Bool.and_eq_true_iff.mp hcontinues).1
          rw [checked_continue_report line (h hbounds)]
          rfl
        · rw [checked_bounds_finding, Option.bind_eq_bind, Option.bind_some]
          cases boundsFinding line with
          | some finding => rfl
          | none =>
              dsimp only
              rw [checked_one_line_report]
              rfl

/-- What the loop cuts off from a position on: the first line of the rest, and where the next one
starts. -/
theorem lines_of_drop {output : Bytes} {start : Nat} (h : start < output.length) :
    let ended := (findFrom output [newline] start).getD output.length
    start ≤ ended ∧ ended ≤ output.length ∧
      linesOf (output.drop start) =
        (output.drop start).take (ended - start) :: linesOf (output.drop (ended + 1)) := by
  have hle : start ≤ output.length := Nat.le_of_lt h
  have hne : output.drop start ≠ [] := by
    rw [ne_eq, List.drop_eq_nil_iff]
    omega
  cases hfind : ListSearch.find [newline] (output.drop start) with
  | none =>
      have hplain : newline ∉ output.drop start := by
        rw [← List.singleton_infix_iff]
        exact ListSearch.find_eq_none_iff.mp hfind
      have hrest : output.drop (output.length + 1) = [] := List.drop_eq_nil_of_le (by omega)
      have hall : (output.drop start).take (output.length - start) = output.drop start :=
        List.take_of_length_le (by rw [List.length_drop])
      rw [findFrom, if_pos hle, hfind]
      refine ⟨hle, Nat.le_refl _, ?_⟩
      rw [Option.map_none, Option.getD_none, hrest, hall]
      exact ListSplit.lines_of_not_mem hne hplain
  | some gap =>
      obtain ⟨htext, hline⟩ := ListSearch.find_singleton_eq_some hfind
      obtain ⟨hgap, -, -⟩ := ListSearch.find_eq_some_iff.mp hfind
      rw [List.length_drop] at hgap
      rw [findFrom, if_pos hle, hfind]
      refine ⟨Nat.le_add_right _ _, (show start + gap ≤ output.length by omega), ?_⟩
      rw [Option.map_some, Option.getD_some, Nat.add_sub_cancel_left, Nat.add_assoc,
        ← List.drop_drop]
      conv_lhs => rw [htext]
      exact ListSplit.lines_append_sep _ hline

theorem checked_parse_loop {output : Bytes} {turns start : Nat} {state : ParserState}
    (h : state.Anchored) (hturns : output.length + 1 < start + turns)
    (hstart : start ≤ output.length + 1) :
    Checked.parseLoop output turns start state =
      some (parseLines state (linesOf (output.drop start))) := by
  induction turns generalizing start state with
  | zero => omega
  | succ turns ih =>
      rw [Checked.parseLoop]
      split
      · rename_i hlt
        obtain ⟨hle, hbound, hlines⟩ := lines_of_drop hlt
        dsimp only at hle hbound hlines ⊢
        simp only [difference_of_le hle, substrUpTo_of_le (Nat.le_of_lt hlt),
          checked_parse_line h, Option.bind_eq_bind, Option.bind_some, hlines, parse_lines_cons]
        exact ih (parse_line_anchored h _) (by omega) (Nat.succ_le_succ hbound)
      · rw [List.drop_eq_nil_of_le (by omega)]
        rfl

theorem checked_parse_findings (output : Bytes) :
    Checked.parseFindings output = some (parseFindings output) := by
  have hstart : ({} : ParserState).Anchored := by simp [ParserState.Anchored]
  rw [Checked.parseFindings, checked_parse_loop hstart (by omega) (by omega), List.drop_zero]
  rfl

/-! ## The report that is continued -/

/-- In a bounds report, the last finding is that of its heading, with the sites of the indented
lines since. -/
def ContinuesReport (before : List Bytes) : Prop :=
  (parseLines {} before).inBoundsReport = true →
    ∃ earlier heading continued finding,
      before = earlier ++ heading :: continued ∧
      Examined (modeAfter earlier) heading ∧ boundsFinding heading = some finding ∧
      (∀ line ∈ continued, startsWith line (lit "  ") = true) ∧
      (parseLines {} before).findings =
        (parseLines {} earlier).findings ++
          [continued.foldl (fun finding line => continueReport line finding) finding]

theorem continues_report (before : List Bytes) : ContinuesReport before := by
  induction before using List.reverseRecOn with
  | nil => exact fun hbounds => by cases hbounds
  | append_singleton before line ih =>
      have hexclusive : (parseLines {} before).Exclusive :=
        parse_lines_exclusive (by simp [ParserState.Exclusive]) before
      intro hbounds
      rw [parse_lines_append, parse_lines_cons, parse_lines_nil] at hbounds ⊢
      cases line_step (parseLines {} before) line with
      | closes hbox _ hnext =>
          rw [hnext, hexclusive (by simp [hbox])] at hbounds
          cases hbounds
      | row hbox _ hnext =>
          rw [hnext, hexclusive (by simp [hbox])] at hbounds
          cases hbounds
      | opens _ _ hnext =>
          rw [hnext] at hbounds
          cases hbounds
      | continues _ _ hstate hindent hnext =>
          obtain ⟨earlier, heading, continued, finding, rfl, hexamined, hheading, hlines,
            hfindings⟩ := ih hstate
          refine ⟨earlier, heading, continued ++ [line], finding, by simp, hexamined, hheading,
            ?_, ?_⟩
          · intro other hother
            rcases List.mem_append.mp hother with hother | hother
            · exact hlines other hother
            · rw [List.mem_singleton.mp hother]
              exact hindent
          · rw [hnext, hfindings, List.modifyLast_concat, List.foldl_concat]
      | examines hbox hopen hindent hnext =>
          rw [hnext] at hbounds ⊢
          obtain ⟨finding, hfinding⟩ := Option.isSome_iff_exists.mp hbounds
          refine ⟨before, line, [], finding, rfl, ?_, hfinding, by simp, ?_⟩
          · rw [← mode_parse_lines, examined_mode_iff]
            exact ⟨hbox, hopen, hindent⟩
          · simp [reportFinding, hfinding]

/-- What keeps the parser inside its bounds on an output. -/
structure ParsesSafely (output : Bytes) : Prop where
  /-- Every access of the parser is in bounds, and it ends. -/
  returns : Checked.parseFindings output = some (parseFindings output)
  /-- So is every line, from the state that the lines before it lead to. -/
  turn : ∀ before line after, linesOf output = before ++ line :: after →
    Checked.parseLine (parseLines {} before) line = some (parseLines {} (before ++ [line]))
  /-- A bounds report that is being read has its finding at the end. -/
  continued : ∀ before after, linesOf output = before ++ after → ContinuesReport before

/-- No output makes the parser leave its bounds. -/
theorem parse_findings_safe (output : Bytes) : ParsesSafely output := by
  have hstart : ({} : ParserState).Anchored := by simp [ParserState.Anchored]
  refine ⟨checked_parse_findings output, fun before line after _ => ?_,
    fun before _ _ => continues_report before⟩
  rw [checked_parse_line (parse_lines_anchored hstart before), parse_lines_append]
  rfl

end RuntimeAnalyzer
