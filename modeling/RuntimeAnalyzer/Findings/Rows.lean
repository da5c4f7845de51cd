import RuntimeAnalyzer.Findings.BoxFinding
import RuntimeAnalyzer.Findings.LogWords

/-!
# The rows of a box as they are printed

A row is printed on a line with its label and the beginning of its value, and on lines without a
label for what the value is wrapped over. `fold_printed` says what the lines of a row add to a box,
whatever they hold: each part of the value without the spaces around it.
-/

namespace RuntimeAnalyzer

/-! ## Padding -/

namespace DiagnosticBox

theorem is_space_of_mem_padding {n : Nat} {byte : Byte} (h : byte ∈ padding n) :
    decide (byte = space) = true := by
  simpa using List.eq_of_mem_replicate h

/-- Trimming does not see the padding on the right. -/
theorem rdrop_padding (text : Bytes) (n : Nat) :
    (text ++ padding n).rdropWhile (· = space) = text.rdropWhile (· = space) := by
  rw [List.rdropWhile, List.reverse_append, List.dropWhile_append_of_pos fun byte hbyte =>
    is_space_of_mem_padding (List.mem_reverse.mp hbyte)]
  rfl

/-- Trimming does not see the padding of a text. -/
theorem trim_padding (text : Bytes) (left right : Nat) :
    trim (padding left ++ text ++ padding right) = trim text := by
  rw [trim, List.append_assoc, List.dropWhile_append_of_pos fun byte hbyte =>
    is_space_of_mem_padding hbyte, List.dropWhile_append]
  split
  · rename_i hblank
    rw [List.isEmpty_iff] at hblank
    rw [trim, hblank, List.dropWhile_eq_nil_iff.mpr fun byte hbyte => is_space_of_mem_padding hbyte]
  · rw [rdrop_padding, trim]

/-- Trimming makes no text longer. -/
theorem length_trim_le (text : Bytes) : (trim text).length ≤ text.length :=
  ((List.rdropWhile_prefix _ _).length_le).trans (List.dropWhile_suffix _).length_le

/-- Trimming leaves exactly the texts without spaces around them. -/
theorem trim_eq_self_iff {text : Bytes} :
    trim text = text ↔ text.head? ≠ some space ∧ text.getLast? ≠ some space := by
  constructor
  · intro h
    constructor
    · intro hhead
      obtain ⟨rest, rfl⟩ := List.head?_eq_some_iff.mp hhead
      have hpadded := trim_padding rest 1 0
      rw [show padding 1 ++ rest ++ padding 0 = space :: rest by simp [padding], h] at hpadded
      have hle := length_trim_le rest
      rw [← hpadded, List.length_cons] at hle
      omega
    · intro hlast
      obtain ⟨before, rfl⟩ := List.getLast?_eq_some_iff.mp hlast
      have hpadded := trim_padding before 0 1
      rw [show padding 0 ++ before ++ padding 1 = before ++ [space] from rfl, h] at hpadded
      have hle := length_trim_le before
      rw [← hpadded, List.length_append, List.length_singleton] at hle
      omega
  · intro h
    have hfirst : text.dropWhile (· = space) = text := by
      rw [List.dropWhile_eq_self_iff]
      intro hpos hspace
      exact h.1 (by rw [List.head?_eq_getElem?, List.getElem?_eq_getElem hpos]; simpa using hspace)
    rw [trim, hfirst, List.rdropWhile_eq_self_iff]
    intro hne hspace
    exact h.2 (by rw [List.getLast?_eq_some_getLast hne]; simpa using hspace)

end DiagnosticBox

/-! ## Bars -/

/-- The first byte of every stroke of a box. -/
abbrev stroke : Byte := 226

theorem stroke_not_mem_log_head (pid : Nat) (level : Level) :
    stroke ∉ unwords (logPrefix pid level) := by
  have hpid := Decimal.not_mem_render pid (show Decimal.isDigit stroke = false by decide)
  have hbars : stroke ∉ lit "|" := by decide
  have hct : stroke ∉ lit "==ct==" := by decide
  have htag : stroke ∉ level.tag := by cases level <;> decide
  have hspace : stroke ≠ space := by decide
  simp [unwords, logPrefix, List.intercalate_cons_cons, hpid, hbars, hct, htag, hspace]

/-! ## Rows -/

variable {pid : Nat} {level : Level}

/-- A line with bars gives what stands between them. -/
theorem add_row_between (box : DiagnosticBox) {before : Bytes} (text : Bytes)
    (h : stroke ∉ before) :
    box.addRow (before ++ (DiagnosticBox.kOpen ++ (text ++ DiagnosticBox.kClose))) =
      box.addText text := by
  have hopen : DiagnosticBox.kOpen = stroke :: [148, 130, space] := by decide
  -- The first bar is the opening one, since no stroke comes before it; the last is the closing one.
  have hfind : ListSearch.find DiagnosticBox.kOpen
      (before ++ (DiagnosticBox.kOpen ++ (text ++ DiagnosticBox.kClose))) = some before.length := by
    rw [hopen]
    exact ListSearch.find_append_of_not_mem _ _ h
  have hrfind : ListSearch.rfind DiagnosticBox.kClose
      (before ++ (DiagnosticBox.kOpen ++ (text ++ DiagnosticBox.kClose))) =
        some (before ++ (DiagnosticBox.kOpen ++ text)).length := by
    rw [← List.append_assoc DiagnosticBox.kOpen, ← List.append_assoc before]
    exact ListSearch.rfind_append_self (by decide)
  have hlength : (before ++ (DiagnosticBox.kOpen ++ text)).length =
      before.length + DiagnosticBox.kOpen.length + text.length := by
    rw [List.length_append, List.length_append, Nat.add_assoc]
  have hdrop : (before ++ (DiagnosticBox.kOpen ++ (text ++ DiagnosticBox.kClose))).drop
      (before.length + DiagnosticBox.kOpen.length) = text ++ DiagnosticBox.kClose := by
    rw [← List.append_assoc, ← List.length_append, List.drop_left]
  rw [DiagnosticBox.addRow, hfind, hrfind]
  dsimp only
  rw [if_neg (by omega), hdrop, hlength]
  congr 1
  exact List.take_left' (by omega)

/-- One line of a row: a part of its value, and the padding of both columns. -/
structure PrintedLine where
  chunk : Bytes
  labelPadding : Nat
  valuePadding : Nat

namespace PrintedLine

/-- What stands between the bars. The label is empty on a wrapped line. -/
def text (line : PrintedLine) (label : Bytes) : Bytes :=
  label ++ padding line.labelPadding ++ colon :: space :: line.chunk ++ padding line.valuePadding

def line (line : PrintedLine) (pid : Nat) (level : Level) (label : Bytes) : Bytes :=
  logLine pid level (lit "│ " ++ line.text label ++ lit " │")

end PrintedLine

/-- The text of a row's line adds its label and its part of the value. -/
theorem add_text_line (box : DiagnosticBox) (line : PrintedLine) {label : Bytes}
    (hcolon : colon ∉ label) :
    box.addText (line.text label) =
      if DiagnosticBox.trim label = [] ∧ box.rows ≠ [] then
        { rows := DiagnosticBox.appendToLast box.rows (DiagnosticBox.trim line.chunk) }
      else { rows := box.rows ++ [(DiagnosticBox.trim label, DiagnosticBox.trim line.chunk)] } := by
  have hcut : line.text label = (label ++ padding line.labelPadding) ++
      ([colon] ++ (space :: line.chunk ++ padding line.valuePadding)) := by
    simp [PrintedLine.text]
  -- The first colon ends the label, whatever the value holds.
  have hbefore : colon ∉ label ++ padding line.labelPadding := by
    have hpadding : colon ∉ padding line.labelPadding := fun h =>
      absurd (List.eq_of_mem_replicate h) (by decide)
    simp [hcolon, hpadding]
  have hfind : ListSearch.find [colon] (line.text label) =
      some (label ++ padding line.labelPadding).length := by
    rw [hcut]
    exact ListSearch.find_append_of_not_mem [] _ hbefore
  have hlabel : DiagnosticBox.trim ((line.text label).take
      (label ++ padding line.labelPadding).length) = DiagnosticBox.trim label := by
    rw [hcut, List.take_left]
    exact DiagnosticBox.trim_padding label 0 line.labelPadding
  have hvalue : DiagnosticBox.trim ((line.text label).drop
      ((label ++ padding line.labelPadding).length + 1)) = DiagnosticBox.trim line.chunk := by
    rw [hcut, ← List.drop_drop, List.drop_left]
    exact DiagnosticBox.trim_padding line.chunk 1 line.valuePadding
  rw [DiagnosticBox.addText, hfind]
  dsimp only
  rw [hlabel, hvalue]

/-- A line of a row adds its label and its part of the value. -/
theorem add_row_line (box : DiagnosticBox) (line : PrintedLine) {label : Bytes}
    (hcolon : colon ∉ label) :
    box.addRow (line.line pid level label) =
      if DiagnosticBox.trim label = [] ∧ box.rows ≠ [] then
        { rows := DiagnosticBox.appendToLast box.rows (DiagnosticBox.trim line.chunk) }
      else { rows := box.rows ++ [(DiagnosticBox.trim label, DiagnosticBox.trim line.chunk)] } := by
  have hcut : line.line pid level label =
      (unwords (logPrefix pid level) ++ [space]) ++ (DiagnosticBox.kOpen ++
        (line.text label ++ DiagnosticBox.kClose)) := by
    simp [PrintedLine.line, logLine, DiagnosticBox.kOpen, DiagnosticBox.kClose]
  have hbefore : stroke ∉ unwords (logPrefix pid level) ++ [space] := by
    simp only [List.mem_append, List.mem_singleton, not_or]
    exact ⟨stroke_not_mem_log_head pid level, by decide⟩
  rw [hcut, add_row_between box _ hbefore, add_text_line box line hcolon]

/-- The lines a value is wrapped over add to it. -/
theorem fold_wrapped (rows : List (Bytes × Bytes)) (label value : Bytes)
    (wrapped : List PrintedLine) :
    (wrapped.map (·.line pid level [])).foldl DiagnosticBox.addRow
        { rows := rows ++ [(label, value)] } =
      { rows := rows ++
          [(label, value ++ wrapped.flatMap fun line => DiagnosticBox.trim line.chunk)] } := by
  induction wrapped generalizing value with
  | nil => simp
  | cons line wrapped ih =>
      have hline := @add_row_line pid level { rows := rows ++ [(label, value)] } line [] (by simp)
      rw [if_pos ⟨rfl, by simp⟩] at hline
      rw [List.map_cons, List.foldl_cons, hline, DiagnosticBox.appendToLast, List.modifyLast_concat,
        ih, List.flatMap_cons, List.append_assoc]

/-- The lines of a row add the row, with each part of its value trimmed. -/
theorem fold_printed (box : DiagnosticBox) {label : Bytes} (hcolon : colon ∉ label)
    (hlabel : DiagnosticBox.trim label ≠ []) (first : PrintedLine) (wrapped : List PrintedLine) :
    (first.line pid level label :: wrapped.map (·.line pid level [])).foldl DiagnosticBox.addRow
        box =
      { rows := box.rows ++ [(DiagnosticBox.trim label,
          (first :: wrapped).flatMap fun line => DiagnosticBox.trim line.chunk)] } := by
  rw [List.foldl_cons, add_row_line box first hcolon, if_neg fun h => hlabel h.1, fold_wrapped,
    List.flatMap_cons]

end RuntimeAnalyzer
