import RuntimeAnalyzer.Findings.Rows

/-!
# Wrapped values

A value that is wider than its box is wrapped over several lines, which `AddRow` joins again. It
trims each part first, so `wrapped_row_rejoined_iff` holds of exactly the values that are not cut
next to a space.
-/

namespace RuntimeAnalyzer

/-! ## Values and their pieces -/

/-- The pieces of a value that is wrapped at a width: they make up the value, none is wider, and
all but the last are as wide. -/
structure HardWrap (width : Nat) (value : List Bytes) (pieces : List (List Bytes)) : Prop where
  joined : pieces.flatten = value
  full : ∀ piece ∈ pieces.dropLast, piece.length = width
  fits : ∀ piece ∈ pieces, piece.length ≤ width

/-- A row whose value is wrapped at a width, counted in characters. A character is one byte or
more, a space only as itself. -/
structure WrappedRow where
  label : Cell
  label_ne : label.bytes ≠ []
  no_colon : colon ∉ label.bytes
  value : List Bytes
  characters : ∀ character ∈ value, character ≠ [] ∧ (space ∈ character → character = [space])
  width : Nat
  width_pos : 1 ≤ width
  pieces : List (List Bytes)
  wraps : HardWrap width value pieces
  /-- The lines, each padded to the width of the box. -/
  first : PrintedLine
  wrapped : List PrintedLine
  printed : (first :: wrapped).map (·.chunk) = pieces.map List.flatten

namespace WrappedRow

variable (row : WrappedRow)

/-- The bytes of the value. -/
def text : Bytes :=
  row.value.flatten

def lines (pid : Nat) (level : Level) : List Bytes :=
  row.first.line pid level row.label.bytes :: row.wrapped.map (·.line pid level [])

/-- The lines of the row add its label and its value to a box, and whatever rows follow, the
finding is that of the box with the value unwrapped. -/
structure Rejoined (pid : Nat) (level : Level) (box : DiagnosticBox) : Prop where
  stored : (row.lines pid level).foldl DiagnosticBox.addRow box =
    { rows := box.rows ++ [(row.label.bytes, row.text)] }
  finding : ∀ others : List (Bytes × Bytes),
    DiagnosticBox.toFinding
        { rows := ((row.lines pid level).foldl DiagnosticBox.addRow box).rows ++ others } =
      DiagnosticBox.toFinding { rows := box.rows ++ (row.label.bytes, row.text) :: others }

/-- No piece begins or ends with a space. -/
def CutAwayFromSpaces : Prop :=
  ∀ piece ∈ row.pieces, piece.head? ≠ some [space] ∧ piece.getLast? ≠ some [space]

end WrappedRow

/-! ## Trimmed pieces -/

/-- Trimming every piece leaves the whole exactly when it leaves every piece. -/
theorem flat_map_trim_eq_iff (chunks : List Bytes) :
    chunks.flatMap DiagnosticBox.trim = chunks.flatten ↔
      ∀ chunk ∈ chunks, DiagnosticBox.trim chunk = chunk := by
  have hle : ∀ chunks : List Bytes,
      (chunks.flatMap DiagnosticBox.trim).length ≤ chunks.flatten.length := by
    intro chunks
    induction chunks with
    | nil => simp
    | cons chunk chunks ih =>
        have hchunk := DiagnosticBox.length_trim_le chunk
        simp only [List.flatMap_cons, List.flatten_cons, List.length_append]
        omega
  induction chunks with
  | nil => simp
  | cons chunk chunks ih =>
      rw [List.flatMap_cons, List.flatten_cons, List.forall_mem_cons]
      constructor
      · intro h
        -- No piece gets longer, so each keeps its length.
        have hchunk := DiagnosticBox.length_trim_le chunk
        have hrest := hle chunks
        have hlength := congrArg List.length h
        simp only [List.length_append] at hlength
        obtain ⟨hsame, hothers⟩ := List.append_inj h (by omega)
        exact ⟨hsame, ih.mp hothers⟩
      · intro h
        rw [h.1, ih.mpr h.2]

variable {piece : List Bytes}
  (hcharacters : ∀ character ∈ piece, character ≠ [] ∧ (space ∈ character → character = [space]))

include hcharacters

/-- A piece begins with the space byte exactly when its first character is the space. -/
theorem head_flatten_eq_space_iff :
    piece.flatten.head? = some space ↔ piece.head? = some [space] := by
  cases piece with
  | nil => simp
  | cons character rest =>
      obtain ⟨hne, hspace⟩ := hcharacters character (by simp)
      rw [List.flatten_cons, List.head?_append_of_ne_nil _ hne, List.head?_cons,
        Option.some.injEq]
      constructor
      · intro hhead
        exact hspace (List.mem_of_mem_head? hhead)
      · intro heq
        rw [heq]
        rfl

/-- A piece ends with the space byte exactly when its last character is the space. -/
theorem last_flatten_eq_space_iff :
    piece.flatten.getLast? = some space ↔ piece.getLast? = some [space] := by
  rcases List.eq_nil_or_concat' piece with rfl | ⟨rest, character, rfl⟩
  · simp
  · obtain ⟨hne, hspace⟩ := hcharacters character (by simp)
    rw [List.flatten_append, List.flatten_singleton, List.getLast?_append_of_ne_nil _ hne,
      List.getLast?_concat, Option.some.injEq]
    constructor
    · intro hlast
      exact hspace (List.mem_of_getLast? hlast)
    · intro heq
      rw [heq]
      rfl

/-- Trimming leaves exactly the pieces without a space around them. -/
theorem trim_piece_iff :
    DiagnosticBox.trim piece.flatten = piece.flatten ↔
      piece.head? ≠ some [space] ∧ piece.getLast? ≠ some [space] := by
  rw [DiagnosticBox.trim_eq_self_iff, ne_eq, ne_eq, head_flatten_eq_space_iff hcharacters,
    last_flatten_eq_space_iff hcharacters]

omit hcharacters

/-! ## The row -/

/-- The lines of a row add its label and its trimmed pieces. -/
theorem fold_wrapped_row (row : WrappedRow) (pid : Nat) (level : Level) (box : DiagnosticBox) :
    (row.lines pid level).foldl DiagnosticBox.addRow box =
      { rows := box.rows ++ [(row.label.bytes,
          (row.pieces.map List.flatten).flatMap DiagnosticBox.trim)] } := by
  have hlabel : DiagnosticBox.trim row.label.bytes = row.label.bytes :=
    DiagnosticBox.trim_eq_self_iff.mpr ⟨row.label.head_ne, row.label.last_ne⟩
  rw [WrappedRow.lines, fold_printed box row.no_colon (by rw [hlabel]; exact row.label_ne), hlabel,
    ← row.printed, List.flatMap_map]

/-- A wrapped value is rejoined exactly when it was not cut next to a space. -/
theorem wrapped_row_rejoined_iff (row : WrappedRow) (pid : Nat) (level : Level)
    (box : DiagnosticBox) : row.Rejoined pid level box ↔ row.CutAwayFromSpaces := by
  have htext : row.text = (row.pieces.map List.flatten).flatten := by
    rw [WrappedRow.text, ← row.wraps.joined, List.flatten_flatten]
  have hstored : (row.lines pid level).foldl DiagnosticBox.addRow box =
      { rows := box.rows ++ [(row.label.bytes, row.text)] } ↔ row.CutAwayFromSpaces := by
    rw [fold_wrapped_row, htext]
    simp only [DiagnosticBox.mk.injEq, List.append_cancel_left_eq, List.cons.injEq, Prod.mk.injEq,
      true_and, and_true]
    rw [flat_map_trim_eq_iff, List.forall_mem_map]
    refine forall_congr' fun piece => forall_congr' fun hpiece => trim_piece_iff ?_
    intro character hcharacter
    refine row.characters character ?_
    rw [← row.wraps.joined]
    exact List.mem_flatten.mpr ⟨piece, hpiece, hcharacter⟩
  rw [← hstored]
  refine ⟨fun h => h.stored, fun h => ⟨h, fun others => ?_⟩⟩
  rw [h, List.append_assoc, List.singleton_append]

/-- A warning cut behind its first word, at a width of three. -/
def wrappedWarning : WrappedRow where
  label := ⟨lit "warn", by decide, by decide, by decide, by decide⟩
  label_ne := by decide
  no_colon := by decide
  value := (lit "no vptr").map ([·])
  characters := by decide
  width := 3
  width_pos := by decide
  pieces := [(lit "no ").map ([·]), (lit "vpt").map ([·]), (lit "r").map ([·])]
  wraps := ⟨by decide, by decide, by decide⟩
  first := ⟨lit "no ", 1, 0⟩
  wrapped := [⟨lit "vpt", 5, 0⟩, ⟨lit "r", 5, 2⟩]
  printed := by decide

/-- The space is lost, and with it the error: the warning is no longer recognized. -/
theorem wrapped_warning_is_downgraded :
    ¬ wrappedWarning.Rejoined 1 .warn {} ∧
      (((wrappedWarning.lines 1 .warn).foldl DiagnosticBox.addRow {}).toFinding.map
        fun finding => (finding.message, finding.severity)) = some (lit "novptr", .warning) ∧
      ((DiagnosticBox.toFinding { rows := [(lit "warn", wrappedWarning.text)] }).map
        fun finding => (finding.message, finding.severity)) = some (lit "no vptr", .error) := by
  refine ⟨fun h => ?_, by decide, by decide⟩
  have hstored := h.stored
  revert hstored
  decide

end RuntimeAnalyzer
