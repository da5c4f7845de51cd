import RuntimeAnalyzer.Findings.Box

/-!
# The problems the runtime reports

What a report is about, apart from how it is read: the rule, the CWE and the level that the README
lists for a problem, and the words by which the runtime reports it. The parser looks for them in
tables of its own, and `bounds_rules_eq` and `vtable_rules_eq` say that these hold the same.
-/

namespace RuntimeAnalyzer

/-! ## Accesses to memory -/

inductive AccessKind
  | write
  | read
  deriving DecidableEq, Repr

/-- The word for an access in a heading. -/
def AccessKind.word : AccessKind → Bytes
  | write => lit "WRITE"
  | read => lit "READ"

/-- What is wrong with an access. -/
inductive BoundsError
  | heapBufferOverflow
  | stackBufferOverflow
  | heapUseAfterFree
  deriving DecidableEq, Repr

namespace BoundsError

def rule : BoundsError → Bytes
  | heapBufferOverflow => lit "heap-buffer-overflow"
  | stackBufferOverflow => lit "stack-buffer-overflow"
  | heapUseAfterFree => lit "heap-use-after-free"

/-- The CWE of an overflow depends on the access. -/
def cwe : BoundsError → AccessKind → Bytes
  | heapBufferOverflow, .write => lit "CWE-122"
  | stackBufferOverflow, .write => lit "CWE-121"
  | heapBufferOverflow, .read | stackBufferOverflow, .read => lit "CWE-125"
  | heapUseAfterFree, _ => lit "CWE-416"

end BoundsError

/-! ## Virtual calls -/

/-- What is wrong with a virtual call. -/
inductive VtableIssue
  | nullThis
  | useAfterFree
  | corrupted
  | invalidTarget
  | typeMismatch
  /-- An issue without a more specific rule. -/
  | diagnostic
  deriving DecidableEq, Repr

namespace VtableIssue

def rule : VtableIssue → Bytes
  | nullThis => lit "vtable-null-this"
  | useAfterFree => lit "vtable-use-after-free"
  | corrupted => lit "vtable-corrupted"
  | invalidTarget => lit "vcall-invalid-target"
  | typeMismatch => lit "vtable-type-mismatch"
  | diagnostic => lit "vtable-diagnostic"

def cwe : VtableIssue → Bytes
  | nullThis => lit "CWE-476"
  | useAfterFree => lit "CWE-416"
  | corrupted | invalidTarget | typeMismatch | diagnostic => lit "CWE-843"

def severity : VtableIssue → Severity
  | nullThis | useAfterFree | corrupted | invalidTarget => .error
  | typeMismatch | diagnostic => .warning

end VtableIssue

/-- How the warnings of a box start and the issue that each shows, the most specific first. -/
def vtableWarnings : List (Bytes × VtableIssue) :=
  [(lit "null this pointer", .nullThis),
    (lit "vptr on freed object", .useAfterFree),
    (lit "vtable resolve failed", .corrupted),
    (lit "no vptr", .corrupted),
    (lit "target in non-exec memory", .invalidTarget),
    (lit "static!=dynamic type", .typeMismatch),
    (lit "module mismatch: ", .typeMismatch),
    (lit "missing typeinfo", .diagnostic)]

/-! ## Lines that start a report -/

/-- The line holds a heading by which the runtime starts a report on one line. -/
def ReportHeading (line : Bytes) : Prop :=
  (∃ error : BoundsError, lit "ct: " ++ error.rule ++ lit " " <:+: line) ∨
    lit "(double free)" <:+: line ∨ lit "ct: leak ptr=" <:+: line

inductive BoxTag
  | vtable
  | vcall
  deriving DecidableEq, Repr

/-- The word that ends the line before a box. -/
def BoxTag.word : BoxTag → Bytes
  | vtable => lit "[VTABLE]"
  | vcall => lit "[VCALL]"

/-- The line stands before a box that warns. -/
def WarnOpener (line : Bytes) : Prop :=
  lit "[WARN]" <:+: line ∧ ∃ tag : BoxTag, tag.word <:+ line

/-! ## The tables of the parser -/

/-- The entry for an error in the parser's table. -/
def BoundsError.entry (error : BoundsError) : BoundsRule :=
  ⟨error.rule, error.cwe .write, error.cwe .read⟩

/-- The entry for a warning. -/
def VtableIssue.entry (issue : VtableIssue) (warning : Bytes) : VtableRule :=
  ⟨warning, issue.rule, issue.cwe, issue.severity⟩

theorem bounds_rules_eq :
    kBoundsRules =
      [BoundsError.heapBufferOverflow, .stackBufferOverflow, .heapUseAfterFree].map
        BoundsError.entry :=
  rfl

theorem vtable_rules_eq :
    kVtableRules = vtableWarnings.map fun warning => warning.2.entry warning.1 :=
  rfl

theorem mem_bounds_rules_iff {bounds : BoundsRule} :
    bounds ∈ kBoundsRules ↔ ∃ error : BoundsError, error.entry = bounds := by
  rw [bounds_rules_eq, List.mem_map]
  refine exists_congr fun error => and_iff_right ?_
  cases error <;> decide

/-- The parser opens a box at the lines that stand before one that warns. -/
theorem opens_iff {line : Bytes} : DiagnosticBox.opens line = true ↔ WarnOpener line := by
  rw [DiagnosticBox.opens, Bool.and_eq_true, Bool.or_eq_true, contains_iff, endsWith_iff,
    endsWith_iff, WarnOpener]
  refine and_congr_right fun _ => ⟨fun h => ?_, fun h => ?_⟩
  · exact h.elim (fun h => ⟨.vtable, h⟩) fun h => ⟨.vcall, h⟩
  · obtain ⟨tag, htag⟩ := h
    cases tag with
    | vtable => exact .inl htag
    | vcall => exact .inr htag

theorem opens_eq_false_iff {line : Bytes} :
    DiagnosticBox.opens line = false ↔ ¬ WarnOpener line := by
  rw [← opens_iff, Bool.not_eq_true]

instance (line : Bytes) : Decidable (WarnOpener line) :=
  decidable_of_iff _ opens_iff

end RuntimeAnalyzer
