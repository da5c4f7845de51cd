import RuntimeAnalyzer.Types

/-!
# The rule tables

The catalogue of rules with what a SARIF consumer shows of them, the bounds reports with their
CWE by access, and the vtable warnings with the finding each names. The source takes every rule
it names from the catalogue at compile time (`RuleNamed`), so the tables below hold catalogue
identifiers only.
-/

namespace RuntimeAnalyzer

/-- What a rule checks, and how sure a finding of it is. -/
structure RuleDescription where
  title : Bytes
  description : Bytes
  confidence : Bytes
  deriving DecidableEq, Repr

/-- A rule `parseFindings` reports. -/
structure CatalogueRule where
  id : Bytes
  description : RuleDescription
  deriving DecidableEq, Repr

/-- The catalogue. -/
def kRules : List CatalogueRule :=
  [⟨lit "heap-buffer-overflow",
    lit "Heap buffer overflow",
    lit "A read or a write past the bounds of a heap allocation, observed while the program ran.",
    lit "high"⟩,
   ⟨lit "stack-buffer-overflow",
    lit "Stack buffer overflow",
    lit "A read or a write past the bounds of a stack object, observed while the program ran.",
    lit "high"⟩,
   ⟨lit "heap-use-after-free",
    lit "Use of freed heap memory",
    lit "A read or a write to heap memory after it was freed, observed while the program ran.",
    lit "high"⟩,
   ⟨lit "double-free",
    lit "Double free",
    lit "Heap memory freed a second time, observed while the program ran.",
    lit "high"⟩,
   ⟨lit "memory-leak",
    lit "Memory leak",
    lit "Heap memory the program allocated and had not freed when it ended.",
    lit "high"⟩,
   ⟨lit "vtable-null-this",
    lit "Virtual call through a null object",
    lit "A virtual call made through a null pointer to an object.",
    lit "high"⟩,
   ⟨lit "vtable-use-after-free",
    lit "Virtual call through a freed object",
    lit "A virtual call made through an object whose memory was already freed.",
    lit "high"⟩,
   ⟨lit "vtable-corrupted",
    lit "Virtual call through a corrupted vtable",
    lit "A virtual call made through an object whose vtable pointer is missing or invalid.",
    lit "high"⟩,
   ⟨lit "vcall-invalid-target",
    lit "Virtual call to non-executable memory",
    lit "A virtual call whose target address is not in executable memory.",
    lit "high"⟩,
   ⟨lit "vtable-type-mismatch",
    lit "Object of an unexpected dynamic type",
    lit "At a virtual call, the object's dynamic type differs from its static type, or " ++
      lit "comes from another module: a possible type confusion, or a legitimate cast.",
    lit "medium"⟩,
   ⟨lit "vtable-diagnostic",
    lit "Other virtual call issue",
    lit "A vtable or virtual call problem the runtime reported without a more specific " ++
      lit "rule, such as a vtable without type information, as built with -fno-rtti.",
    lit "low"⟩]

/-- The description of a rule; nothing for a rule the analyzer does not report. -/
def describeRule (rule : Bytes) : Option RuleDescription :=
  (kRules.find? (·.id == rule)).map (·.description)

/-- A bounds report line, `ct: <rule id> WRITE|READ of size N`, and its CWE by access. -/
structure BoundsRule where
  rule : Bytes
  writeCwe : Bytes
  readCwe : Bytes
  deriving DecidableEq, Repr

/-- The bounds reports, in the order in which a line is tried. -/
def kBoundsRules : List BoundsRule :=
  [⟨lit "heap-buffer-overflow", lit "CWE-122", lit "CWE-125"⟩,
   ⟨lit "stack-buffer-overflow", lit "CWE-121", lit "CWE-125"⟩,
   ⟨lit "heap-use-after-free", lit "CWE-416", lit "CWE-416"⟩]

/-- A vtable box's warning, matched as a prefix, and the finding it names. -/
structure VtableRule where
  warning : Bytes
  rule : Bytes
  cwe : Bytes
  severity : Severity
  deriving DecidableEq, Repr

/-- The vtable warnings, most specific first: the earliest entry a box matches names its rule. -/
def kVtableRules : List VtableRule :=
  [⟨lit "null this pointer", lit "vtable-null-this", lit "CWE-476", .error⟩,
   ⟨lit "vptr on freed object", lit "vtable-use-after-free", lit "CWE-416", .error⟩,
   ⟨lit "vtable resolve failed", lit "vtable-corrupted", lit "CWE-843", .error⟩,
   ⟨lit "no vptr", lit "vtable-corrupted", lit "CWE-843", .error⟩,
   ⟨lit "target in non-exec memory", lit "vcall-invalid-target", lit "CWE-843", .error⟩,
   ⟨lit "static!=dynamic type", lit "vtable-type-mismatch", lit "CWE-843", .warning⟩,
   ⟨lit "module mismatch: ", lit "vtable-type-mismatch", lit "CWE-843", .warning⟩,
   -- Valid under -fno-rtti, so it never outranks another warning of the box.
   ⟨lit "missing typeinfo", lit "vtable-diagnostic", lit "CWE-843", .warning⟩]

/-- The rule is one of a diagnostic box. -/
def isVtableRule (rule : Bytes) : Bool :=
  startsWith rule (lit "vtable-") || startsWith rule (lit "vcall-")

/-- Every rule a table names is in the catalogue, as `RuleNamed` has the compiler check. -/
theorem named_rules_in_catalogue :
    (∀ bounds ∈ kBoundsRules, (describeRule bounds.rule).isSome) ∧
      ∀ vtable ∈ kVtableRules, (describeRule vtable.rule).isSome := by
  decide

end RuntimeAnalyzer
