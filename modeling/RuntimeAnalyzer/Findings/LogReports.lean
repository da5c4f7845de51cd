import RuntimeAnalyzer.Findings.LogWords

/-!
# The reports of a log that stand on lines

What the parser makes of a bounds report, a double free and a leak, from any state without an open
box: it pushes the report's finding (`BoundsReport.parse`, `DoubleFree.parse`, `Leak.parse`).
-/

namespace RuntimeAnalyzer

/-! ## Bounds reports -/

/-- A line without the rules as inner words is no bounds heading. -/
theorem bounds_finding_eq_none {line : Bytes}
    (h : ∀ error : BoundsError, error.rule ∉ (words line).tail.dropLast) :
    boundsFinding line = none := by
  rw [← Option.not_isSome_iff_eq_none, bounds_finding_isSome_iff]
  intro hheading
  obtain ⟨error, herror⟩ := hheading
  exact not_bounds_heading (h error) herror

namespace BoundsReport

variable (report : BoundsReport)

/-- The words of a heading up to its rule. -/
def upToRule : List Bytes :=
  logPrefix report.pid report.level ++ [lit "ct:", report.error.rule]

/-- The words of a heading from the access on. -/
def accessOn : List Bytes :=
  [report.access.word, lit "of", lit "size", Decimal.render report.size]

theorem rule_plain : Plain report.error.rule := by
  cases report.error <;> decide

theorem access_word_plain : Plain report.access.word := by
  cases report.access <;> decide

theorem access_word_fixed : report.access.word ∈ fixedWords := by
  cases report.access <;> decide

theorem up_to_rule_plain {word : Bytes} (h : word ∈ report.upToRule) : Plain word := by
  rw [upToRule, List.mem_append] at h
  rcases h with h | h
  · exact log_prefix_plain h
  · simp only [List.mem_cons, List.not_mem_nil, or_false] at h
    rcases h with rfl | rfl
    · decide
    · exact report.rule_plain

theorem access_on_plain {word : Bytes} (h : word ∈ report.accessOn) : Plain word := by
  simp only [accessOn, List.mem_cons, List.not_mem_nil, or_false] at h
  rcases h with rfl | rfl | rfl | rfl
  · exact report.access_word_plain
  · decide
  · decide
  · exact plain_render _

theorem heading_eq : report.heading = unwords (report.upToRule ++ report.accessOn) := by
  simp [heading, upToRule, accessOn, headingWords]

theorem words_heading : words report.heading = report.upToRule ++ report.accessOn := by
  rw [heading_eq, words_unwords (by simp [upToRule])]
  intro word hword
  rcases List.mem_append.mp hword with h | h
  · exact report.up_to_rule_plain h
  · exact report.access_on_plain h

/-- A heading names no rule but its own. -/
theorem other_rule_not_mem {other : BoundsError} (hne : other ≠ report.error) :
    other.rule ∉ (words report.heading).tail.dropLast := by
  have hrules : ∀ first second : BoundsError, first.rule = second.rule → first = second := by
    intro first second
    cases first <;> cases second <;> decide
  have hinner : (words report.heading).tail.dropLast =
      [lit "==ct==", report.level.tag, lit "ct:"] ++ report.error.rule ::
        [report.access.word, lit "of", lit "size"] := by
    rw [words_heading]
    rfl
  have hbefore : other.rule ∉ [lit "==ct==", report.level.tag, lit "ct:"] := by
    refine rule_not_mem other ?_
    simp only [List.forall_mem_cons]
    exact ⟨.inl (by decide), .inl (tag_mem_fixed _), .inl (by decide), by simp⟩
  have hafter : other.rule ∉ [report.access.word, lit "of", lit "size"] := by
    refine rule_not_mem other ?_
    simp only [List.forall_mem_cons]
    exact ⟨.inl report.access_word_fixed, .inl (by decide), .inl (by decide), by simp⟩
  intro hmem
  rw [hinner] at hmem
  rcases List.mem_append.mp hmem with h | h
  · exact hbefore h
  · rcases List.mem_cons.mp h with h | h
    · exact hne (hrules _ _ h)
    · exact hafter h

/-- What the heading's search looks for. -/
def needle : Bytes :=
  lit "ct: " ++ report.error.rule ++ lit " "

/-- A heading, cut where its search finds it. -/
theorem heading_split :
    report.heading = (unwords (logPrefix report.pid report.level) ++ [space]) ++ report.needle ++
      unwords report.accessOn := by
  rw [heading_eq, unwords_append (by simp [upToRule]) (by simp [accessOn]), upToRule,
    unwords_append (log_prefix_ne_nil _ _) (by simp), needle,
    lit_ct_space, lit_space]
  simp [unwords, List.intercalate_cons_cons]

/-- The needle occurs in no earlier place of the heading. -/
theorem needle_not_before :
    ¬ report.needle <:+:
      (unwords (logPrefix report.pid report.level) ++ [space]) ++ report.needle.dropLast := by
  have hneedle : report.needle.dropLast = unwords [lit "ct:", report.error.rule] := by
    rw [needle, lit_space, List.dropLast_concat,
      lit_ct_space]
    simp [unwords, List.intercalate_cons_cons]
  have hwords : (unwords (logPrefix report.pid report.level) ++ [space]) ++ report.needle.dropLast =
      unwords report.upToRule := by
    rw [hneedle, upToRule, unwords_append (log_prefix_ne_nil _ _) (by simp)]
    simp
  rw [hwords]
  refine not_bounds_heading ?_
  rw [words_unwords (by simp [upToRule]) fun word => report.up_to_rule_plain]
  refine rule_not_mem report.error ?_
  have hinner : report.upToRule.tail.dropLast = [lit "==ct==", report.level.tag, lit "ct:"] := rfl
  rw [hinner]
  simp only [List.forall_mem_cons]
  exact ⟨.inl (by decide), .inl (tag_mem_fixed _), .inl (by decide), by simp⟩

/-- The search for the report's own rule finds the heading. -/
theorem find_needle :
    ListSearch.find report.needle report.heading =
      some (unwords (logPrefix report.pid report.level) ++ [space]).length := by
  rw [heading_split]
  exact ListSearch.find_append _ (by simp [needle, lit]) report.needle_not_before

/-- The message is what follows `ct: `. -/
theorem drop_heading :
    report.heading.drop ((unwords (logPrefix report.pid report.level) ++ [space]).length + 4) =
      unwords report.headingWords := by
  have hwords : unwords report.headingWords =
      report.error.rule ++ (lit " " ++ unwords report.accessOn) := by
    rw [lit_space]
    simp [headingWords, accessOn, unwords, List.intercalate_cons_cons]
  have hcut : report.heading = ((unwords (logPrefix report.pid report.level) ++ [space]) ++
      lit "ct: ") ++ (report.error.rule ++ (lit " " ++ unwords report.accessOn)) := by
    rw [heading_split, needle]
    simp
  have hlength : ((unwords (logPrefix report.pid report.level) ++ [space]) ++ lit "ct: ").length =
      (unwords (logPrefix report.pid report.level) ++ [space]).length + 4 := by
    rw [@List.length_append _ _ (lit "ct: "), show (lit "ct: ").length = 4 by decide]
  rw [hcut, ← hlength, List.drop_left, hwords]

/-- The message says ` WRITE ` for a write only. -/
theorem contains_write :
    contains (unwords report.headingWords) (lit " WRITE ") = (report.access == .write) := by
  have hplain : ∀ word ∈ report.headingWords, Plain word := by
    intro word hword
    rcases List.mem_cons.mp hword with rfl | hword
    · exact report.rule_plain
    · exact report.access_on_plain hword
  cases haccess : report.access with
  | write =>
      refine contains_iff.mpr ⟨report.error.rule,
        unwords [lit "of", lit "size", Decimal.render report.size], ?_⟩
      rw [headingWords, haccess, show lit " WRITE " = [space] ++ lit "WRITE" ++ [space] by decide]
      simp [unwords, List.intercalate_cons_cons, AccessKind.word]
  | read =>
      refine contains_eq_false_iff.mpr fun hwrite => ?_
      have hmem := @ListSplit.mem_inner_pieces _ _ space [] (lit "WRITE") [] _ (by decide)
        (show _ <:+: unwords report.headingWords from hwrite)
      rw [show (unwords report.headingWords).splitOn space = report.headingWords from
        words_unwords (by simp [headingWords]) hplain, headingWords, haccess] at hmem
      have hinner : lit "WRITE" ∈ [lit "READ", lit "of", lit "size"] := hmem
      revert hinner
      decide

/-- The finding of the heading alone, before its sites are known. -/
def unplaced : Finding :=
  { report.finding with location := none, allocation := none }

theorem bounds_finding_heading : boundsFinding report.heading = some report.unplaced := by
  have hknown : report.error.entry ∈ kBoundsRules := mem_bounds_rules_iff.mpr ⟨_, rfl⟩
  obtain ⟨before, after, hrules, hnot⟩ := List.eq_append_cons_of_mem hknown
  rw [boundsFinding, List.findSome?_eq_some_iff]
  refine ⟨before, report.error.entry, after, hrules, ?_, ?_⟩
  · rw [boundsFindingOf, show lit "ct: " ++ report.error.entry.rule ++ lit " " = report.needle
      from rfl, find_needle]
    simp only [drop_heading, contains_write]
    cases haccess : report.access <;> simp [unplaced, finding, BoundsError.entry, haccess]
  · intro bounds hbefore
    obtain ⟨other, rfl⟩ := mem_bounds_rules_iff.mp (show bounds ∈ kBoundsRules by
      simp [hrules, hbefore])
    have hne : other ≠ report.error := fun heq => hnot (heq ▸ hbefore)
    have hnone : ¬ lit "ct: " ++ other.entry.rule ++ lit " " <:+: report.heading :=
      not_bounds_heading (report.other_rule_not_mem hne)
    rw [boundsFindingOf, ListSearch.find_eq_none_iff.mpr hnone]

theorem access_words_plain : ∀ word ∈ report.accessWords, Plain word := by
  simp only [accessWords, List.forall_mem_cons, plain_assign_iff, plain_site, plain_token,
    plain_nil, and_true, true_and]
  exact ⟨by decide, by decide, by decide, by simp⟩

theorem alloc_words_plain : ∀ word ∈ report.allocWords, Plain word := by
  simp only [allocWords, List.forall_mem_cons, plain_assign_iff, plain_site, plain_token,
    plain_render, plain_nil, and_true, true_and]
  exact ⟨by decide, by decide, by decide, by simp⟩

/-- The first indented line gives the finding its location. -/
theorem continue_access (finding : Finding) :
    continueReport (unwords report.accessWords) finding =
      { finding with location := report.accessSite.location } := by
  have haccess : field (unwords report.accessWords) (lit "access") =
      some report.accessSite.text := by
    rw [field_unwords (by simp [accessWords]) report.access_words_plain (by decide), accessWords]
    simp [field_of_word_plain, field_of_word_self]
  have halloc : field (unwords report.accessWords) (lit "alloc_site") = none := by
    rw [field_unwords (by simp [accessWords]) report.access_words_plain (by decide), accessWords]
    simp only [List.findSome?_eq_none_iff, List.forall_mem_cons]
    exact ⟨field_of_word_plain (by simp), field_of_word_plain (by simp),
      field_of_word_other _ (by decide),
      field_of_word_other _ (by decide),
      field_of_word_other _ (by decide), by simp⟩
  rw [continueReport, haccess, halloc]
  simp [parse_site_text]

/-- The second indented line gives the finding its allocation. -/
theorem continue_alloc (finding : Finding) :
    continueReport (unwords report.allocWords) finding =
      { finding with allocation := report.allocSite.location } := by
  have haccess : field (unwords report.allocWords) (lit "access") = none := by
    rw [field_unwords (by simp [allocWords]) report.alloc_words_plain (by decide), allocWords]
    simp only [List.findSome?_eq_none_iff, List.forall_mem_cons]
    exact ⟨field_of_word_plain (by simp), field_of_word_plain (by simp),
      field_of_word_other _ (by decide),
      field_of_word_other _ (by decide),
      field_of_word_other _ (by decide), by simp⟩
  have halloc : field (unwords report.allocWords) (lit "alloc_site") =
      some report.allocSite.text := by
    rw [field_unwords (by simp [allocWords]) report.alloc_words_plain (by decide), allocWords]
    have hsize := @field_of_word_other (lit "alloc_site") (lit "alloc_size")
      (Decimal.render report.allocSize) (by decide)
    simp [field_of_word_plain, field_of_word_self, hsize]
  rw [continueReport, haccess, halloc]
  simp [parse_site_text]

/-- The words of the first indented line, whatever stands for the site. -/
def accessWordsAt (site : Bytes) : List Bytes :=
  [[], [], assign (lit "access") site, assign (lit "ptr") report.pointer.bytes,
    assign (lit "offset") report.offset.bytes]

/-- The words of the second indented line, whatever stands for the site. -/
def allocWordsAt (site : Bytes) : List Bytes :=
  [[], [], assign (lit "alloc_size") (Decimal.render report.allocSize),
    assign (lit "alloc_site") site, assign (lit "base") report.base.bytes]

/-- The lines of the report, whatever stands for its sites. -/
def linesAt (access alloc : Bytes) : List Bytes :=
  [report.heading, unwords (report.accessWordsAt access), unwords (report.allocWordsAt alloc)]

/-- None of a report's lines opens a box. -/
theorem opens_lines {access alloc line : Bytes} (h : line ∈ report.linesAt access alloc) :
    DiagnosticBox.opens line = false := by
  simp only [linesAt, List.mem_cons, List.not_mem_nil, or_false] at h
  rcases h with rfl | rfl | rfl
  · have hsuffix : Decimal.render report.size <:+ report.heading := by
      rw [heading_eq, accessOn, show report.upToRule ++ [report.access.word, lit "of", lit "size",
        Decimal.render report.size] = (report.upToRule ++ [report.access.word, lit "of",
          lit "size"]) ++ [Decimal.render report.size] by simp]
      exact unwords_suffix (by simp) _
    exact opens_eq_false hsuffix (getLast_render_ne _) (Decimal.render_ne_nil _)
  · have hsuffix : assign (lit "offset") report.offset.bytes <:+
        unwords (report.accessWordsAt access) :=
      @unwords_suffix [[], [], assign (lit "access") access,
        assign (lit "ptr") report.pointer.bytes] (by simp) _
    exact opens_eq_false hsuffix (getLast_assign_token _ _) (by simp [assign])
  · have hsuffix : assign (lit "base") report.base.bytes <:+
        unwords (report.allocWordsAt alloc) :=
      @unwords_suffix [[], [], assign (lit "alloc_size") (Decimal.render report.allocSize),
        assign (lit "alloc_site") alloc] (by simp) _
    exact opens_eq_false hsuffix (getLast_assign_token _ _) (by simp [assign])

/-- A line that starts with two empty words is indented. -/
theorem indented {ws : List Bytes} (hne : ws ≠ []) :
    startsWith (unwords ([] :: [] :: ws)) (lit "  ") = true := by
  obtain ⟨word, more, rfl⟩ := List.exists_cons_of_ne_nil hne
  rw [startsWith_iff, lit_two_spaces]
  exact ⟨unwords (word :: more), by simp [unwords, List.intercalate_cons_cons]⟩

/-- The parser continues the heading's finding with the two lines below it. -/
theorem parse_at {state : ParserState} (hbox : state.box = none) (access alloc : Bytes) :
    parseLines state (report.linesAt access alloc) =
      { state with
        findings := state.findings ++
          [continueReport (unwords (report.allocWordsAt alloc))
            (continueReport (unwords (report.accessWordsAt access)) report.unplaced)]
        inBoundsReport := true } := by
  have hopen : ∀ line ∈ report.linesAt access alloc, DiagnosticBox.opens line = false :=
    fun line => report.opens_lines
  simp only [linesAt, List.forall_mem_cons] at hopen
  obtain ⟨hhead, haccess, halloc, -⟩ := hopen
  have hindent : startsWith report.heading (lit "  ") = false :=
    log_line_not_indented report.pid report.level (lit "ct:" :: report.headingWords)
  have hreport : reportFinding report.heading = some report.unplaced := by
    rw [reportFinding, report.bounds_finding_heading, Option.some_or]
  have hfirst : parseLine state report.heading =
      { state with findings := state.findings ++ [report.unplaced], inBoundsReport := true } := by
    rw [parse_line_examine hbox hhead (by simp [hindent]), hreport,
      report.bounds_finding_heading]
    rfl
  -- The two indented lines update the finding that the heading has pushed.
  have hindented : ∀ (line : Bytes) (pushed : Finding), DiagnosticBox.opens line = false →
      startsWith line (lit "  ") = true →
      parseLine { state with findings := state.findings ++ [pushed], inBoundsReport := true } line =
        { state with
          findings := state.findings ++ [continueReport line pushed], inBoundsReport := true } := by
    intro line pushed hline hspaces
    rw [@parse_line_continue { state with findings := _, inBoundsReport := true } line hbox hline
      rfl hspaces]
    simp [List.modifyLast_concat]
  rw [linesAt, parse_lines_cons, hfirst, parse_lines_cons,
    hindented _ _ haccess (indented (by simp)), parse_lines_cons,
    hindented _ _ halloc (indented (by simp)), parse_lines_nil]

/-- The parser reads a bounds report off its three lines. -/
theorem parse {state : ParserState} (hbox : state.box = none) :
    parseLines state report.lines =
      { state with findings := state.findings ++ [report.finding], inBoundsReport := true } := by
  have hlines : report.lines = report.linesAt report.accessSite.text report.allocSite.text := rfl
  have haccess : report.accessWordsAt report.accessSite.text = report.accessWords := rfl
  have halloc : report.allocWordsAt report.allocSite.text = report.allocWords := rfl
  rw [hlines, report.parse_at hbox, haccess, halloc, continue_access, continue_alloc]
  rfl

end BoundsReport

/-! ## Reports on one line -/

variable {pid : Nat} {level : Level} {ws : List Bytes}

theorem plain_log_line (hplain : ∀ word ∈ ws, Plain word) :
    ∀ word ∈ logPrefix pid level ++ ws, Plain word := by
  intro word hword
  rcases List.mem_append.mp hword with h | h
  · exact log_prefix_plain h
  · exact hplain word h

/-- The words of a line with the prefix. -/
theorem words_log_line (hplain : ∀ word ∈ ws, Plain word) :
    words (unwords (logPrefix pid level ++ ws)) = logPrefix pid level ++ ws :=
  words_unwords (by simp [logPrefix]) (plain_log_line hplain)

/-- The words of a one-line report name no rule. -/
theorem bounds_finding_log_line {last : Bytes} (hplain : ∀ word ∈ ws ++ [last], Plain word)
    (hwords : ∀ word ∈ ws, word ∈ fixedWords ∨ ∃ key value, word = assign key value) :
    boundsFinding (unwords (logPrefix pid level ++ (ws ++ [last]))) = none := by
  refine bounds_finding_eq_none fun error => ?_
  have hinner : (logPrefix pid level ++ (ws ++ [last])).tail.dropLast =
      lit "==ct==" :: level.tag :: ws := by
    show (lit "==ct==" :: level.tag :: ws ++ [last]).dropLast = _
    rw [List.dropLast_concat]
  rw [words_log_line hplain, hinner]
  refine rule_not_mem error ?_
  simp only [List.forall_mem_cons]
  exact ⟨.inl (by decide), .inl (tag_mem_fixed level), hwords⟩

/-- A field of a line with the prefix is looked up behind it. -/
theorem field_log_line {key : Bytes} (hplain : ∀ word ∈ ws, Plain word) (hkey : IsKey key) :
    field (unwords (logPrefix pid level ++ ws)) key = ws.findSome? (fieldOfWord key) := by
  have hpid : equals ∉ lit "|" ++ Decimal.render pid ++ lit "|" := by
    have hrender := Decimal.not_mem_render pid (show Decimal.isDigit equals = false by decide)
    simp only [List.mem_append, not_or]
    exact ⟨⟨by decide, hrender⟩, by decide⟩
  have htag : equals ∉ level.tag := by cases level <;> decide
  have hpre : (logPrefix pid level).findSome? (fieldOfWord key) = none := by
    simp only [logPrefix, List.findSome?_eq_none_iff, List.forall_mem_cons]
    exact ⟨field_of_word_plain hpid, field_of_word_marker hkey, field_of_word_plain htag, by simp⟩
  rw [field_unwords (by simp [logPrefix]) (plain_log_line hplain) hkey, List.findSome?_append, hpre,
    Option.none_or]

/-- A line that ends in a site opens no box. -/
theorem opens_log_line (key : Bytes) (site : Site) :
    DiagnosticBox.opens
      (unwords (logPrefix pid level ++ (ws ++ [assign key site.text]))) = false := by
  rw [← List.append_assoc]
  refine opens_eq_false (unwords_suffix (by simp [logPrefix]) _) ?_ (by simp [assign])
  rw [getLast_assign key (site_text_ne_nil site)]
  exact getLast_site_ne site

/-- The parser takes a one-line report for what it is. -/
theorem parse_one_line {state : ParserState} {last : Bytes} {finding : Finding}
    (hbox : state.box = none) (hplain : ∀ word ∈ ws ++ [last], Plain word)
    (hwords : ∀ word ∈ ws, word ∈ fixedWords ∨ ∃ key value, word = assign key value)
    (hopen : DiagnosticBox.opens (unwords (logPrefix pid level ++ (ws ++ [last]))) = false)
    (hreport : oneLineReport (unwords (logPrefix pid level ++ (ws ++ [last]))) = some finding) :
    parseLines state [unwords (logPrefix pid level ++ (ws ++ [last]))] =
      { state with findings := state.findings ++ [finding], inBoundsReport := false } := by
  have hbounds := @bounds_finding_log_line pid level ws last hplain hwords
  have hindent := log_line_not_indented pid level (ws ++ [last])
  rw [parse_lines_cons, parse_lines_nil, parse_line_examine hbox hopen (by simp [hindent]),
    reportFinding, hbounds, hreport]
  rfl

namespace DoubleFree

variable (free : DoubleFree)

theorem plain {word : Bytes}
    (h : word ∈ [lit "tracing-free", assign (lit "ptr") free.pointer.bytes, lit "(double",
      lit "free)", assign (lit "site") free.site.text,
      assign (lit "alloc_site") free.allocSite.text]) : Plain word := by
  revert word
  simp only [List.forall_mem_cons, plain_assign_iff, plain_token, plain_site, and_true]
  exact ⟨by decide, by decide, by decide, by decide, by decide, by decide, by simp⟩

theorem words_plain : ∀ word ∈ free.words, Plain word :=
  plain_log_line fun _ => free.plain

/-- A double free is recognized by its two words. -/
theorem contains_double_free : contains (unwords free.words) (lit "(double free)") = true := by
  have hsplit : free.words = (logPrefix free.pid free.level ++
      [lit "tracing-free", assign (lit "ptr") free.pointer.bytes]) ++
        ([lit "(double", lit "free)"] ++ [assign (lit "site") free.site.text,
          assign (lit "alloc_site") free.allocSite.text]) := by simp [words]
  rw [contains_iff, hsplit, show lit "(double free)" = unwords [lit "(double", lit "free)"] by
    decide]
  exact infix_unwords (by simp) (by simp) (by simp)

/-- The line's finding. -/
theorem one_line_report : oneLineReport (unwords free.words) = some free.finding := by
  have hsite : field (unwords free.words) (lit "site") = some free.site.text := by
    rw [words, field_log_line (fun word => free.plain) (by decide)]
    have hptr := @field_of_word_other (lit "site") (lit "ptr") free.pointer.bytes (by decide)
    simp [hptr, field_of_word_self, field_of_word_plain,
      show equals ∉ lit "tracing-free" by decide, show equals ∉ lit "(double" by decide,
      show equals ∉ lit "free)" by decide]
  have halloc : field (unwords free.words) (lit "alloc_site") = some free.allocSite.text := by
    rw [words, field_log_line (fun word => free.plain) (by decide)]
    have hptr := @field_of_word_other (lit "alloc_site") (lit "ptr") free.pointer.bytes (by decide)
    have hother := @field_of_word_other (lit "alloc_site") (lit "site") free.site.text (by decide)
    simp [hptr, hother, field_of_word_self, field_of_word_plain,
      show equals ∉ lit "tracing-free" by decide, show equals ∉ lit "(double" by decide,
      show equals ∉ lit "free)" by decide]
  rw [oneLineReport, if_pos free.contains_double_free, oneLineFinding, hsite, halloc]
  simp [parse_site_text, finding]

/-- The parser reads a double free off its line. -/
theorem parse {state : ParserState} (hbox : state.box = none) :
    parseLines state [unwords free.words] =
      { state with findings := state.findings ++ [free.finding], inBoundsReport := false } := by
  have hsplit : free.words = logPrefix free.pid free.level ++
      ([lit "tracing-free", assign (lit "ptr") free.pointer.bytes, lit "(double", lit "free)",
        assign (lit "site") free.site.text] ++
        [assign (lit "alloc_site") free.allocSite.text]) := rfl
  have hreport := free.one_line_report
  rw [hsplit] at hreport ⊢
  refine parse_one_line hbox (fun word => free.plain) ?_ (opens_log_line _ _) hreport
  simp only [List.forall_mem_cons]
  exact ⟨.inl (by decide), .inr ⟨_, _, rfl⟩, .inl (by decide), .inl (by decide),
    .inr ⟨_, _, rfl⟩, by simp⟩

end DoubleFree

namespace Leak

variable (leak : Leak)

theorem plain {word : Bytes}
    (h : word ∈ [lit "ct:", lit "leak", assign (lit "ptr") leak.pointer.bytes,
      assign (lit "size") (Decimal.render leak.size),
      assign (lit "alloc_site") leak.allocSite.text]) : Plain word := by
  revert word
  simp only [List.forall_mem_cons, plain_assign_iff, plain_token, plain_site, plain_render,
    and_true]
  exact ⟨by decide, by decide, by decide, by decide, by decide, by simp⟩

theorem words_plain : ∀ word ∈ leak.words, Plain word :=
  plain_log_line fun _ => leak.plain

/-- No word of a leak but the first starts as the second word of a double free does. -/
theorem not_double_free : ¬ lit "(double free)" <:+: unwords leak.words := by
  intro hfree
  rw [show lit "(double free)" = lit "(double" ++ space :: lit "free)" by decide] at hfree
  obtain ⟨word, hword, hpre⟩ := ListSplit.prefix_later_piece (by decide) hfree
  rw [show (unwords leak.words).splitOn space = leak.words from
    words_log_line (fun word => leak.plain)] at hword
  have hfields : ∀ key value, ¬ lit "free)" <+: key → ¬ lit "free)" <+: assign key value :=
    fun key value hkey h => hkey (prefix_of_prefix_assign (by decide) h)
  have htag : ¬ lit "free)" <+: leak.level.tag := by cases leak.level <;> decide
  revert word
  rw [words, logPrefix]
  simp only [List.cons_append, List.nil_append, List.tail_cons, List.forall_mem_cons]
  exact ⟨by decide, htag, by decide, by decide, hfields _ _ (by decide), hfields _ _ (by decide),
    hfields _ _ (by decide), by simp⟩

/-- A leak is recognized by its words up to the pointer. -/
theorem contains_leak : contains (unwords leak.words) (lit "ct: leak ptr=") = true := by
  refine contains_iff.mpr ⟨unwords (logPrefix leak.pid leak.level) ++ [space],
    leak.pointer.bytes ++ space :: unwords [assign (lit "size") (Decimal.render leak.size),
      assign (lit "alloc_site") leak.allocSite.text], ?_⟩
  rw [words, unwords_append (log_prefix_ne_nil _ _) (by simp), show lit "ct: leak ptr=" =
    lit "ct:" ++ space :: (lit "leak" ++ space :: (lit "ptr" ++ [equals])) by decide]
  simp [unwords, List.intercalate_cons_cons, assign]

/-- The line's finding. -/
theorem one_line_report : oneLineReport (unwords leak.words) = some leak.finding := by
  have hct : ∀ key, fieldOfWord key (lit "ct:") = none := fun key =>
    field_of_word_plain (by decide)
  have hleak : ∀ key, fieldOfWord key (lit "leak") = none := fun key =>
    field_of_word_plain (by decide)
  have hsite : field (unwords leak.words) (lit "site") = none := by
    rw [words, field_log_line (fun word => leak.plain) (by decide),
      List.findSome?_eq_none_iff]
    simp only [List.forall_mem_cons]
    exact ⟨hct _, hleak _, field_of_word_other _ (by decide),
      field_of_word_other _ (by decide),
      field_of_word_other _ (by decide), by simp⟩
  have hsize : field (unwords leak.words) (lit "size") = some (Decimal.render leak.size) := by
    rw [words, field_log_line (fun word => leak.plain) (by decide)]
    have hptr := @field_of_word_other (lit "size") (lit "ptr") leak.pointer.bytes (by decide)
    simp [hct, hleak, hptr, field_of_word_self]
  have halloc : field (unwords leak.words) (lit "alloc_site") = some leak.allocSite.text := by
    rw [words, field_log_line (fun word => leak.plain) (by decide)]
    have hptr := @field_of_word_other (lit "alloc_site") (lit "ptr") leak.pointer.bytes (by decide)
    have hother :=
      @field_of_word_other (lit "alloc_site") (lit "size") (Decimal.render leak.size) (by decide)
    simp [hct, hleak, hptr, hother, field_of_word_self]
  have hmessage : leakMessage (unwords leak.words) = leak.finding.message := by
    rw [leakMessage, hsize, finding, show lit "memory leak" = lit "memory" ++ space :: lit "leak"
      by decide, show lit " of " = space :: (lit "of" ++ [space]) by decide,
      show lit " bytes" = space :: lit "bytes" by decide]
    simp [unwords, List.intercalate_cons_cons]
  have hfinding : oneLineFinding (unwords leak.words) (lit "memory-leak") (lit "CWE-401") .warning
      (leakMessage (unwords leak.words)) = leak.finding := by
    rw [oneLineFinding, hsite, halloc, hmessage]
    simp [parse_site_text, finding]
  rw [oneLineReport, contains_eq_false_iff.mpr leak.not_double_free, leak.contains_leak, hfinding]
  rfl

/-- The parser reads a leak off its line. -/
theorem parse {state : ParserState} (hbox : state.box = none) :
    parseLines state [unwords leak.words] =
      { state with findings := state.findings ++ [leak.finding], inBoundsReport := false } := by
  have hsplit : leak.words = logPrefix leak.pid leak.level ++
      ([lit "ct:", lit "leak", assign (lit "ptr") leak.pointer.bytes,
        assign (lit "size") (Decimal.render leak.size)] ++
        [assign (lit "alloc_site") leak.allocSite.text]) := rfl
  have hreport := leak.one_line_report
  rw [hsplit] at hreport ⊢
  refine parse_one_line hbox (fun word => leak.plain) ?_ (opens_log_line _ _) hreport
  simp only [List.forall_mem_cons]
  exact ⟨.inl (by decide), .inl (by decide), .inr ⟨_, _, rfl⟩, .inr ⟨_, _, rfl⟩, by simp⟩

end Leak

end RuntimeAnalyzer
