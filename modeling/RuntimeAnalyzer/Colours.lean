import RuntimeAnalyzer.Events
import RuntimeAnalyzer.Findings.Parser

/-!
# Escape sequences

What the single pass of `StripAnsi` makes of a text. A text is cut after any byte that starts no
sequence with the next one (`strip_from_append`), and the pass is inside a sequence at the cut
exactly when the text before it is `Unfinished`. Complete sequences between the bytes of a text
leave no trace (`colours_change_nothing`). A sequence that a line leaves open takes the newline
with it (`strips_by_line_iff`), and one that stands between an escape and a bracket joins the two
(`strip_leaves_nothing_iff`).
-/

namespace RuntimeAnalyzer

/-- A complete sequence: `ESC [`, parameters without a letter, and a letter. -/
def IsSequence (text : Bytes) : Prop :=
  ∃ params letter, text = escape :: bracket :: (params ++ [letter]) ∧
    (∀ byte ∈ params, isLetter byte = false) ∧ isLetter letter = true

/-- The text has an `ESC [` that no letter follows. -/
def Unfinished (text : Bytes) : Prop :=
  ∃ before params, text = before ++ escape :: bracket :: params ∧
    ∀ byte ∈ params, isLetter byte = false

/-- Whether the loop of `StripAnsi` is in a sequence after a text. -/
def insideAfter (inSequence : Bool) : Bytes → Bool
  | [] => inSequence
  | byte :: rest =>
      if inSequence then insideAfter (!isLetter byte) rest
      else if byte = escape ∧ rest.head? = some bracket then insideAfter true rest
      else insideAfter false rest

/-! ## Cutting a text in two -/

/-- No sequence starts with the last byte of the first text and the first byte of the second. -/
def CutsApart (first second : Bytes) : Prop :=
  first.getLast? = some escape → second.head? ≠ some bracket

theorem CutsApart.tail {byte : Byte} {first second : Bytes} (h : CutsApart (byte :: first) second)
    (hne : first ≠ []) : CutsApart first second :=
  fun hlast => h (by rw [List.getLast?_cons_of_ne_nil hne, hlast])

/-- The first byte starts a sequence in the whole text as it does in its first part. -/
theorem CutsApart.starts_iff {byte : Byte} {first second : Bytes}
    (h : CutsApart (byte :: first) second) :
    (byte = escape ∧ (first ++ second).head? = some bracket) ↔
      (byte = escape ∧ first.head? = some bracket) := by
  cases first with
  | nil =>
      refine iff_of_false (fun hstarts => ?_) (by simp)
      exact h (by simp [hstarts.1]) (by simpa using hstarts.2)
  | cons next first => simp

/-- Stripping a text in two parts. -/
theorem strip_from_append {first second : Bytes} (h : CutsApart first second) (inSequence : Bool) :
    stripFrom inSequence (first ++ second) =
      stripFrom inSequence first ++ stripFrom (insideAfter inSequence first) second := by
  induction first generalizing inSequence with
  | nil => rfl
  | cons byte first ih =>
      have hrest : ∀ inside, stripFrom inside (first ++ second) =
          stripFrom inside first ++ stripFrom (insideAfter inside first) second := by
        cases first with
        | nil => exact fun _ => rfl
        | cons next first => exact ih (h.tail (by simp))
      cases inSequence with
      | true => simp only [List.cons_append, stripFrom, insideAfter, if_true, hrest]
      | false =>
          simp only [List.cons_append, stripFrom, insideAfter, Bool.false_eq_true, if_false,
            h.starts_iff]
          split
          · exact hrest true
          · rw [hrest false, List.cons_append]

/-- An unfinished sequence starts at the first byte, or after it. -/
theorem unfinished_cons_iff {byte : Byte} {rest : Bytes} :
    Unfinished (byte :: rest) ↔
      (byte = escape ∧ rest.head? = some bracket ∧ ∀ b ∈ rest, isLetter b = false) ∨
        Unfinished rest := by
  constructor
  · rintro ⟨before, params, heq, hparams⟩
    cases before with
    | nil =>
        obtain ⟨rfl, rfl⟩ := List.cons_eq_cons.mp heq
        refine .inl ⟨rfl, rfl, fun b hb => ?_⟩
        rcases List.mem_cons.mp hb with rfl | hb
        · decide
        · exact hparams b hb
    | cons b before =>
        obtain ⟨rfl, rfl⟩ := List.cons_eq_cons.mp heq
        exact .inr ⟨before, params, rfl, hparams⟩
  · rintro (⟨rfl, hhead, hrest⟩ | ⟨before, params, rfl, hparams⟩)
    · obtain ⟨params, rfl⟩ := List.head?_eq_some_iff.mp hhead
      exact ⟨[], params, rfl, fun b hb => hrest b (List.mem_cons_of_mem _ hb)⟩
    · exact ⟨byte :: before, params, rfl, hparams⟩

/-- The loop is in a sequence when it was and met no letter, or has met an unfinished one. -/
theorem inside_after_iff {inSequence : Bool} {text : Bytes} :
    insideAfter inSequence text = true ↔
      (inSequence = true ∧ ∀ byte ∈ text, isLetter byte = false) ∨ Unfinished text := by
  induction text generalizing inSequence with
  | nil => simp [insideAfter, Unfinished]
  | cons byte rest ih =>
      rw [unfinished_cons_iff]
      cases inSequence with
      | true =>
          rw [insideAfter, if_pos rfl, ih]
          simp only [Bool.not_eq_true', true_and, List.forall_mem_cons]
          constructor
          · rintro (h | h)
            · exact .inl h
            · exact .inr (.inr h)
          -- An escape is no letter, so a sequence that starts here is in the open one.
          · rintro (h | ⟨rfl, _, hrest⟩ | h)
            · exact .inl h
            · exact .inl ⟨by decide, hrest⟩
            · exact .inr h
      | false =>
          rw [insideAfter, if_neg (by simp)]
          split
          · rename_i hstarts
            rw [ih]
            simp [hstarts]
          · rename_i hstarts
            rw [ih]
            simp only [Bool.false_eq_true, false_and, false_or]
            exact ⟨.inr, fun h => h.resolve_left fun hopen => hstarts ⟨hopen.1, hopen.2.1⟩⟩

theorem inside_after_eq_false_iff {text : Bytes} :
    insideAfter false text = false ↔ ¬ Unfinished text := by
  rw [← Bool.not_eq_true, inside_after_iff]
  simp

/-- Stripping only takes bytes away. -/
theorem strip_from_sublist (inSequence : Bool) (text : Bytes) :
    (stripFrom inSequence text).Sublist text := by
  induction text generalizing inSequence with
  | nil => exact .slnil
  | cons byte rest ih =>
      rw [stripFrom]
      split
      · exact (ih _).cons byte
      · split
        · exact (ih _).cons byte
        · exact (ih _).cons_cons byte

/-- A byte that starts no sequence stays. -/
theorem strip_cons {byte : Byte} {rest : Bytes}
    (h : ¬ (byte = escape ∧ rest.head? = some bracket)) :
    stripAnsi (byte :: rest) = byte :: stripAnsi rest := by
  rw [stripAnsi, stripFrom, if_neg (by simp), if_neg h, ← stripAnsi]

/-! ## Complete sequences -/

/-- From inside a sequence, the pass goes on behind the next letter. -/
theorem strip_from_params {params : Bytes} (h : ∀ byte ∈ params, isLetter byte = false)
    {letter : Byte} (hletter : isLetter letter = true) (rest : Bytes) :
    stripFrom true (params ++ letter :: rest) = stripAnsi rest := by
  induction params with
  | nil => simp [stripFrom, hletter, stripAnsi]
  | cons byte params ih =>
      rw [List.cons_append, stripFrom, if_pos rfl, h byte (by simp)]
      exact ih fun b hb => h b (List.mem_cons_of_mem byte hb)

/-- A complete sequence leaves nothing. -/
theorem strip_sequence {sequence : Bytes} (h : IsSequence sequence) (rest : Bytes) :
    stripAnsi (sequence ++ rest) = stripAnsi rest := by
  obtain ⟨params, letter, rfl, hparams, hletter⟩ := h
  have hskip := @strip_from_params (bracket :: params) (by simpa using ⟨by decide, hparams⟩) letter
    hletter rest
  simpa [stripAnsi, stripFrom] using hskip

theorem strip_sequences {sequences : List Bytes} (h : ∀ sequence ∈ sequences, IsSequence sequence)
    (rest : Bytes) : stripAnsi (sequences.flatten ++ rest) = stripAnsi rest := by
  induction sequences with
  | nil => rfl
  | cons sequence sequences ih =>
      rw [List.flatten_cons, List.append_assoc, strip_sequence (h sequence (by simp)),
        ih fun s hs => h s (List.mem_cons_of_mem sequence hs)]

/-- Nothing follows a sequence that would be open. -/
theorem inside_after_sequences {sequences : List Bytes}
    (h : ∀ sequence ∈ sequences, IsSequence sequence) (rest : Bytes) :
    insideAfter false (sequences.flatten ++ rest) = insideAfter false rest := by
  have hparams : ∀ (params : Bytes) (letter : Byte) (rest : Bytes),
      (∀ byte ∈ params, isLetter byte = false) → isLetter letter = true →
        insideAfter true (params ++ letter :: rest) = insideAfter false rest := by
    intro params letter rest hparams hletter
    induction params with
    | nil => simp [insideAfter, hletter]
    | cons byte params ih =>
        rw [List.cons_append, insideAfter, if_pos rfl, hparams byte (by simp)]
        exact ih fun b hb => hparams b (List.mem_cons_of_mem byte hb)
  induction sequences with
  | nil => rfl
  | cons sequence sequences ih =>
      obtain ⟨params, letter, rfl, hplain, hletter⟩ := h sequence (by simp)
      rw [List.flatten_cons, ← ih fun s hs => h s (List.mem_cons_of_mem _ hs)]
      have hskip := hparams (bracket :: params) letter (sequences.flatten ++ rest)
        (by simpa using ⟨by decide, hplain⟩) hletter
      simpa [insideAfter] using hskip

/-! ## Texts without sequences -/

/-- A text in which no escape stands before a bracket is left as it is. -/
theorem strip_eq_self {text : Bytes} (h : ¬ [escape, bracket] <:+: text) :
    stripAnsi text = text := by
  induction text with
  | nil => rfl
  | cons byte rest ih =>
      have hstarts : ¬ (byte = escape ∧ rest.head? = some bracket) := by
        rintro ⟨rfl, hhead⟩
        obtain ⟨after, rfl⟩ := List.head?_eq_some_iff.mp hhead
        exact h (List.prefix_append [escape, bracket] after).isInfix
      have hrest := ih fun hin => h (hin.trans (List.suffix_cons byte rest).isInfix)
      rw [strip_cons hstarts, hrest]

theorem strip_of_no_escape {text : Bytes} (h : escape ∉ text) : stripAnsi text = text :=
  strip_eq_self fun hin => h (hin.subset (by simp))

/-- The second text is the first with sequences put between its bytes. -/
inductive Coloured : Bytes → Bytes → Prop
  | nil : Coloured [] []
  | byte (b : Byte) {text coloured : Bytes} (h : Coloured text coloured) :
      Coloured (b :: text) (b :: coloured)
  | sequence {sequence text coloured : Bytes} (hsequence : IsSequence sequence)
      (h : Coloured text coloured) : Coloured text (sequence ++ coloured)

theorem Coloured.before {text coloured : Bytes} (h : Coloured text coloured) (plain : Bytes) :
    Coloured (plain ++ text) (plain ++ coloured) := by
  induction plain with
  | nil => exact h
  | cons b plain ih => exact .byte b ih

theorem Coloured.refl (text : Bytes) : Coloured text text := by
  simpa using Coloured.nil.before text

/-- Stripping takes the sequences out again. -/
theorem strip_coloured {text coloured : Bytes} (h : Coloured text coloured)
    (hescape : escape ∉ text) : stripAnsi coloured = text := by
  induction h with
  | nil => rfl
  | byte b _ ih =>
      obtain ⟨hb, htext⟩ := not_or.mp (mt List.mem_cons.mpr hescape)
      rw [strip_cons fun hstarts => hb hstarts.1.symm, ih htext]
  | sequence hsequence _ ih => rw [strip_sequence hsequence, ih hescape]

/-- Complete sequences, anywhere and in any number, change neither the events nor the findings. -/
theorem colours_change_nothing {text coloured : Bytes} (hescape : escape ∉ text)
    (h : Coloured text coloured) :
    stripAnsi coloured = text ∧
      (∀ events, collectEvents coloured events = collectEvents text events) ∧
      parseFindings (stripAnsi coloured) = parseFindings text := by
  have hstrip := strip_coloured h hescape
  refine ⟨hstrip, fun events => ?_, by rw [hstrip]⟩
  rw [collectEvents, hstrip, collectEvents, strip_of_no_escape hescape]

/-- A coloured word inside a heading. -/
theorem colours_change_nothing_word :
    escape ∉ lit "ct: leak ptr=0x1 size=16" ∧
      parseFindings (stripAnsi (lit "ct: \x1b[31mleak\x1b[m ptr=0x1 size=16")) =
        parseFindings (lit "ct: leak ptr=0x1 size=16") := by
  have hred : IsSequence (lit "\x1b[31m") :=
    ⟨[51, 49], 109, by decide, by simp [isLetter], by decide⟩
  have hreset : IsSequence (lit "\x1b[m") := ⟨[], 109, by decide, by simp, by decide⟩
  have hrest : Coloured (lit " ptr=0x1 size=16") (lit "\x1b[m" ++ lit " ptr=0x1 size=16") :=
    .sequence hreset (.refl _)
  have hword := Coloured.sequence hred (hrest.before (lit "leak"))
  exact ⟨by decide, (colours_change_nothing (by decide) (hword.before (lit "ct: "))).2.2⟩

/-! ## Lines -/

/-- Stripping a text strips each of its lines. -/
structure StripsByLine (text : Bytes) : Prop where
  lines : (stripAnsi text).splitOn newline = (text.splitOn newline).map stripAnsi
  newlines : (stripAnsi text).count newline = text.count newline

/-- A line, its newline and the rest, stripped. -/
theorem strip_line (line rest : Bytes) :
    stripAnsi (line ++ newline :: rest) =
      stripAnsi line ++ stripFrom (insideAfter false line) (newline :: rest) :=
  strip_from_append (fun _ => by simp [newline, bracket]) false

/-- A sequence that is open at the end of a line takes the newline. -/
theorem strip_open_line {line : Bytes} (rest : Bytes) (h : insideAfter false line = true) :
    stripAnsi (line ++ newline :: rest) = stripAnsi line ++ stripFrom true rest := by
  rw [strip_line, h, stripFrom, if_pos rfl]
  rfl

theorem strip_closed_line {line : Bytes} (rest : Bytes) (h : insideAfter false line = false) :
    stripAnsi (line ++ newline :: rest) = stripAnsi line ++ newline :: stripAnsi rest := by
  rw [strip_line, h, ← stripAnsi, strip_cons (by simp [newline, escape])]

theorem newline_not_mem_strip {line : Bytes} (h : newline ∉ line) : newline ∉ stripAnsi line :=
  fun hmem => h ((strip_from_sublist false line).subset hmem)

/-- Nothing makes up for the newline that an open sequence takes. -/
theorem not_strips_by_line {line : Bytes} (rest : Bytes) (hline : newline ∉ line)
    (h : insideAfter false line = true) : ¬ StripsByLine (line ++ newline :: rest) := by
  intro hstrips
  have hcount := hstrips.newlines
  have hle := (strip_from_sublist true rest).count_le newline
  rw [strip_open_line rest h, List.count_append, List.count_append, List.count_cons_self,
    List.count_eq_zero.mpr hline, List.count_eq_zero.mpr (newline_not_mem_strip hline)] at hcount
  omega

/-- Behind a line without an open sequence only the rest matters. -/
theorem strips_by_line_append {line : Bytes} (rest : Bytes) (hline : newline ∉ line)
    (h : insideAfter false line = false) :
    StripsByLine (line ++ newline :: rest) ↔ StripsByLine rest := by
  have hlines : (stripAnsi (line ++ newline :: rest)).splitOn newline =
        ((line ++ newline :: rest).splitOn newline).map stripAnsi ↔
      (stripAnsi rest).splitOn newline = (rest.splitOn newline).map stripAnsi := by
    rw [strip_closed_line rest h,
      List.splitOn_append_cons_self_of_not_mem (newline_not_mem_strip hline),
      List.splitOn_append_cons_self_of_not_mem hline, List.map_cons, List.cons_inj_right]
  have hnewlines : (stripAnsi (line ++ newline :: rest)).count newline =
        (line ++ newline :: rest).count newline ↔
      (stripAnsi rest).count newline = rest.count newline := by
    rw [strip_closed_line rest h, List.count_append, List.count_append, List.count_cons_self,
      List.count_cons_self, List.count_eq_zero.mpr hline,
      List.count_eq_zero.mpr (newline_not_mem_strip hline)]
    omega
  constructor
  · intro hstrips
    exact ⟨hlines.mp hstrips.lines, hnewlines.mp hstrips.newlines⟩
  · intro hstrips
    exact ⟨hlines.mpr hstrips.lines, hnewlines.mpr hstrips.newlines⟩

/-- A text is stripped line by line exactly when no line but the last has an unfinished
sequence. -/
theorem strips_by_line_iff (text : Bytes) :
    StripsByLine text ↔ ∀ line ∈ (text.splitOn newline).dropLast, ¬ Unfinished line := by
  induction text using @ListSplit.pieces_induction _ _ newline with
  | last piece hpiece =>
      have hstripped := newline_not_mem_strip hpiece
      refine iff_of_true ⟨?_, ?_⟩ ?_
      · rw [List.splitOn_eq_singleton hpiece, List.splitOn_eq_singleton hstripped,
          List.map_singleton]
      · rw [List.count_eq_zero.mpr hpiece, List.count_eq_zero.mpr hstripped]
      · simp [List.splitOn_eq_singleton hpiece]
  | more piece rest hpiece ih =>
      have hdrop : ((piece ++ newline :: rest).splitOn newline).dropLast =
          piece :: (rest.splitOn newline).dropLast := by
        rw [List.splitOn_append_cons_self_of_not_mem hpiece,
          List.dropLast_cons_of_ne_nil (List.splitOn_ne_nil _ _)]
      rw [hdrop, List.forall_mem_cons]
      cases hinside : insideAfter false piece with
      | true =>
          have hunfinished := (inside_after_iff.mp hinside).resolve_left (by simp)
          exact iff_of_false (not_strips_by_line rest hpiece hinside) fun h => h.1 hunfinished
      | false =>
          have hfinished := inside_after_eq_false_iff.mp hinside
          rw [strips_by_line_append rest hpiece hinside, ih]
          exact (and_iff_right hfinished).symm

/-- An event line behind an unfinished sequence is lost. -/
theorem unfinished_colour_swallows_line :
    ¬ StripsByLine (lit "\x1b[1;31\n[ENTRY-FUNCTION] main\n") ∧
      collectEvents (lit "\x1b[1;31\n[ENTRY-FUNCTION] main\n") [] = ({}, []) := by
  refine ⟨fun h => absurd h.newlines (by decide), by decide⟩

/-! ## What stripping leaves -/

/-- The first byte that is left stands behind complete sequences, or behind the open one and
those. -/
theorem strip_from_eq_cons {inSequence : Bool} {text out : Bytes} {byte : Byte}
    (h : stripFrom inSequence text = byte :: out) :
    ∃ (opened : Bytes) (sequences : List Bytes) (rest : Bytes),
      text = opened ++ (sequences.flatten ++ byte :: rest) ∧
      (∀ sequence ∈ sequences, IsSequence sequence) ∧ out = stripAnsi rest ∧
      ¬ (byte = escape ∧ rest.head? = some bracket) ∧
      if inSequence then
        ∃ params letter, opened = params ++ [letter] ∧ (∀ b ∈ params, isLetter b = false) ∧
          isLetter letter = true
      else opened = [] := by
  induction text generalizing inSequence with
  | nil => simp [stripFrom] at h
  | cons first text ih =>
      cases inSequence with
      | true =>
          rw [stripFrom, if_pos rfl] at h
          obtain ⟨opened, sequences, rest, rfl, hall, hout, hstart, hopened⟩ := ih h
          cases hletter : isLetter first with
          | true =>
              simp only [hletter, Bool.not_true, Bool.false_eq_true, if_false] at hopened
              subst hopened
              exact ⟨[first], sequences, rest, by simp, hall, hout, hstart, [], first, rfl,
                by simp, hletter⟩
          | false =>
              simp only [hletter, Bool.not_false, if_true] at hopened
              obtain ⟨params, letter, rfl, hparams, hlast⟩ := hopened
              exact ⟨first :: (params ++ [letter]), sequences, rest, by simp, hall, hout, hstart,
                first :: params, letter, rfl, by simpa using ⟨hletter, hparams⟩, hlast⟩
      | false =>
          rw [stripFrom, if_neg (by simp)] at h
          split at h
          · rename_i hstarts
            obtain ⟨opened, sequences, rest, rfl, hall, hout, hstart, hopened⟩ := ih h
            obtain ⟨params, letter, rfl, hparams, hlast⟩ := hopened
            -- The bracket is no letter, so it is the first of the parameters.
            obtain ⟨rfl, hhead⟩ := hstarts
            cases params with
            | nil =>
                rw [List.nil_append, List.singleton_append, List.head?_cons,
                  Option.some.injEq] at hhead
                rw [hhead] at hlast
                exact absurd hlast (by decide)
            | cons b params =>
                rw [List.cons_append, List.cons_append, List.head?_cons,
                  Option.some.injEq] at hhead
                subst hhead
                refine ⟨[], (escape :: bracket :: (params ++ [letter])) :: sequences, rest,
                  by simp, ?_, hout, hstart, rfl⟩
                rw [List.forall_mem_cons]
                exact ⟨⟨params, letter, rfl, fun c hc => hparams c (by simp [hc]), hlast⟩, hall⟩
          · rename_i hstarts
            obtain ⟨rfl, rfl⟩ := List.cons_eq_cons.mp h
            exact ⟨[], [], text, rfl, by simp, rfl, hstarts, rfl⟩

/-- The first byte that is left of a text. -/
theorem strip_eq_cons {text out : Bytes} {byte : Byte} (h : stripAnsi text = byte :: out) :
    ∃ (sequences : List Bytes) (rest : Bytes), text = sequences.flatten ++ byte :: rest ∧
      (∀ sequence ∈ sequences, IsSequence sequence) ∧ out = stripAnsi rest ∧
      ¬ (byte = escape ∧ rest.head? = some bracket) := by
  obtain ⟨opened, sequences, rest, rfl, hall, hout, hstart, hopened⟩ := strip_from_eq_cons h
  rw [if_neg (by simp)] at hopened
  subst hopened
  exact ⟨sequences, rest, rfl, hall, hout, hstart⟩

/-- An escape outside any sequence has complete sequences behind it and then a bracket. -/
def Rejoins (text : Bytes) : Prop :=
  ∃ (before : Bytes) (sequences : List Bytes) (after : Bytes),
    text = before ++ escape :: (sequences.flatten ++ bracket :: after) ∧
      ¬ Unfinished before ∧ sequences ≠ [] ∧ ∀ sequence ∈ sequences, IsSequence sequence

/-- A sequence starts with an escape. -/
theorem head_sequences {sequences : List Bytes} (hne : sequences ≠ [])
    (h : ∀ sequence ∈ sequences, IsSequence sequence) (rest : Bytes) :
    (sequences.flatten ++ rest).head? = some escape := by
  obtain ⟨sequence, more, rfl⟩ := List.exists_cons_of_ne_nil hne
  obtain ⟨params, letter, rfl, -⟩ := h sequence (by simp)
  rfl

/-- The escape and the bracket are left side by side. -/
theorem rejoined {text : Bytes} (h : Rejoins text) : [escape, bracket] <:+: stripAnsi text := by
  obtain ⟨before, sequences, after, rfl, hbefore, hne, hall⟩ := h
  have hhead := head_sequences hne hall (bracket :: after)
  have hcut : CutsApart before (escape :: (sequences.flatten ++ bracket :: after)) :=
    fun _ => by simp [escape, bracket]
  have hescape : stripAnsi (escape :: (sequences.flatten ++ bracket :: after)) =
      escape :: stripAnsi (sequences.flatten ++ bracket :: after) :=
    strip_cons (by simp [hhead, escape, bracket])
  have hbracket : stripAnsi (bracket :: after) = bracket :: stripAnsi after :=
    strip_cons (by simp [escape, bracket])
  rw [stripAnsi, strip_from_append hcut, inside_after_eq_false_iff.mpr hbefore, ← stripAnsi,
    ← stripAnsi, hescape, strip_sequences hall, hbracket]
  exact ⟨stripAnsi before, stripAnsi after, by simp⟩

/-- Only such an escape and bracket come to stand side by side. -/
theorem rejoins_of_inside {text : Bytes} (h : [escape, bracket] <:+: stripAnsi text) :
    Rejoins text := by
  induction hout : stripAnsi text generalizing text with
  | nil => simp [hout] at h
  | cons byte out ih =>
      obtain ⟨sequences, rest, rfl, hall, rfl, hstart⟩ := strip_eq_cons hout
      rw [hout] at h
      rcases List.infix_cons_iff.mp h with hpre | hin
      · obtain ⟨rfl, hnext⟩ := List.cons_prefix_cons.mp hpre
        obtain ⟨out, hrest⟩ := hnext
        have hbracket : stripAnsi rest = bracket :: out := hrest.symm
        obtain ⟨inner, after, rfl, hinner, -, -⟩ := strip_eq_cons hbracket
        refine ⟨sequences.flatten, inner, after, rfl, ?_, ?_, hinner⟩
        · rw [← inside_after_eq_false_iff, ← List.append_nil sequences.flatten,
            inside_after_sequences hall]
          rfl
        -- Without a sequence between them the two would start one.
        · rintro rfl
          exact hstart ⟨rfl, rfl⟩
      · obtain ⟨before, inner, after, rfl, hbefore, hne, hinner⟩ := ih hin rfl
        refine ⟨sequences.flatten ++ byte :: before, inner, after, by simp, ?_, hne, hinner⟩
        have hkeeps : ¬ (byte = escape ∧ before.head? = some bracket) := fun hstarts =>
          hstart ⟨hstarts.1, by
            obtain ⟨more, rfl⟩ := List.head?_eq_some_iff.mp hstarts.2
            rfl⟩
        rw [← inside_after_eq_false_iff, inside_after_sequences hall, insideAfter,
          if_neg (by simp), if_neg hkeeps, inside_after_eq_false_iff]
        exact hbefore

/-- There is nothing left to strip. -/
structure FullyStripped (text : Bytes) : Prop where
  no_start : ¬ [escape, bracket] <:+: stripAnsi text
  idempotent : stripAnsi (stripAnsi text) = stripAnsi text

/-- One pass leaves nothing to strip exactly when it joins no escape with a bracket. -/
theorem strip_leaves_nothing_iff (text : Bytes) : FullyStripped text ↔ ¬ Rejoins text := by
  constructor
  · exact fun h hrejoins => h.no_start (rejoined hrejoins)
  · intro h
    have hstart : ¬ [escape, bracket] <:+: stripAnsi text := fun hin => h (rejoins_of_inside hin)
    exact ⟨hstart, strip_eq_self hstart⟩

/-- The reset between an escape and a bracket goes, and the two make a sequence. -/
theorem reset_leaves_sequence :
    ¬ FullyStripped (lit "\x1b\x1b[m[31mred") ∧
      stripAnsi (lit "\x1b\x1b[m[31mred") = lit "\x1b[31mred" ∧
      stripAnsi (stripAnsi (lit "\x1b\x1b[m[31mred")) = lit "red" := by
  refine ⟨fun h => absurd h.idempotent (by decide), by decide, by decide⟩

end RuntimeAnalyzer
