import RuntimeAnalyzer.Lib.Decimal
import RuntimeAnalyzer.Types

/-!
# Fields and sites of a report line

`field` reads a `key=value` field and `parseSite` a `file:line[:column]` site.
`field_eq_find_word` shows that the search of `field` over the occurrences of the key is a lookup
in the words of the line, the pieces between its spaces.
-/

namespace RuntimeAnalyzer

/-! ## Fields -/

/-- `line.find(key, start)` -/
def findFrom (line key : Bytes) (start : Nat) : Option Nat :=
  if start ≤ line.length then
    (ListSearch.find key (line.drop start)).map (start + ·)
  else none

/-- The loop of `Field` from position `start` on. A turn that does not return moves past the
occurrence it looked at, so a turn for each position of the line is enough. -/
def fieldLoop (line key : Bytes) : Nat → Nat → Option Bytes
  | 0, _ => none
  | turns + 1, start =>
      match findFrom line key start with
      | none => none
      | some pos =>
          let valueStart := pos + key.length
          if (pos = 0 ∨ (line)[pos - 1]? = some space) ∧ (line)[valueStart]? = some equals then
            some ((line.drop (valueStart + 1)).takeWhile (· ≠ space))
          else fieldLoop line key turns (pos + 1)

/-- The value of a `key=value` field, up to the next space. The key starts the line or follows a
space. -/
def field (line key : Bytes) : Option Bytes :=
  fieldLoop line key (line.length + 1) 0

/-! ## Sites -/

/-- `std::from_chars` into an `unsigned`: the number and how many characters it took. It fails
without a digit and on a number that does not fit in 32 bits. -/
def fromChars (text : Bytes) : Option (Nat × Nat) :=
  let digits := text.takeWhile Decimal.isDigit
  if digits = [] then none
  else if Decimal.value digits < UInt32.size then some (Decimal.value digits, digits.length)
  else none

/-- Takes a trailing `:<number>` off a site. The source leaves the site as it was where this
fails, and its callers do not read the number then. -/
def takeNumber (site : Bytes) : Option (Bytes × Nat) :=
  match ListSearch.rfind [colon] site with
  | none => none
  | some pos =>
      let text := site.drop (pos + 1)
      match fromChars text with
      | none => none
      | some (value, taken) =>
          if text = [] ∨ taken ≠ text.length then none else some (site.take pos, value)

/-- A runtime site, `file:line[:column]`, parsed from the right. -/
def parseSite (site : Bytes) : Option SourceLocation :=
  match takeNumber site with
  | none => none
  | some (rest, last) =>
      let location : SourceLocation :=
        match takeNumber rest with
        | some (file, line) => ⟨file, line, last⟩
        | none => ⟨rest, last, 0⟩
      if location.file = [] ∨ location.line = 0 then none else some location

/-! ## The words of a line -/

/-- The words of a line: the pieces between single spaces. -/
def words (line : Bytes) : List Bytes :=
  line.splitOn space

/-- The value of a word that is a field of the given key. -/
def fieldOfWord (key word : Bytes) : Option Bytes :=
  if key ++ [equals] <+: word then some (word.drop (key.length + 1)) else none

/-- `fieldLoop` as a walk over the positions of the line. `atWord` says that the position starts
a word. -/
def fieldWalk (key : Bytes) (atWord : Bool) : Bytes → Option Bytes
  | [] => none
  | byte :: rest =>
      if atWord ∧ key ++ [equals] <+: byte :: rest then
        some (((byte :: rest).drop (key.length + 1)).takeWhile (· ≠ space))
      else fieldWalk key (byte = space) rest

/-- Position `pos` starts a word. -/
def startsWord (line : Bytes) (pos : Nat) : Bool :=
  pos = 0 ∨ (line)[pos - 1]? = some space

/-- The walk skips positions at which the key does not occur. -/
theorem field_walk_skip {line key : Bytes} {start : Nat} (gap : Nat)
    (hle : start + gap ≤ line.length)
    (hskip : ∀ i < gap, ¬ key <+: line.drop (start + i)) :
    fieldWalk key (startsWord line start) (line.drop start) =
      fieldWalk key (startsWord line (start + gap)) (line.drop (start + gap)) := by
  induction gap generalizing start with
  | zero => rfl
  | succ gap ih =>
      have hlt : start < line.length := by omega
      have hno : ¬ key ++ [equals] <+: (line)[start] :: line.drop (start + 1) := by
        intro hpre
        rw [List.getElem_cons_drop] at hpre
        exact hskip 0 (by omega) ((List.prefix_append key [equals]).trans hpre)
      have hword : ((line)[start] = space : Bool) = startsWord line (start + 1) := by
        simp [startsWord, List.getElem?_eq_getElem hlt]
      have hrest := @ih (start + 1) (by omega) fun i hi => by
        rw [show start + 1 + i = start + (i + 1) by omega]
        exact hskip (i + 1) (by omega)
      rw [List.drop_eq_getElem_cons hlt, fieldWalk, if_neg fun h => hno h.2, hword, hrest,
        show start + 1 + gap = start + (gap + 1) by omega]

/-- A key followed by `=` at a position, as the loop and the walk test it. -/
theorem key_equals_prefix_iff {line key : Bytes} {pos : Nat} (hkey : key <+: line.drop pos) :
    key ++ [equals] <+: line.drop pos ↔ (line)[pos + key.length]? = some equals := by
  obtain ⟨after, hafter⟩ := hkey
  rw [← hafter, List.prefix_append_right_inj, ← List.getElem?_drop, ← hafter,
    List.getElem?_append_right (Nat.le_refl _), Nat.sub_self]
  cases after <;> simp [eq_comm]

/-- With a turn for each position left, the loop is the walk. -/
theorem field_loop_eq_walk {line key : Bytes} (hkey : key ≠ []) {turns start : Nat}
    (hturns : line.length < start + turns) (hstart : start ≤ line.length) :
    fieldLoop line key turns start =
      fieldWalk key (startsWord line start) (line.drop start) := by
  induction turns generalizing start with
  | zero => omega
  | succ turns ih =>
      rw [fieldLoop, findFrom, if_pos hstart]
      -- The walk passes over every position before the next occurrence of the key.
      cases hfind : ListSearch.find key (line.drop start) with
      | none =>
          have hno : ∀ i < line.length - start, ¬ key <+: line.drop (start + i) := by
            intro i hi hpre
            refine ListSearch.find_eq_none_iff.mp hfind (hpre.isInfix.trans ?_)
            rw [← List.drop_drop]
            exact (List.drop_suffix i _).isInfix
          rw [field_walk_skip (line.length - start) (by omega) hno,
            List.drop_eq_nil_of_le (by omega)]
          rfl
      | some gap =>
          obtain ⟨-, hpre, hleast⟩ := ListSearch.find_eq_some_iff.mp hfind
          rw [List.drop_drop] at hpre
          have hlt : start + gap < line.length := by
            have hpos := List.length_pos_of_ne_nil hkey
            have hlength := ListSearch.find_add_length_le hfind
            rw [List.length_drop] at hlength
            omega
          have hword : ((line)[start + gap] = space : Bool) =
              startsWord line (start + gap + 1) := by
            simp [startsWord, List.getElem?_eq_getElem hlt]
          have hsame : (startsWord line (start + gap) = true ∧
                key ++ [equals] <+: line.drop (start + gap)) ↔
              ((start + gap = 0 ∨ (line)[start + gap - 1]? = some space) ∧
                (line)[start + gap + key.length]? = some equals) := by
            rw [key_equals_prefix_iff hpre, startsWord, decide_eq_true_iff]
          rw [field_walk_skip gap (by omega) fun i hi hpre =>
            hleast i hi (by rwa [List.drop_drop])]
          simp only [Option.map_some]
          -- A hit ends both; a miss sends both on from the next position.
          by_cases hhit : (start + gap = 0 ∨ (line)[start + gap - 1]? = some space) ∧
              (line)[start + gap + key.length]? = some equals
          · rw [if_pos hhit, List.drop_eq_getElem_cons hlt, fieldWalk,
              ← List.drop_eq_getElem_cons hlt, if_pos (hsame.mpr hhit), List.drop_drop]
            congr 3
          · rw [if_neg hhit, ih (by omega) (by omega), List.drop_eq_getElem_cons hlt, fieldWalk,
              ← List.drop_eq_getElem_cons hlt, if_neg (hsame.not.mpr hhit), hword]

/-- The walk looks the key up in the words of the line. Inside a word, its first piece is the rest
of that word, which is not looked at. -/
theorem field_walk_eq_find_word {key line : Bytes} (hkey : space ∉ key) (atWord : Bool) :
    fieldWalk key atWord line =
      (if atWord then words line else (words line).tail).findSome? (fieldOfWord key) := by
  induction line generalizing atWord with
  | nil => cases atWord <;> simp [fieldWalk, words, fieldOfWord]
  | cons byte rest ih =>
      obtain ⟨first, more, hrest⟩ :=
        List.exists_cons_of_ne_nil (List.splitOn_ne_nil space rest)
      -- A space ends a word, and a key holds none.
      by_cases hspace : byte = space
      · subst hspace
        have hno : ¬ key ++ [equals] <+: space :: rest := by
          intro hpre
          cases key with
          | nil => simp [equals, space] at hpre
          | cons k key =>
              rw [List.cons_append, List.cons_prefix_cons] at hpre
              exact hkey (by simp [hpre.1])
        have hwords : words (space :: rest) = [] :: words rest := by
          simp [words, List.splitOn_cons_eq_if_modifyHead]
        rw [fieldWalk, if_neg fun h => hno h.2, ih, hwords]
        cases atWord <;> simp [fieldOfWord]
      · have hwords : words (byte :: rest) = (byte :: first) :: more := by
          simp [words, List.splitOn_cons_eq_if_modifyHead, hspace, hrest]
        have hfirst : byte :: first = (byte :: rest).takeWhile (· ≠ space) := by
          rw [← ListSplit.splitOn_head]
          simp [show (byte :: rest).splitOn space = _ from hwords]
        have hpre_iff : key ++ [equals] <+: byte :: rest ↔ key ++ [equals] <+: byte :: first := by
          constructor
          · intro hpre
            have hsep : space ∉ key ++ [equals] := by simpa [space, equals] using hkey
            have hhead := ListSplit.prefix_head hsep hpre
            rwa [ListSplit.splitOn_head, ← hfirst] at hhead
          · intro hpre
            exact (hfirst ▸ hpre).trans (List.takeWhile_prefix _)
        rw [fieldWalk, ih, hwords, show words rest = first :: more from hrest]
        by_cases hhit : key ++ [equals] <+: byte :: rest
        · have hvalue : ((byte :: rest).drop (key.length + 1)).takeWhile (· ≠ space) =
              (byte :: first).drop (key.length + 1) := by
            obtain ⟨after, hafter⟩ := hhit
            have hall : ∀ b ∈ key ++ [equals], (b ≠ space : Bool) = true := by
              intro b hb
              simpa using fun heq : b = space => hkey (by simpa [heq, space, equals] using hb)
            rw [hfirst, ← hafter, List.takeWhile_append_of_pos hall,
              show key.length + 1 = (key ++ [equals]).length by simp, List.drop_left,
              List.drop_left]
          cases atWord with
          | false => simp [hspace]
          | true =>
              rw [if_pos ⟨rfl, hhit⟩, hvalue]
              simp [fieldOfWord, hpre_iff.mp hhit]
        · have hnot := hpre_iff.not.mp hhit
          cases atWord <;> simp [hhit, hnot, hspace, fieldOfWord]

/-- `field` is a lookup of the key in the words of the line. -/
theorem field_eq_find_word {line key : Bytes} (hne : key ≠ []) (hspace : space ∉ key) :
    field line key = (words line).findSome? (fieldOfWord key) := by
  rw [field, field_loop_eq_walk hne (by omega) (Nat.zero_le _), List.drop_zero,
    field_walk_eq_find_word hspace]
  simp [startsWord]

end RuntimeAnalyzer
