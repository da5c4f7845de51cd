import Mathlib.Data.List.Infix

/-!
# Splitting lists at a separator

What a substring search can find in a list that is split at single separators
(`List.splitOn`): a needle without a separator lies inside one piece, and a needle with separators
fixes the pieces between them. `lines` is the split of a text into lines, in which a final
separator ends the last line instead of opening an empty one.
-/

namespace ListSplit

variable {α : Type*} [DecidableEq α] {sep : α}

/-! ## Pieces -/

/-- A separator-free prefix of a list is a prefix of its first piece. -/
theorem prefix_head {needle l : List α} (hsep : sep ∉ needle) (h : needle <+: l) :
    needle <+: (l.splitOn sep).head (List.splitOn_ne_nil sep l) := by
  induction needle generalizing l with
  | nil => exact List.nil_prefix
  | cons a needle ih =>
      obtain ⟨after, rfl⟩ := h
      have ha : (a == sep) = false := by
        simpa using fun heq => hsep (by simp [heq])
      simp only [List.cons_append, List.splitOn_cons_eq_if_modifyHead, ha, Bool.false_eq_true,
        if_false, List.head_modifyHead, List.cons_prefix_cons, true_and]
      exact ih (fun hmem => hsep (by simp [hmem])) (List.prefix_append _ _)

/-- The first piece is what stands before the first separator. -/
theorem splitOn_head (l : List α) :
    (l.splitOn sep).head (List.splitOn_ne_nil sep l) = l.takeWhile (· ≠ sep) := by
  induction l with
  | nil => simp
  | cons a rest ih =>
      by_cases ha : a = sep
      · simp [List.splitOn_cons_eq_if_modifyHead, ha]
      · simp [List.splitOn_cons_eq_if_modifyHead, ha, List.head_modifyHead, ih]

/-- A separator-free infix of a list is an infix of one of its pieces. -/
theorem infix_piece {needle l : List α} (hsep : sep ∉ needle) (h : needle <:+: l) :
    ∃ piece ∈ l.splitOn sep, needle <:+: piece := by
  induction l with
  | nil => exact ⟨[], by simp, h⟩
  | cons a rest ih =>
      rcases List.infix_cons_iff.mp h with hpre | hin
      · exact ⟨_, List.head_mem (List.splitOn_ne_nil sep (a :: rest)),
          (prefix_head hsep hpre).isInfix⟩
      · obtain ⟨piece, hmem, hpiece⟩ := ih hin
        rw [List.splitOn_cons_eq_if_modifyHead]
        split
        · exact ⟨piece, by simp [hmem], hpiece⟩
        · obtain ⟨first, more, heq⟩ := List.exists_cons_of_ne_nil (List.splitOn_ne_nil sep rest)
          rw [heq] at hmem ⊢
          rcases List.mem_cons.mp hmem with rfl | hmem
          · exact ⟨a :: piece, by simp, hpiece.trans (List.suffix_cons a piece).isInfix⟩
          · exact ⟨piece, by simp [hmem], hpiece⟩

/-- A list is its last piece, or a piece up to a separator and the rest. -/
theorem pieces_induction {motive : List α → Prop} (last : ∀ piece, sep ∉ piece → motive piece)
    (more : ∀ piece rest, sep ∉ piece → motive rest → motive (piece ++ sep :: rest)) (l : List α) :
    motive l := by
  induction hlength : l.length using Nat.strong_induction_on generalizing l with
  | _ length ih =>
      by_cases hmem : sep ∈ l
      · obtain ⟨piece, rest, rfl, hpiece⟩ := List.eq_append_cons_of_mem hmem
        refine more piece rest hpiece (ih rest.length ?_ rest rfl)
        rw [← hlength, List.length_append, List.length_cons]
        omega
      · exact last l hmem

/-- A piece holds no separator, and stands between two of them or at an end of the list. -/
theorem mem_splitOn {piece l : List α} (h : piece ∈ l.splitOn sep) :
    sep ∉ piece ∧ ∃ before after, l = before ++ piece ++ after ∧
      (before = [] ∨ before.getLast? = some sep) ∧ (after = [] ∨ after.head? = some sep) := by
  induction l using @pieces_induction _ _ sep with
  | last whole hwhole =>
      rw [List.splitOn_eq_singleton hwhole, List.mem_singleton] at h
      subst h
      exact ⟨hwhole, [], [], by simp, .inl rfl, .inl rfl⟩
  | more first rest hfirst ih =>
      rw [List.splitOn_append_cons_self_of_not_mem hfirst] at h
      rcases List.mem_cons.mp h with rfl | h
      · exact ⟨hfirst, [], sep :: rest, by simp, .inl rfl, .inr rfl⟩
      · obtain ⟨hpiece, before, after, rfl, hbefore, hafter⟩ := ih h
        refine ⟨hpiece, first ++ sep :: before, after, by simp, .inr ?_, hafter⟩
        rcases hbefore with rfl | hbefore
        · simp
        · rw [List.getLast?_append_of_ne_nil _ (by simp), List.getLast?_cons, hbefore]
          rfl

/-- What stands between two separators of a needle is a piece, neither the first nor the last. -/
theorem mem_inner_pieces {before middle after l : List α} (hmiddle : sep ∉ middle)
    (h : before ++ sep :: middle ++ sep :: after <:+: l) :
    middle ∈ (l.splitOn sep).tail.dropLast := by
  obtain ⟨left, right, rfl⟩ := h
  have hsplit : (left ++ (before ++ sep :: middle ++ sep :: after) ++ right).splitOn sep =
      (left ++ before).splitOn sep ++ middle :: (after ++ right).splitOn sep := by
    rw [show left ++ (before ++ sep :: middle ++ sep :: after) ++ right =
      (left ++ before) ++ sep :: (middle ++ sep :: (after ++ right)) by simp,
      List.splitOn_append_cons_self, List.splitOn_append_cons_self_of_not_mem hmiddle]
  obtain ⟨first, more, hfirst⟩ :=
    List.exists_cons_of_ne_nil (List.splitOn_ne_nil sep (left ++ before))
  rw [hsplit, hfirst, List.cons_append, List.tail_cons,
    List.dropLast_append_of_ne_nil (by simp),
    List.dropLast_cons_of_ne_nil (List.splitOn_ne_nil sep (after ++ right))]
  simp

/-- What follows the last separator of a needle is a prefix of a piece that is not the first. -/
theorem prefix_later_piece {before after l : List α} (hafter : sep ∉ after)
    (h : before ++ sep :: after <:+: l) : ∃ piece ∈ (l.splitOn sep).tail, after <+: piece := by
  obtain ⟨left, right, rfl⟩ := h
  have hsplit : (left ++ (before ++ sep :: after) ++ right).splitOn sep =
      (left ++ before).splitOn sep ++ (after ++ right).splitOn sep := by
    rw [show left ++ (before ++ sep :: after) ++ right =
      (left ++ before) ++ sep :: (after ++ right) by simp, List.splitOn_append_cons_self]
  obtain ⟨first, more, hfirst⟩ :=
    List.exists_cons_of_ne_nil (List.splitOn_ne_nil sep (left ++ before))
  rw [hsplit, hfirst]
  exact ⟨_, by simp [List.head_mem], prefix_head hafter (List.prefix_append after right)⟩

/-- A separator-free infix does not reach over a separator. -/
theorem infix_append_sep_iff {needle l r : List α} (hsep : sep ∉ needle) :
    needle <:+: l ++ sep :: r ↔ needle <:+: l ∨ needle <:+: r := by
  constructor
  · intro h
    induction l with
    | nil =>
        rcases List.infix_cons_iff.mp h with hpre | hin
        · cases needle with
          | nil => exact .inl (List.nil_infix)
          | cons a needle =>
              exact absurd (List.cons_prefix_cons.mp hpre).1 fun heq => hsep (by simp [heq])
        · exact .inr hin
    | cons b l ih =>
        rcases List.infix_cons_iff.mp h with hpre | hin
        · have hhead := prefix_head hsep hpre
          rw [splitOn_head, show b :: l.append (sep :: r) = (b :: l) ++ sep :: r from rfl,
            List.takeWhile_append] at hhead
          refine .inl (hhead.isInfix.trans ?_)
          split
          · simp
          · exact (List.takeWhile_prefix _).isInfix
        · exact (ih hin).imp_left fun hl => hl.trans (List.suffix_cons b l).isInfix
  · intro h
    rcases h with h | h
    · exact h.trans (List.prefix_append _ _).isInfix
    · exact h.trans ((List.suffix_cons sep r).trans (List.suffix_append l _)).isInfix

/-! ## Lines -/

/-- The lines of a text: a separator ends a line, and a text that does not end in one has a last
line without it. -/
def lines (sep : α) : List α → List (List α)
  | [] => []
  | a :: rest =>
      if a = sep then [] :: lines sep rest
      else match lines sep rest with
        | [] => [[a]]
        | line :: more => (a :: line) :: more

@[simp] theorem lines_nil : lines sep [] = [] := rfl

/-- A separator-free list up to a separator is the first line. -/
theorem lines_append_sep {line : List α} (rest : List α) (h : sep ∉ line) :
    lines sep (line ++ sep :: rest) = line :: lines sep rest := by
  induction line with
  | nil => simp [lines]
  | cons a line ih =>
      have ha : a ≠ sep := fun heq => h (by simp [heq])
      simp [lines, ha, ih (fun hmem => h (by simp [hmem]))]

/-- A nonempty separator-free list is one line. -/
theorem lines_of_not_mem {line : List α} (hne : line ≠ []) (h : sep ∉ line) :
    lines sep line = [line] := by
  induction line with
  | nil => exact absurd rfl hne
  | cons a line ih =>
      have ha : a ≠ sep := fun heq => h (by simp [heq])
      cases line with
      | nil => simp [lines, ha]
      | cons b line =>
          have hrest := ih (by simp) (fun hmem => h (List.mem_cons_of_mem a hmem))
          rw [lines, if_neg ha, hrest]

/-- Only the empty text has no lines. -/
@[simp] theorem lines_eq_nil_iff {text : List α} : lines sep text = [] ↔ text = [] := by
  cases text with
  | nil => simp
  | cons a rest =>
      rw [lines]
      split
      · simp
      · split <;> simp

/-- A text that ends at a separator is split apart from what follows it. -/
theorem lines_append {text : List α} (rest : List α) (h : text = [] ∨ text.getLast? = some sep) :
    lines sep (text ++ rest) = lines sep text ++ lines sep rest := by
  induction text with
  | nil => rfl
  | cons a text ih =>
      have hlast : (a :: text).getLast? = some sep := h.resolve_left (by simp)
      by_cases ha : a = sep
      · have htext : text = [] ∨ text.getLast? = some sep := by
          cases text with
          | nil => exact .inl rfl
          | cons b text => exact .inr (by simpa using hlast)
        simp [lines, ha, ih htext]
      · -- The separator at the end is not this element, so the line goes on.
        have hne : text ≠ [] := by
          rintro rfl
          exact ha (by simpa using hlast)
        have htext : text.getLast? = some sep := by
          rwa [List.getLast?_cons_of_ne_nil hne] at hlast
        obtain ⟨line, more, hlines⟩ :=
          List.exists_cons_of_ne_nil (mt (@lines_eq_nil_iff _ _ sep text).mp hne)
        simp [lines, ha, ih (.inr htext), hlines]

/-- The first line is a prefix of the text. -/
theorem prefix_of_lines_eq_cons {text line : List α} {more : List (List α)}
    (h : lines sep text = line :: more) : line <+: text := by
  induction text generalizing line more with
  | nil => simp at h
  | cons a text ih =>
      rw [lines] at h
      split at h
      · cases h
        exact List.nil_prefix
      · split at h
        · rename_i hnil
          cases h
          rw [lines_eq_nil_iff.mp hnil]
        · rename_i first rest hlines
          cases h
          exact List.cons_prefix_cons.mpr ⟨rfl, ih hlines⟩

/-- Lines hold no separator. -/
theorem not_mem_of_mem_lines {text line : List α} (h : line ∈ lines sep text) : sep ∉ line := by
  induction text generalizing line with
  | nil => simp at h
  | cons a rest ih =>
      rw [lines] at h
      split at h
      · rcases List.mem_cons.mp h with rfl | h
        · simp
        · exact ih h
      · rename_i hne
        cases hrest : lines sep rest with
        | nil =>
            simp only [hrest, List.mem_singleton] at h
            simpa [h] using fun heq => hne heq.symm
        | cons first more =>
            simp only [hrest, List.mem_cons] at h
            rcases h with rfl | h
            · have := @ih first (by simp [hrest])
              simpa [this] using fun heq => hne heq.symm
            · exact ih (by simp [hrest, h])

/-- Splitting lines that each end in a separator gives the lines back. -/
theorem lines_flatMap {ls : List (List α)} (h : ∀ line ∈ ls, sep ∉ line) :
    lines sep (ls.flatMap (· ++ [sep])) = ls := by
  induction ls with
  | nil => rfl
  | cons line ls ih =>
      rw [List.flatMap_cons, List.append_assoc, List.singleton_append,
        lines_append_sep _ (h line (by simp)), ih (fun l hl => h l (by simp [hl]))]

/-- Splitting lines joined by separators gives the lines back, up to a last line that is empty. -/
theorem lines_intercalate {ls : List (List α)} (h : ∀ line ∈ ls, sep ∉ line) :
    lines sep ([sep].intercalate ls) = ls ∨
      ∃ init, ls = init ++ [[]] ∧ lines sep ([sep].intercalate ls) = init := by
  induction ls with
  | nil => exact .inl rfl
  | cons line ls ih =>
      have hline := h line (by simp)
      cases ls with
      -- A last line that is empty leaves nothing behind its separator.
      | nil =>
          by_cases hne : line = []
          · exact .inr ⟨[], by simp [hne], by simp [hne]⟩
          · exact .inl (by simpa using lines_of_not_mem hne hline)
      | cons next ls =>
          rw [List.intercalate_cons_cons, List.append_assoc, List.singleton_append,
            lines_append_sep _ hline]
          rcases ih (fun l hl => h l (List.mem_cons_of_mem line hl)) with heq | ⟨init, heq, hinit⟩
          · exact .inl (by rw [heq])
          · exact .inr ⟨line :: init, by rw [heq, List.cons_append], by rw [hinit]⟩

end ListSplit
