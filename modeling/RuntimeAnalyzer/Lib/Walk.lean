import Mathlib.Data.List.Induction

/-!
# Walks in a tree

A list of steps leads from one place in a tree to another: a name goes down, `up` goes to the
parent, and the root is its own parent. `normalize` drops each name that is left at once.
`walk_normalize` says that the way left over leads to the same place, and `normal_normalize` that
it goes up before it goes down.
-/

namespace Walk

variable {α : Type*} [DecidableEq α] {up : α}

/-- Where a step leads. A place is the names on the way to it, the innermost first. -/
def step (up : α) (place : List α) (name : α) : List α :=
  if name = up then place.tail else name :: place

def walk (up : α) (place names : List α) : List α :=
  names.foldl (step up) place

/-- The way so far, its last step first, with a step more. -/
def keep (up : α) (rooted : Bool) (kept : List α) (name : α) : List α :=
  if name ≠ up then name :: kept
  else
    match kept with
    | [] => if rooted then [] else [up]
    | last :: before => if last = up then up :: kept else before

/-- The steps that are left; from the root, a step up leads nowhere. -/
def normalize (up : α) (rooted : Bool) (names : List α) : List α :=
  (names.foldl (keep up rooted) []).reverse

/-- A way that goes up, and not from the root, before it goes down. -/
def Normal (up : α) (rooted : Bool) (names : List α) : Prop :=
  ∃ count below, names = List.replicate count up ++ below ∧ up ∉ below ∧ (rooted = true → count = 0)

theorem walk_append (place first second : List α) :
    walk up place (first ++ second) = walk up (walk up place first) second :=
  List.foldl_append

/-- A step more of a normal way leaves a normal way. -/
theorem normal_keep {rooted : Bool} {kept : List α} (name : α)
    (h : Normal up rooted kept.reverse) : Normal up rooted (keep up rooted kept name).reverse := by
  obtain ⟨count, below, hkept, hbelow, hrooted⟩ := h
  unfold keep
  split
  · rename_i hname
    refine ⟨count, below ++ [name], ?_, ?_, hrooted⟩
    · rw [List.reverse_cons, hkept, List.append_assoc]
    · simpa [hbelow] using Ne.symm hname
  · cases kept with
    | nil =>
        cases rooted with
        | true => exact ⟨0, [], rfl, by simp, fun _ => rfl⟩
        | false => exact ⟨1, [], rfl, by simp, by simp⟩
    | cons last before =>
        rw [List.reverse_cons] at hkept
        dsimp only
        split
        · rename_i hlast
          subst hlast
          -- A step up comes last only in a way that goes up alone.
          cases below using List.reverseRecOn with
          | nil =>
              rw [List.append_nil] at hkept
              refine ⟨count + 1, [], ?_, by simp, fun hroot => ?_⟩
              · rw [List.reverse_cons, List.reverse_cons, hkept, List.append_nil,
                  List.replicate_succ']
              · have hlength := congrArg List.length hkept
                rw [hrooted hroot] at hlength
                simp at hlength
          | append_singleton below name =>
              rw [← List.append_assoc] at hkept
              have hname := (List.append_inj' hkept rfl).2
              simp_all
        · rename_i hlast
          cases below using List.reverseRecOn with
          | nil =>
              have hmem : last ∈ List.replicate count up := by
                rw [← List.append_nil (List.replicate count up), ← hkept]
                simp
              exact absurd (List.eq_of_mem_replicate hmem) hlast
          | append_singleton below name =>
              rw [← List.append_assoc] at hkept
              refine ⟨count, below, (List.append_inj' hkept rfl).1, ?_, hrooted⟩
              exact fun hmem => hbelow (List.mem_append_left _ hmem)

theorem normal_normalize (up : α) (rooted : Bool) (names : List α) :
    Normal up rooted (normalize up rooted names) := by
  have hfold : ∀ kept : List α, Normal up rooted kept.reverse →
      Normal up rooted (names.foldl (keep up rooted) kept).reverse := by
    induction names with
    | nil => exact fun _ h => h
    | cons name names ih => exact fun kept h => ih _ (normal_keep name h)
  exact hfold [] ⟨0, [], rfl, by simp, fun _ => rfl⟩

/-- A step more brings no other names. -/
theorem mem_keep {rooted : Bool} {kept : List α} {next name : α}
    (h : name ∈ keep up rooted kept next) : name ∈ kept ∨ name = next ∨ name = up := by
  unfold keep at h
  split at h
  · rcases List.mem_cons.mp h with rfl | hmem
    · exact .inr (.inl rfl)
    · exact .inl hmem
  · cases kept with
    | nil => cases rooted <;> simp_all
    | cons last before =>
        dsimp only at h
        split at h <;> simp_all

/-- Normalization brings no other names. -/
theorem mem_normalize {rooted : Bool} {names : List α} {name : α}
    (h : name ∈ normalize up rooted names) : name ∈ names ∨ name = up := by
  have hfold : ∀ kept : List α, name ∈ names.foldl (keep up rooted) kept →
      name ∈ kept ∨ name ∈ names ∨ name = up := by
    clear h
    induction names with
    | nil => exact fun kept hmem => .inl hmem
    | cons next names ih =>
        intro kept hmem
        rcases ih (keep up rooted kept next) hmem with hkept | hname
        · rcases mem_keep hkept with hmem | rfl | rfl <;> simp_all
        · exact .inr (hname.imp (List.mem_cons_of_mem next) id)
  simpa using hfold [] (List.mem_reverse.mp h)

/-- A step down is kept. -/
theorem normalize_concat {rooted : Bool} {name : α} (names : List α) (h : name ≠ up) :
    normalize up rooted (names ++ [name]) = normalize up rooted names ++ [name] := by
  simp [normalize, keep, h]

/-- A step more leads on from where the way so far leads. -/
theorem walk_keep {rooted : Bool} {place : List α} (hplace : rooted = true → place = [])
    (kept : List α) (name : α) :
    walk up place (keep up rooted kept name).reverse =
      step up (walk up place kept.reverse) name := by
  have hconcat : ∀ (before : List α) (last : α),
      walk up place (last :: before).reverse = step up (walk up place before.reverse) last := by
    intro before last
    rw [List.reverse_cons, walk_append]
    rfl
  unfold keep
  split
  · exact hconcat kept name
  · rename_i hname
    obtain rfl : name = up := not_ne_iff.mp hname
    cases kept with
    | nil =>
        cases rooted with
        | true => simp [hplace rfl, walk, step]
        | false => rfl
    | cons last before =>
        dsimp only
        split
        · exact hconcat (last :: before) name
        · rename_i hlast
          rw [hconcat before last]
          simp [step, hlast]

/-- The steps that are left lead to the same place: from the root, or from anywhere. -/
theorem walk_normalize {rooted : Bool} {place : List α} (hplace : rooted = true → place = [])
    (names : List α) : walk up place (normalize up rooted names) = walk up place names := by
  have hfold : ∀ kept : List α,
      walk up place (names.foldl (keep up rooted) kept).reverse =
        walk up (walk up place kept.reverse) names := by
    induction names with
    | nil => exact fun _ => rfl
    | cons name names ih =>
        intro kept
        rw [List.foldl_cons, ih, walk_keep hplace]
        rfl
  exact hfold []

end Walk
