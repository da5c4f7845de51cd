import Mathlib.Data.List.SplitBy

/-!
# Records in blocks of lines

A record that is written as a head line with detail lines below it. Where a line can be told to be a
detail, the lines of many records are cut into the blocks of each (`blocks_flatten`), so a reader of
one block is one of them all (`readAll_flatMap`).
-/

namespace Blocks

variable {Line Item View : Type*} {isDetail : Line → Bool}

/-- The lines, cut in front of each one that is no detail. -/
def blocks (isDetail : Line → Bool) (lines : List Line) : List (List Line) :=
  lines.splitBy fun _ next => isDetail next

/-- The records of the lines, if each block is one. -/
def readAll (isDetail : Line → Bool) (read : List Line → Option Item) (lines : List Line) :
    Option (List Item) :=
  (blocks isDetail lines).mapM read

/-- A head, and details below it. -/
inductive IsBlock (isDetail : Line → Bool) : List Line → Prop
  | intro (head : Line) (details : List Line) (hhead : isDetail head = false)
      (hdetails : ∀ detail ∈ details, isDetail detail = true) :
      IsBlock isDetail (head :: details)

/-- The details of a block follow each other. -/
theorem isChain_of_details {head : Line} {details : List Line}
    (h : ∀ detail ∈ details, isDetail detail = true) :
    (head :: details).IsChain fun _ next => isDetail next = true := by
  induction details generalizing head with
  | nil => simp
  | cons detail details ih =>
      rw [List.isChain_cons_cons]
      exact ⟨h detail (by simp), ih fun other hmem => h other (List.mem_cons_of_mem _ hmem)⟩

/-- Blocks are cut apart. -/
theorem blocks_flatten {parts : List (List Line)} (h : ∀ part ∈ parts, IsBlock isDetail part) :
    blocks isDetail parts.flatten = parts := by
  refine List.splitBy_flatten (fun hnil => ?_) (fun part hmem => ?_) ?_
  · cases h [] hnil
  · cases h part hmem with
    | intro head details hhead hdetails => exact isChain_of_details hdetails
  -- Each block starts with a head.
  · refine List.Pairwise.isChain (List.pairwise_of_forall_mem_list fun first hfirst second
      hsecond => ?_)
    cases h first hfirst
    cases h second hsecond with
    | intro head details hhead hdetails => exact ⟨by simp, by simp, hhead⟩

/-- The records are read one by one. -/
theorem readAll_flatMap {write : Item → List Line} {items : List Item}
    (hblock : ∀ item ∈ items, IsBlock isDetail (write item)) (read : List Line → Option View) :
    readAll isDetail read (items.flatMap write) = items.mapM fun item => read (write item) := by
  have hcut : blocks isDetail (items.flatMap write) = items.map write := by
    refine blocks_flatten fun part hmem => ?_
    obtain ⟨item, hitem, rfl⟩ := List.mem_map.mp hmem
    exact hblock item hitem
  rw [readAll, hcut, List.mapM_map]
  rfl

/-- A list is read as expected exactly when each of its items is. -/
theorem mapM_eq_some_iff {read : Item → Option View} {view : Item → View} {items : List Item} :
    items.mapM read = some (items.map view) ↔ ∀ item ∈ items, read item = some (view item) := by
  induction items with
  | nil => simp
  | cons item items ih =>
      rw [List.forall_mem_cons, ← ih, List.mapM_cons]
      cases read item with
      | none => simp
      | some value => cases items.mapM read <;> simp

end Blocks
