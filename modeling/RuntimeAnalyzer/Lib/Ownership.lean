import Mathlib.Data.List.Nodup
import Mathlib.Data.Set.Insert
import Mathlib.Order.BooleanAlgebra.Set

/-!
# Resources that are released once

A program makes calls on resources that it obtains as it goes, and some of the calls release the
resource they are made on. `Accounted` says of the calls so far that no resource was touched before
it was obtained or after it was released, and that those obtained and not released are just those
the program owns. The rules below are what the program may do next: obtain resources, make calls on
those it owns, and release some of those, each once.
-/

namespace Ownership

variable {ρ κ : Type*} {resource : κ → ρ} {releases : κ → Bool} {obtained owned : Set ρ}
  {calls : List κ}

/-- No call is made on a resource after one that releases it. -/
def Orderly (resource : κ → ρ) (releases : κ → Bool) (calls : List κ) : Prop :=
  calls.Pairwise fun first second => releases first = true → resource second ≠ resource first

/-- The calls treat the resources as their owner has to. -/
structure Accounted (resource : κ → ρ) (releases : κ → Bool) (obtained owned : Set ρ)
    (calls : List κ) : Prop where
  owns : ∀ r ∈ owned, r ∈ obtained
  touched : ∀ call ∈ calls, resource call ∈ obtained
  held : ∀ call ∈ calls, resource call ∈ owned → releases call = false
  spent : ∀ r ∈ obtained, r ∉ owned → ∃ call ∈ calls, resource call = r ∧ releases call = true
  orderly : Orderly resource releases calls

/-- A call that releases is made once at most. -/
theorem Orderly.count_le_one [BEq κ] [LawfulBEq κ] {call : κ}
    (h : Orderly resource releases calls) (hreleases : releases call = true) :
    calls.count call ≤ 1 := by
  by_contra hcount
  have htwice : [call, call].Sublist calls :=
    List.replicate_sublist_iff.mpr (show 2 ≤ calls.count call by omega)
  have hpair := List.Pairwise.sublist htwice h
  simp [hreleases] at hpair

namespace Accounted

/-- Nothing is obtained and nothing called. -/
theorem nil : Accounted resource releases ∅ ∅ [] :=
  ⟨fun _ hr => hr, by simp, by simp, fun _ hr => absurd hr (Set.notMem_empty _), .nil⟩

/-- Resources are obtained that were not before. -/
theorem obtain_fresh {fresh : Set ρ} (h : Accounted resource releases obtained owned calls)
    (hfresh : ∀ r ∈ fresh, r ∉ obtained) :
    Accounted resource releases (obtained ∪ fresh) (owned ∪ fresh) calls where
  owns r hr := hr.imp (h.owns r) id
  touched call hmem := .inl (h.touched call hmem)
  held call hmem howned := by
    rcases howned with howned | hnew
    · exact h.held call hmem howned
    · exact absurd (h.touched call hmem) (hfresh _ hnew)
  spent r hr hnot := by
    have hold : r ∈ obtained := hr.resolve_right fun hnew => hnot (.inr hnew)
    exact h.spent r hold fun howned => hnot (.inl howned)
  orderly := h.orderly

/-- Calls on resources that are owned, which stay so. -/
theorem use {uses : List κ} (h : Accounted resource releases obtained owned calls)
    (huses : ∀ call ∈ uses, resource call ∈ owned ∧ releases call = false) :
    Accounted resource releases obtained owned (calls ++ uses) where
  owns := h.owns
  touched call hmem := by
    rcases List.mem_append.mp hmem with hold | hnew
    · exact h.touched call hold
    · exact h.owns _ (huses call hnew).1
  held call hmem howned := by
    rcases List.mem_append.mp hmem with hold | hnew
    · exact h.held call hold howned
    · exact (huses call hnew).2
  spent r hr hnot := by
    obtain ⟨call, hmem, hcall⟩ := h.spent r hr hnot
    exact ⟨call, List.mem_append_left uses hmem, hcall⟩
  orderly := by
    refine List.pairwise_append.mpr ⟨h.orderly, ?_, fun first hfirst second hsecond hrel heq => ?_⟩
    · refine List.pairwise_of_forall_mem_list fun first hfirst second _ hrel => ?_
      rw [(huses first hfirst).2] at hrel
      cases hrel
    -- What was released is not owned any more.
    · rw [h.held first hfirst (heq ▸ (huses second hsecond).1)] at hrel
      cases hrel

/-- A resource that is owned is released. -/
theorem release_one {call : κ} (h : Accounted resource releases obtained owned calls)
    (howned : resource call ∈ owned) (hreleases : releases call = true) :
    Accounted resource releases obtained (owned \ {resource call}) (calls ++ [call]) where
  owns r hr := h.owns r hr.1
  touched other hmem := by
    rcases List.mem_append.mp hmem with hold | hnew
    · exact h.touched other hold
    · exact List.mem_singleton.mp hnew ▸ h.owns _ howned
  held other hmem hother := by
    rcases List.mem_append.mp hmem with hold | hnew
    · exact h.held other hold hother.1
    · exact absurd (congrArg resource (List.mem_singleton.mp hnew)) hother.2
  spent r hr hnot := by
    by_cases hsame : r = resource call
    · exact ⟨call, List.mem_append_right _ List.mem_cons_self, hsame.symm, hreleases⟩
    · obtain ⟨other, hmem, hother⟩ := h.spent r hr fun hr => hnot ⟨hr, hsame⟩
      exact ⟨other, List.mem_append_left _ hmem, hother⟩
  orderly := by
    refine List.pairwise_append.mpr ⟨h.orderly, List.pairwise_singleton _ _, ?_⟩
    intro first hfirst second hsecond hrel heq
    rw [List.mem_singleton.mp hsecond] at heq
    rw [h.held first hfirst (heq ▸ howned)] at hrel
    cases hrel

/-- Resources that are owned are released, each by one call. -/
theorem release {closes : List κ} (h : Accounted resource releases obtained owned calls)
    (hnodup : (closes.map resource).Nodup)
    (hcloses : ∀ call ∈ closes, resource call ∈ owned ∧ releases call = true) :
    Accounted resource releases obtained (owned \ {r | r ∈ closes.map resource})
      (calls ++ closes) := by
  induction closes generalizing owned calls with
  | nil => simpa using h
  | cons call closes ih =>
      obtain ⟨hnot, hrest⟩ := List.nodup_cons.mp hnodup
      have hfirst := hcloses call List.mem_cons_self
      have hnext := ih (h.release_one hfirst.1 hfirst.2) hrest fun other hmem => by
        have hother := hcloses other (List.mem_cons_of_mem call hmem)
        exact ⟨⟨hother.1, fun heq => hnot (heq ▸ List.mem_map_of_mem hmem)⟩, hother.2⟩
      have howned : (owned \ {resource call}) \ {r | r ∈ closes.map resource} =
          owned \ {r | r ∈ (call :: closes).map resource} := by
        ext r
        simp [and_assoc]
      rw [howned, List.append_assoc, List.singleton_append] at hnext
      exact hnext

/-- What was obtained and is not owned any more was released once. -/
theorem released_once [BEq κ] [LawfulBEq κ] {r : ρ}
    (h : Accounted resource releases obtained owned calls) (hr : r ∈ obtained) (hnot : r ∉ owned) :
    ∃ call, resource call = r ∧ releases call = true ∧ calls.count call = 1 := by
  obtain ⟨call, hmem, hresource, hreleases⟩ := h.spent r hr hnot
  have hpos := List.count_pos_iff.mpr hmem
  have hle := h.orderly.count_le_one hreleases
  exact ⟨call, hresource, hreleases, by omega⟩

end Accounted

end Ownership
