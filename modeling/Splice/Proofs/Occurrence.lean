import Splice.Closure.Eval
import Mathlib.Data.List.Induction

/-!
# First occurrences

Arguments that come together from several places are kept once each, in the order in which they
first occur. `FirstOccurrences` says what that means for a list and what is kept of it, and
`firstOccurrences_eraseDups` that dropping the repetitions of a list keeps this. There is one such
list only.
-/

namespace Splice

variable {α : Type} [BEq α] [LawfulBEq α]

/-- The members of a list, each once, in the order in which they first occur there. -/
structure FirstOccurrences (l kept : List α) : Prop where
  nodup : kept.Nodup
  mem_iff : ∀ a, a ∈ kept ↔ a ∈ l
  ordered : kept.Pairwise fun a b => l.idxOf a < l.idxOf b

/-- An element at the end is kept if it has not occurred before. -/
theorem eraseDups_append_singleton (l : List α) (a : α) :
    (l ++ [a]).eraseDups = if a ∈ l then l.eraseDups else l.eraseDups ++ [a] := by
  rw [List.eraseDups_append]
  by_cases ha : a ∈ l
  · simp [List.removeAll, ha]
  · simp [List.removeAll, ha, List.eraseDups_cons]

/-- Dropping repetitions keeps the order of first occurrences. -/
theorem pairwise_idxOf_eraseDups (l : List α) :
    l.eraseDups.Pairwise fun a b => l.idxOf a < l.idxOf b := by
  -- one more element at the end moves no first occurrence
  induction l using List.reverseRecOn with
  | nil => simp
  | append_singleton l a ih =>
    have hold : ∀ b ∈ l.eraseDups, (l ++ [a]).idxOf b = l.idxOf b := fun b hb => by
      rw [List.idxOf_append, if_pos (List.mem_eraseDups.1 hb)]
    have hfront : l.eraseDups.Pairwise fun b c => (l ++ [a]).idxOf b < (l ++ [a]).idxOf c := by
      refine ih.imp_of_mem fun hb hc hlt => ?_
      rwa [hold _ hb, hold _ hc]
    rw [eraseDups_append_singleton]
    by_cases ha : a ∈ l
    · rwa [if_pos ha]
    · rw [if_neg ha, List.pairwise_append]
      refine ⟨hfront, List.pairwise_singleton _ a, fun b hb c hc => ?_⟩
      rw [List.mem_singleton] at hc
      have hlt := List.idxOf_lt_length_of_mem (List.mem_eraseDups.1 hb)
      rw [hc, hold b hb, List.idxOf_append, if_neg ha, List.idxOf_cons_self]
      omega

theorem firstOccurrences_eraseDups (l : List α) : FirstOccurrences l l.eraseDups :=
  ⟨nodup_eraseDups l, fun _ => List.mem_eraseDups, pairwise_idxOf_eraseDups l⟩

/-- Repetitions may as well be dropped in front first. -/
theorem eraseDups_eraseDups_append (l m : List α) :
    (l.eraseDups ++ m).eraseDups = (l ++ m).eraseDups := by
  have hperm : l.eraseDups.eraseDups.Perm l.eraseDups :=
    (List.perm_ext_iff_of_nodup (nodup_eraseDups _) (nodup_eraseDups l)).2 fun _ =>
      List.mem_eraseDups
  have hself : l.eraseDups.eraseDups = l.eraseDups :=
    (eraseDups_sublist _).eq_of_length hperm.length_eq
  have hremoved : m.removeAll l.eraseDups = m.removeAll l := by
    simp [List.removeAll, List.mem_eraseDups]
  rw [List.eraseDups_append, List.eraseDups_append, hself, hremoved]

/-- Repetitions may as well be dropped behind first. -/
theorem eraseDups_append_eraseDups (l m : List α) :
    (l ++ m.eraseDups).eraseDups = (l ++ m).eraseDups := by
  induction m using List.reverseRecOn with
  | nil => rfl
  | append_singleton m a ih =>
    by_cases ha : a ∈ m
    · rw [eraseDups_append_singleton, if_pos ha, ih, ← List.append_assoc,
        eraseDups_append_singleton, if_pos (List.mem_append_right l ha)]
    · have hmem : a ∈ l ++ m.eraseDups ↔ a ∈ l ++ m := by simp [List.mem_eraseDups]
      simp only [eraseDups_append_singleton, if_neg ha, ← List.append_assoc, hmem, ih]

/-- Nothing else keeps the members of a list in the order of their first occurrences. -/
theorem FirstOccurrences.eq_eraseDups {l kept : List α} (h : FirstOccurrences l kept) :
    kept = l.eraseDups := by
  have hperm : kept.Perm l.eraseDups := by
    apply (List.perm_ext_iff_of_nodup h.nodup (nodup_eraseDups l)).2
    intro a
    rw [h.mem_iff, List.mem_eraseDups]
  refine hperm.eq_of_pairwise (fun a b _ _ hab hba => ?_) h.ordered (pairwise_idxOf_eraseDups l)
  omega

end Splice
