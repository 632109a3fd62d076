import Mathlib.Data.Int.Range
import Splice.Proofs.Exec.Turns

/-!
# Left folds

A loop over given things is a left fold: it steps a state with each of them in order. The ends of a
fold are told by recursion over the list, so the steps happen in its order, each in the world that
the one before has left, and the first step that fails is the last one: `Behaviour.fold_thrown_iff`.
`Exec.ends_countUp` says that a counted loop is a fold over the integers of its range.
-/

namespace Splice

/-! ## Ranges of indices -/

/-- The integers from one up to, and not with, another, in increasing order. -/
def indexRange (first stop : Int32) : List Int32 :=
  (Int.range first.toInt stop.toInt).map Int32.ofInt

/-- No integer between two others wraps around. -/
theorem toInt_ofInt_of_mem_range {first stop : Int32} {i : Int}
    (hi : i ∈ Int.range first.toInt stop.toInt) : (Int32.ofInt i).toInt = i := by
  obtain ⟨hge, hlt⟩ := Int.mem_range_iff.1 hi
  exact Int32.toInt_ofInt_of_le (first.le_toInt.trans hge) (hlt.trans stop.toInt_lt)

/-- The indices of a range, as integers without bound, are those from its start up to its end. -/
theorem map_toInt_indexRange (first stop : Int32) :
    (indexRange first stop).map Int32.toInt = Int.range first.toInt stop.toInt := by
  rw [indexRange, List.map_map]
  exact (List.map_congr_left fun i hi => toInt_ofInt_of_mem_range hi).trans (List.map_id _)

/-- A range has as many indices as its end is above its start. -/
theorem length_indexRange (first stop : Int32) :
    (indexRange first stop).length = (stop.toInt - first.toInt).toNat := by
  simp [indexRange, Int.range]

/-- The next index, where there is a greater one. -/
theorem toInt_add_one_of_lt {i stop : Int32} (h : i.toInt < stop.toInt) :
    (i + 1).toInt = i.toInt + 1 := by
  have hle := stop.toInt_lt
  have hge := i.le_toInt
  rw [Int32.toInt_add]
  change (i.toInt + 1).bmod (2 ^ 32) = i.toInt + 1
  apply Int.bmod_eq_of_le <;> omega

/-- Without room between start and end a range is empty. -/
theorem indexRange_of_le {first stop : Int32} (h : stop.toInt ≤ first.toInt) :
    indexRange first stop = [] := by
  rw [← List.length_eq_zero_iff, length_indexRange]
  omega

/-- A range of integers starts with its start. -/
theorem range_eq_cons {m n : Int} (h : m < n) : Int.range m n = m :: Int.range (m + 1) n := by
  have hlen : (n - m).toNat = (n - (m + 1)).toNat + 1 := by omega
  rw [Int.range, hlen, List.range_succ_eq_map, List.map_cons, List.map_map]
  refine congrArg₂ List.cons (Int.add_zero m) (List.map_congr_left fun k _ => ?_)
  simp only [Function.comp_apply, Nat.succ_eq_add_one]
  omega

/-- A range that is not empty starts with its first index. -/
theorem indexRange_of_lt {first stop : Int32} (h : first.toInt < stop.toInt) :
    indexRange first stop = first :: indexRange (first + 1) stop := by
  apply (List.map_inj_right (f := Int32.toInt) fun _ _ => Int32.toInt_inj.1).1
  rw [List.map_cons, map_toInt_indexRange, map_toInt_indexRange, toInt_add_one_of_lt h,
    range_eq_cons h]

/-- An index of a range stands behind those up to it and in front of those that follow. -/
theorem indexRange_eq_append_cons {first stop i : Int32} (hge : first.toInt ≤ i.toInt)
    (hlt : i.toInt < stop.toInt) :
    indexRange first stop = indexRange first i ++ i :: indexRange (i + 1) stop := by
  -- the induction is on how far the index is from the start
  obtain ⟨n, hn⟩ : ∃ n, n = (i.toInt - first.toInt).toNat := ⟨_, rfl⟩
  induction n generalizing first with
  | zero =>
    obtain rfl : first = i := Int32.toInt_inj.1 (by omega)
    rw [indexRange_of_le (Int.le_refl _), indexRange_of_lt hlt, List.nil_append]
  | succ n ih =>
    have hfirst : first.toInt < i.toInt := by omega
    have hnext := toInt_add_one_of_lt hfirst
    rw [indexRange_of_lt (hfirst.trans hlt), indexRange_of_lt hfirst, List.cons_append,
      ih (by omega) (by omega)]

/-- What a range starts with is its start, and there is room for it. -/
theorem indexRange_eq_cons {first stop i : Int32} {rest : List Int32}
    (h : indexRange first stop = i :: rest) :
    first.toInt < stop.toInt ∧ first = i ∧ indexRange (first + 1) stop = rest := by
  by_cases hlt : first.toInt < stop.toInt
  · rw [indexRange_of_lt hlt] at h
    exact ⟨hlt, List.cons.inj h⟩
  · rw [indexRange_of_le (by omega)] at h
    exact nomatch h

/-- In front of an index of a range stand only those up to it. -/
theorem eq_indexRange_of_append_cons {first stop i : Int32} {before after : List Int32}
    (h : indexRange first stop = before ++ i :: after) :
    first.toInt ≤ i.toInt ∧ i.toInt < stop.toInt ∧ before = indexRange first i := by
  induction before generalizing first with
  | nil =>
    obtain ⟨hlt, rfl, -⟩ := indexRange_eq_cons h
    exact ⟨Int.le_refl _, hlt, (indexRange_of_le (Int.le_refl _)).symm⟩
  | cons c before ih =>
    obtain ⟨hlt, rfl, hrest⟩ := indexRange_eq_cons h
    obtain ⟨hge, hi, rfl⟩ := ih hrest
    rw [toInt_add_one_of_lt hlt] at hge
    exact ⟨by omega, hi, (indexRange_of_lt (by omega)).symm⟩

/-! ## Folds -/

/-- The ends of a loop that steps a state with each element of a list, from left to right. -/
def Behaviour.fold (step : α → σ → Behaviour σ) : List α → σ → Behaviour σ
  | [], s => fun w o => o = .ok s w
  | a :: rest, s => (step a s).Then (fold step rest)

namespace Behaviour

variable {step : α → σ → Behaviour σ}

/-- A fold goes on behind the elements that have been stepped with. -/
theorem fold_append {before after : List α} {s s₁ : σ} {w w₁ : World} {o : Outcome σ}
    (hbefore : fold step before s w (.ok s₁ w₁)) (hafter : fold step after s₁ w₁ o) :
    fold step (before ++ after) s w o := by
  induction before generalizing s w with
  | nil =>
    obtain ⟨rfl, rfl⟩ := Outcome.ok.inj hbefore
    exact hafter
  | cons a before ih =>
    rcases hbefore with _ | ⟨ha, hbefore⟩
    exact .returns ha (ih hbefore)

/-- A fold fails exactly when the step with some element does, after the steps with all elements in
front of it. -/
theorem fold_thrown_iff {items : List α} {s : σ} {w w' : World} {e : Exception} :
    fold step items s w (.thrown e w') ↔ ∃ before a after s₁ w₁, items = before ++ a :: after ∧
      fold step before s w (.ok s₁ w₁) ∧ step a s₁ w₁ (.thrown e w') := by
  constructor
  · intro h
    induction items generalizing s w with
    | nil => exact nomatch h
    | cons a rest ih =>
      rcases h with hfails | ⟨ha, hrest⟩
      · exact ⟨[], a, rest, s, w, rfl, rfl, hfails⟩
      · obtain ⟨before, b, after, s₁, w₁, rfl, hbefore, hb⟩ := ih hrest
        exact ⟨a :: before, b, after, s₁, w₁, rfl, .returns ha hbefore, hb⟩
  · rintro ⟨before, a, after, s₁, w₁, rfl, hbefore, ha⟩
    exact fold_append hbefore (.fails ha)

/-- A fold is never left without an outcome. -/
theorem not_fold_unfinished {items : List α} {s : σ} {w : World} :
    ¬ fold step items s w .unfinished := by
  induction items generalizing s w with
  | nil => exact nofun
  | cons a rest ih =>
    rintro (_ | ⟨-, hrest⟩)
    exact ih hrest

/-- A fold ends if every step does that it comes to. -/
theorem exists_fold (hstep : ∀ a s w, ¬ step a s w .unfinished) {items : List α} {s : σ} {w : World}
    (h : ∀ before a after s₁ w₁, items = before ++ a :: after →
      fold step before s w (.ok s₁ w₁) → ∃ o, step a s₁ w₁ o) :
    ∃ o, fold step items s w o := by
  induction items generalizing s w with
  | nil => exact ⟨_, rfl⟩
  | cons a rest ih =>
    obtain ⟨o, ho⟩ := h [] a rest s w rfl rfl
    cases o with
    | ok s₁ w₁ =>
      obtain ⟨o, hrest⟩ := ih fun before b after s₂ w₂ hsplit hbefore =>
        h (a :: before) b after s₂ w₂ (by rw [hsplit]; rfl) (.returns ho hbefore)
      exact ⟨o, .returns ho hrest⟩
    | thrown e w₁ => exact ⟨_, .fails ho⟩
    | unfinished => exact absurd ho (hstep a s w)

end Behaviour

namespace Exec

variable {step : Nat → Int32 → σ → Exec σ}

theorem steady_countUp (hstep : ∀ i s, Steady (step · i s)) (count : Nat) (i : Int32) (s : σ) :
    Steady fun turns => countUp (step turns) count i s := by
  induction count generalizing i s with
  | zero => exact .const _
  | succ count ih => exact (hstep i s).bind fun s' => ih (i + 1) s'

/-- A counted loop is a fold over the indices of its range. -/
theorem ends_countUp (hstep : ∀ i s, Steady (step · i s)) (i stop : Int32) (s : σ) :
    Ends (fun turns => countUp (step turns) (stop.toInt - i.toInt).toNat i s) =
      Behaviour.fold (fun i s => Ends (step · i s)) (indexRange i stop) s := by
  -- with one turn fewer to go, the range starts one index later
  obtain ⟨count, hcount⟩ : ∃ count, count = (stop.toInt - i.toInt).toNat := ⟨_, rfl⟩
  rw [← hcount]
  induction count generalizing i s with
  | zero =>
    rw [indexRange_of_le (by omega)]
    funext w o
    exact propext ends_pure_iff
  | succ count ih =>
    have hlt : i.toInt < stop.toInt := by omega
    have hnext := toInt_add_one_of_lt hlt
    have hrest := fun s => ih (i + 1) s (by omega)
    rw [indexRange_of_lt hlt, Behaviour.fold, ← funext hrest]
    exact ends_bind (hstep i s) (steady_countUp hstep count (i + 1))

end Exec

end Splice
