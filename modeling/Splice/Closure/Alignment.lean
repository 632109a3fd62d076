import Splice.Closure.Eval

/-!
# Aligned closures

`Unifier.align` accepts a closure exactly when the unifier has its arguments from the kept ones on.
An aligned closure runs like the closure itself: the kept values stay in front, and each other
argument has the value that the environment gives to its variable.
-/

namespace Splice.Unifier

/-- A variable has a place in a unifier exactly when it is one of its variables. -/
theorem position_of_mem {u : Unifier} {v : Var} (h : v ∈ u.vars) :
    ∃ i, u.position v = .ok i ∧ u.vars[i]? = some v := by
  unfold position
  cases hi : u.vars.idxOf? v with
  | none => exact absurd h (List.idxOf?_eq_none_iff.1 hi)
  | some i =>
    obtain ⟨hlt, hv, -⟩ := List.idxOf?_eq_some_iff.1 hi
    exact ⟨i, rfl, by rw [List.getElem?_eq_getElem hlt, hv]⟩

theorem mem_of_position_eq_ok {u : Unifier} {v : Var} {i : Nat} (h : u.position v = .ok i) :
    v ∈ u.vars := by
  unfold position at h
  split at h
  case h_1 j hj =>
    obtain ⟨hlt, hv, -⟩ := List.idxOf?_eq_some_iff.1 hj
    exact hv ▸ List.getElem_mem hlt
  case h_2 => exact nomatch h

/-- The places of a list of variables behind the kept arguments are found exactly when the unifier
has all of them. -/
theorem exists_places_iff {u : Unifier} (keep : Nat) {vars : List Var} :
    (∃ places, vars.mapM (fun v => return keep + (← u.position v)) =
      (.ok places : Except CompositionError (List Nat))) ↔ ∀ v ∈ vars, v ∈ u.vars := by
  induction vars with
  | nil => exact ⟨fun _ _ hv => absurd hv List.not_mem_nil, fun _ => ⟨[], rfl⟩⟩
  | cons v rest ih =>
    rw [List.forall_mem_cons, ← ih, List.mapM_cons]
    constructor
    · rintro ⟨places, hp⟩
      obtain ⟨place, hplace, hp⟩ := bind_eq_ok_iff.1 hp
      obtain ⟨others, hothers, -⟩ := bind_eq_ok_iff.1 hp
      obtain ⟨i, hi, -⟩ := bind_eq_ok_iff.1 hplace
      exact ⟨mem_of_position_eq_ok hi, others, hothers⟩
    · rintro ⟨hv, others, hothers⟩
      obtain ⟨i, hi, -⟩ := position_of_mem hv
      exact ⟨(keep + i) :: others, bind_eq_ok_iff.2 ⟨keep + i,
        bind_eq_ok_iff.2 ⟨i, hi, rfl⟩, bind_eq_ok_iff.2 ⟨others, hothers, rfl⟩⟩⟩

/-- What an assignment gives to variables is found, behind a front of the kept length, in the
places of the variables. -/
theorem getElem?_of_places {u : Unifier} {keep : Nat} {vars : List Var} {places : List Nat}
    (hp : vars.mapM (fun v => return keep + (← u.position v)) =
      (.ok places : Except CompositionError (List Nat)))
    (f : Var → α) {front : List α} (hfront : front.length = keep) :
    places.map ((front ++ u.vars.map f)[·]?) = (vars.map f).map some := by
  induction vars generalizing places with
  | nil =>
    obtain rfl := Except.ok.inj hp
    rfl
  | cons v rest ih =>
    rw [List.mapM_cons] at hp
    obtain ⟨place, hplace, hp⟩ := bind_eq_ok_iff.1 hp
    obtain ⟨others, hothers, hp⟩ := bind_eq_ok_iff.1 hp
    obtain ⟨i, hi, hplace⟩ := bind_eq_ok_iff.1 hplace
    obtain rfl := Except.ok.inj hp
    obtain rfl := Except.ok.inj hplace
    obtain ⟨j, hj, hv⟩ := position_of_mem (mem_of_position_eq_ok hi)
    obtain rfl : i = j := Except.ok.inj (hi.symm.trans hj)
    rw [List.map_cons, ih hothers, ← hfront, List.getElem?_append_right (Nat.le_add_right _ _)]
    simp [hv]

/-- A closure is aligned if it has enough arguments to keep and the unifier has all the others. It
then runs on the kept values and on the values of the other arguments. -/
theorem exists_align {u : Unifier} {keep : Nat} {c : Closure} (hvoid : ∀ v ∈ u.vars, v.ty ≠ .void)
    (hkeep : keep ≤ c.args.length) (hmem : ∀ v ∈ c.args.drop keep, v ∈ u.vars) :
    ∃ d, u.align keep c = .ok d ∧ d.args = c.args.take keep ++ u.vars ∧ d.ty = c.ty ∧
      ∀ turns env front, front.length = keep →
        d.handle.call turns (front ++ u.vars.map env) =
          c.handle.call turns (front ++ (c.args.drop keep).map env) := by
  obtain ⟨moved, hmoved⟩ := (exists_places_iff keep).2 hmem
  have hlen : (c.args.take keep).length = keep := List.length_take_of_le hkeep
  have hplaces : (List.range keep ++ moved).map ((c.args.take keep ++ u.vars)[·]?) =
      c.args.map some := by
    have hfront := map_getElem?_range (c.args.take keep) u.vars
    have hback := getElem?_of_places hmoved id hlen
    rw [hlen] at hfront
    rw [List.map_id, List.map_id] at hback
    rw [List.map_append, hfront, hback, ← List.map_append, List.take_append_drop]
  obtain ⟨h, d, hp, hw, hargs, hty, hcall⟩ := Closure.exists_rewire
    (c := c)
    (fun v hv => by
      rcases List.mem_append.1 hv with hv | hv
      · exact c.ty_ne_void_of_mem_args (List.mem_of_mem_take hv)
      · exact hvoid v hv) hplaces
  refine ⟨d, require_bind_eq_ok_iff.2 ⟨hkeep, bind_eq_ok_iff.2 ⟨moved, hmoved,
    bind_eq_ok_iff.2 ⟨h, hp, hw⟩⟩⟩, hargs, hty, fun turns env front hfront => ?_⟩
  have hkept := map_getElem?_range front (u.vars.map env)
  rw [hfront] at hkept
  rw [hcall turns _ (by simp [hfront, hkeep]), List.map_append,
    Closure.map_argument_of_places hkept,
    Closure.map_argument_of_places (getElem?_of_places hmoved env hfront)]

/-- What an alignment has checked, and the arguments that it gives. -/
theorem align_eq_ok {u : Unifier} {keep : Nat} {c d : Closure} (hd : u.align keep c = .ok d) :
    keep ≤ c.args.length ∧ (∀ v ∈ c.args.drop keep, v ∈ u.vars) ∧
      d.args = c.args.take keep ++ u.vars := by
  obtain ⟨hkeep, hd⟩ := require_bind_eq_ok_iff.1 hd
  obtain ⟨places, hplaces, hd⟩ := bind_eq_ok_iff.1 hd
  obtain ⟨h, -, hw⟩ := bind_eq_ok_iff.1 hd
  exact ⟨hkeep, (exists_places_iff keep).1 ⟨places, hplaces⟩, (Closure.wire_eq_ok_iff.1 hw).2⟩

/-- An alignment is accepted exactly when there are enough arguments to keep, the unifier has all
the others, and all of its variables have values. -/
theorem exists_align_iff {u : Unifier} {keep : Nat} {c : Closure} :
    (∃ d, u.align keep c = .ok d) ↔ keep ≤ c.args.length ∧
      (∀ v ∈ c.args.drop keep, v ∈ u.vars) ∧ ∀ v ∈ u.vars, v.ty ≠ .void := by
  constructor
  · rintro ⟨d, hd⟩
    obtain ⟨hkeep, hmem, hargs⟩ := align_eq_ok hd
    refine ⟨hkeep, hmem, fun v hv => d.ty_ne_void_of_mem_args ?_⟩
    rw [hargs]
    exact List.mem_append_right _ hv
  · rintro ⟨hkeep, hmem, hvoid⟩
    obtain ⟨d, hd, -⟩ := exists_align hvoid hkeep hmem
    exact ⟨d, hd⟩

end Splice.Unifier
