import Splice.Scope.Run

/-!
# Growing scopes

Every scope that is grown from an empty one by declaring parameters and by adding statements is
well formed, provided that a statement reads no variable of the scope itself before it is live. So
by `exists_build` it can be built and means what its statements say.
-/

namespace Splice.Scope

/-- An empty scope is well formed. -/
theorem wellFormed_empty (id : Nat) (capturing : Bool) :
    WellFormed { id, capturing } where
  distinct := List.nodup_nil
  own := fun _ hst => absurd hst List.not_mem_nil
  fresh := fun _ hv => absurd hv List.not_mem_nil
  noVoid := fun _ hv => absurd hv List.not_mem_nil
  typed := fun _ hst => absurd hst List.not_mem_nil
  visible := trivial

/-- The live variables of a scope without statements are its inputs. -/
theorem live_of_statements_eq_nil {s : Scope} (h : s.statements = []) : s.live = s.inputs := by
  rw [live, h, List.map_nil, List.filter_nil, List.append_nil]

/-- The next variable of a scope is none of its live variables. -/
theorem WellFormed.next_notMem {s : Scope} (hs : s.WellFormed) {v : Var} (hscope : v.scope = s.id)
    (hordinal : v.ordinal = s.nextOrdinal) : v ∉ s.live := fun hv => by
  have hlt := hs.fresh v hv hscope
  omega

/-- A declared parameter is the next variable of the scope and its last input. -/
theorem addParam_eq_ok {s next : Scope} {ty : Ty} {v : Var} (ha : s.addParam ty = (.ok v, next)) :
    s.statements = [] ∧ ty ≠ .void ∧ v = ⟨s.id, s.nextOrdinal, true, ty⟩ ∧
      next = { s with nextOrdinal := s.nextOrdinal + 1, inputs := s.inputs ++ [v] } := by
  rw [Scope.addParam] at ha
  split at ha
  case isFalse => exact nomatch ha
  case isTrue hempty =>
    by_cases hty : ty = .void
    · simp only [Var.param, if_pos hty] at ha
      exact nomatch ha
    · simp only [Var.param, if_neg hty, Prod.mk.injEq, Except.ok.injEq] at ha
      obtain ⟨rfl, rfl⟩ := ha
      exact ⟨List.isEmpty_iff.1 hempty, hty, rfl, rfl⟩

/-- A refused parameter takes an ordinal at most. -/
theorem addParam_eq_error {s next : Scope} {ty : Ty} {cause : CompositionError}
    (ha : s.addParam ty = (.error cause, next)) :
    ∃ nextOrdinal, s.nextOrdinal ≤ nextOrdinal ∧ next = { s with nextOrdinal } := by
  rw [Scope.addParam] at ha
  split at ha
  case isFalse =>
    obtain ⟨-, rfl⟩ := Prod.mk.inj ha
    exact ⟨s.nextOrdinal, Nat.le_refl _, rfl⟩
  case isTrue hempty =>
    by_cases hty : ty = .void
    · simp only [Var.param, if_pos hty, Prod.mk.injEq] at ha
      obtain ⟨-, rfl⟩ := ha
      exact ⟨s.nextOrdinal + 1, Nat.le_succ _, rfl⟩
    · simp only [Var.param, if_neg hty] at ha
      exact nomatch ha

/-- A refused parameter leaves a scope well formed. -/
theorem WellFormed.refuseParam {s next : Scope} {ty : Ty} {cause : CompositionError}
    (hs : s.WellFormed) (ha : s.addParam ty = (.error cause, next)) : next.WellFormed := by
  obtain ⟨nextOrdinal, hle, rfl⟩ := addParam_eq_error ha
  refine ⟨hs.distinct, hs.own, fun v hv hid => ?_, hs.noVoid, hs.typed, hs.visible⟩
  have hlt := hs.fresh v hv hid
  show v.ordinal < nextOrdinal
  omega

/-- A declared parameter leaves a scope well formed. -/
theorem WellFormed.addParam {s next : Scope} {ty : Ty} {v : Var} (hs : s.WellFormed)
    (ha : s.addParam ty = (.ok v, next)) : next.WellFormed := by
  obtain ⟨hempty, hty, hv, rfl⟩ := addParam_eq_ok ha
  have hbefore : s.live = s.inputs := live_of_statements_eq_nil hempty
  have hlive : live { s with nextOrdinal := s.nextOrdinal + 1, inputs := s.inputs ++ [v] } =
      s.inputs ++ [v] := live_of_statements_eq_nil hempty
  have hnew : v ∉ s.live := hs.next_notMem (by rw [hv]) (by rw [hv])
  refine ⟨?_, hs.own, ?_, ?_, hs.typed, ?_⟩
  · rw [hlive, ← hbefore, List.nodup_append]
    refine ⟨hs.distinct, by simp, fun a ha b hb hab => ?_⟩
    rw [List.mem_singleton.1 hb] at hab
    exact hnew (hab ▸ ha)
  · rw [hlive, ← hbefore]
    intro w hw hid
    rcases List.mem_append.1 hw with hw | hw
    · exact Nat.lt_succ_of_lt (hs.fresh w hw hid)
    · rw [List.mem_singleton.1 hw, hv]
      exact Nat.lt_succ_self _
  · rw [hlive, ← hbefore]
    intro w hw
    rcases List.mem_append.1 hw with hw | hw
    · exact hs.noVoid w hw
    · rw [List.mem_singleton.1 hw, hv]
      exact hty
  · change Visible _ _ s.statements
    rw [hempty]
    trivial

/-- The number of values that a sequence of statements adds to the live ones. -/
def resultCount (statements : List Statement) : Nat :=
  ((statements.map Statement.var).filter (·.ty ≠ .void)).length

/-- A sequence with one more statement reads live variables only if the sequence does and the
statement reads variables that are live after it. -/
theorem visible_append {live : List Var} {statements : List Statement} {st : Statement}
    {width : Nat} (h : Visible live width statements)
    (hst : ∀ v ∈ st.closure.args, v ∈ live.take (width + resultCount statements)) :
    Visible live width (statements ++ [st]) := by
  -- a statement of the sequence moves its result from those to come to those that are live
  induction statements generalizing width with
  | nil => exact ⟨hst, trivial⟩
  | cons first rest ih =>
    refine ⟨h.1, ih h.2 ?_⟩
    intro v hv
    have hmem := hst v hv
    rw [resultCount, List.map_cons, List.filter_cons] at hmem
    rw [Statement.width, resultCount, Nat.add_assoc]
    split at hmem
    case isTrue hvalued =>
      rw [if_neg (by simpa using hvalued), Nat.add_comm 1]
      exact hmem
    case isFalse hvoid =>
      rw [if_pos (by simpa using hvoid), Nat.zero_add]
      exact hmem

/-- More inputs and more results leave visible what was visible. -/
theorem visible_mono {inputs results more after : List Var} {statements : List Statement}
    {count : Nat} (h : Visible (inputs ++ results) (inputs.length + count) statements) :
    Visible ((inputs ++ more) ++ (results ++ after)) ((inputs ++ more).length + count)
      statements := by
  -- `count` results are live, and the inputs in front of them only become more
  induction statements generalizing count with
  | nil => trivial
  | cons st rest ih =>
    obtain ⟨hargs, hrest⟩ := h
    refine ⟨fun v hv => ?_, ?_⟩
    · have hmem := hargs v hv
      rw [List.take_length_add_append, List.mem_append] at hmem
      rw [List.take_length_add_append, List.mem_append]
      rcases hmem with hmem | hmem
      · exact Or.inl (List.mem_append_left _ hmem)
      · refine Or.inr ?_
        rw [List.take_append]
        exact List.mem_append_left _ hmem
    · rw [Nat.add_assoc] at hrest ⊢
      exact ih hrest

/-- The variables of other scopes that a closure reads and that are no inputs yet. -/
def captured (s : Scope) (c : Closure) : List Var :=
  ((s.foreign c.args).filter (· ∉ s.inputs)).eraseDups

theorem mem_captured {s : Scope} {c : Closure} {v : Var} :
    v ∈ s.captured c ↔ v ∈ c.args ∧ v.scope ≠ s.id ∧ v ∉ s.inputs := by
  rw [captured, List.mem_eraseDups, List.mem_filter, foreign, List.mem_filter]
  simp [and_assoc]

/-- A block accepts every statement; a function accepts those that read its own variables only. -/
theorem exists_assignClosure_iff {s : Scope} {c : Closure} :
    (∃ v next, s.assignClosure c = .ok (v, next)) ↔ s.capturing = true ∨ s.foreign c.args = [] := by
  unfold Scope.assignClosure
  cases hcapturing : s.capturing <;> cases hforeign : s.foreign c.args <;> simp

/-- The scope with a statement at the end, and with what its closure captures among the inputs. -/
def extended (s : Scope) (c : Closure) (v : Var) : Scope :=
  { s with
    inputs := s.inputs ++ s.captured c
    statements := s.statements ++ [⟨v, c⟩]
    nextOrdinal := s.nextOrdinal + 1 }

/-- An accepted statement extends the scope, and is bound to the next variable. -/
theorem assignClosure_eq_ok {s next : Scope} {c : Closure} {v : Var}
    (ha : s.assignClosure c = .ok (v, next)) :
    v = ⟨s.id, s.nextOrdinal, false, c.ty⟩ ∧ next = s.extended c v := by
  rw [Scope.assignClosure] at ha
  split at ha
  case h_1 => exact nomatch ha
  case h_2 =>
    obtain ⟨rfl, rfl⟩ := Prod.mk.inj (Except.ok.inj ha)
    exact ⟨rfl, rfl⟩

section Extended

variable {s : Scope} {c : Closure} {v : Var}

/-- What is captured goes behind the inputs, and the result behind all results. -/
theorem live_extended : (s.extended c v).live =
    (s.inputs ++ s.captured c) ++
      ((s.statements.map Statement.var).filter (·.ty ≠ .void) ++ [v].filter (·.ty ≠ .void)) := by
  simp only [live, extended, List.map_append, List.filter_append, List.map_singleton]

theorem mem_live_extended {w : Var} (hw : w ∈ (s.extended c v).live) :
    w ∈ s.live ∨ w ∈ s.captured c ∨ w = v ∧ v.ty ≠ .void := by
  rw [live_extended] at hw
  simp only [List.mem_append] at hw
  rcases hw with (hw | hw) | hw | hw
  · exact Or.inl (List.mem_append_left _ hw)
  · exact Or.inr (Or.inl hw)
  · exact Or.inl (List.mem_append_right _ hw)
  · obtain ⟨hw, hty⟩ := List.mem_filter.1 hw
    obtain rfl := List.mem_singleton.1 hw
    exact Or.inr (Or.inr ⟨rfl, by simpa using hty⟩)

/-- Captured variables and the result are new to the scope, and differ since they belong to
different scopes. -/
theorem WellFormed.nodup_live_extended (hs : s.WellFormed) (hscope : v.scope = s.id)
    (hnew : v ∉ s.live) : (s.extended c v).live.Nodup := by
  have hperm : (s.extended c v).live.Perm
      (s.live ++ (s.captured c ++ [v].filter (·.ty ≠ .void))) := by
    rw [live_extended, live, List.append_assoc, List.append_assoc]
    exact List.Perm.append_left _ (List.perm_append_comm_assoc _ _ _)
  have hsingle : [v].Nodup := List.nodup_cons.2 ⟨List.not_mem_nil, List.nodup_nil⟩
  have hresult : ∀ w ∈ [v].filter (·.ty ≠ .void), w = v := fun w hw =>
    List.mem_singleton.1 (List.mem_filter.1 hw).1
  rw [hperm.nodup_iff, List.nodup_append, List.nodup_append]
  refine ⟨hs.distinct, ⟨nodup_eraseDups _, hsingle.filter _, ?_⟩, ?_⟩
  · intro a ha b hb hab
    rw [hresult b hb] at hab
    exact (mem_captured.1 ha).2.1 (hab ▸ hscope)
  · intro a ha b hb hab
    rcases List.mem_append.1 hb with hb | hb
    · obtain ⟨-, hother, hinput⟩ := mem_captured.1 hb
      rcases List.mem_append.1 ha with ha | ha
      · exact hinput (hab ▸ ha)
      · obtain ⟨st, hst, hsta⟩ := List.mem_map.1 (List.mem_filter.1 ha).1
        exact hother (hab ▸ hsta ▸ hs.own st hst)
    · rw [hresult b hb] at hab
      exact hnew (hab ▸ ha)

/-- Statements still see what they saw, and the new one sees the captured variables too. -/
theorem WellFormed.visible_extended (hs : s.WellFormed)
    (hown : ∀ w ∈ c.args, w.scope = s.id → w ∈ s.live) :
    Visible (s.extended c v).live (s.extended c v).inputs.length (s.extended c v).statements := by
  let results := (s.statements.map Statement.var).filter (·.ty ≠ .void)
  have hbefore : Visible (s.inputs ++ results) (s.inputs.length + 0) s.statements := hs.visible
  rw [live_extended]
  refine visible_append (visible_mono hbefore) fun w hw => ?_
  show w ∈ List.take ((s.inputs ++ s.captured c).length + results.length)
    ((s.inputs ++ s.captured c) ++ (results ++ _))
  rw [List.take_length_add_append, List.mem_append, List.take_left' rfl]
  by_cases hid : w.scope = s.id
  · rcases List.mem_append.1 (hown w hw hid) with hlw | hlw
    · exact Or.inl (List.mem_append_left _ hlw)
    · exact Or.inr hlw
  · refine Or.inl (List.mem_append.2 ?_)
    by_cases hinput : w ∈ s.inputs
    · exact Or.inl hinput
    · exact Or.inr (mem_captured.2 ⟨hw, hid, hinput⟩)

end Extended

/-- Adding a statement keeps a scope well formed if the closure reads, of the scope's own variables,
live ones only. -/
theorem WellFormed.assignClosure {s next : Scope} {c : Closure} {v : Var} (hs : s.WellFormed)
    (hown : ∀ w ∈ c.args, w.scope = s.id → w ∈ s.live)
    (ha : s.assignClosure c = .ok (v, next)) : next.WellFormed := by
  obtain ⟨hv, rfl⟩ := assignClosure_eq_ok ha
  have hscope : v.scope = s.id := by rw [hv]
  have hnew : v ∉ s.live := hs.next_notMem hscope (by rw [hv])
  refine ⟨hs.nodup_live_extended hscope hnew, ?_, ?_, ?_, ?_, hs.visible_extended hown⟩
  · intro st hst
    rcases List.mem_append.1 hst with hst | hst
    · exact hs.own st hst
    · rw [List.mem_singleton.1 hst]
      exact hscope
  · intro w hw hid
    rcases mem_live_extended hw with hw | hw | ⟨rfl, -⟩
    · exact Nat.lt_succ_of_lt (hs.fresh w hw hid)
    · exact absurd hid (mem_captured.1 hw).2.1
    · rw [hv]
      exact Nat.lt_succ_self _
  · intro w hw
    rcases mem_live_extended hw with hw | hw | ⟨rfl, hty⟩
    · exact hs.noVoid w hw
    · exact c.ty_ne_void_of_mem_args (mem_captured.1 hw).1
    · exact hty
  · intro st hst
    rcases List.mem_append.1 hst with hst | hst
    · exact hs.typed st hst
    · rw [List.mem_singleton.1 hst, hv]

end Splice.Scope
