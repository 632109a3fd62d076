import Splice.Closure.Loop
import Splice.Scope.Build

/-!
# Accepted composition steps

A composition step takes the supply as it finds it, and is refused or gives a result.
`Compose.Gives` says that it gives a result, and how it leaves the supply; of a sequence it says so
of each step. `Compose.result` forgets the supply and keeps the cause for which a step is refused.
A variable made for a loop is the only parameter of the next scope, so it is none that has been made
before.
-/

namespace Splice

namespace Supply

/-- The variable that a new scope would get for its only parameter. -/
def nextVar (s : Supply) (ty : Ty) : Var := ⟨s.nextScope, 0, true, ty⟩

/-- What is left when a scope has been opened. -/
def openScope (s : Supply) : Supply := { s with nextScope := s.nextScope + 1 }

/-- Variables of scopes that are opened one after the other differ. -/
theorem nextVar_openScope_ne (s : Supply) (ty ty' : Ty) :
    s.nextVar ty ≠ s.openScope.nextVar ty' := by
  intro h
  exact Nat.ne_of_lt (Nat.lt_succ_self s.nextScope) (congrArg Var.scope h)

end Supply

namespace Compose

/-- The step, taken with a supply, gives a result and leaves another supply. -/
def Gives (step : Compose α) (s : Supply) (a : α) (s' : Supply) : Prop :=
  step.run.run s = (.ok a, s')

/-- A result alone leaves the supply alone. -/
theorem gives_pure_iff {a b : α} {s s' : Supply} :
    Gives (pure a) s b s' ↔ b = a ∧ s' = s := by
  change ((.ok a : Except CompositionError α), s) = (.ok b, s') ↔ _
  rw [Prod.mk.injEq, Except.ok.injEq, eq_comm, @eq_comm _ s]

/-- What is thrown is no result. -/
theorem not_gives_throw {cause : CompositionError} {s s' : Supply} {a : α} :
    ¬ Gives (throw cause) s a s' := by
  intro h
  exact nomatch (Prod.mk.inj h).1

/-- A sequence is accepted when its first step is, and the rest with what that has given. -/
theorem gives_bind_iff {step : Compose α} {next : α → Compose β} {s s' : Supply} {b : β} :
    Gives (step >>= next) s b s' ↔
      ∃ a s₁, Gives step s a s₁ ∧ Gives (next a) s₁ b s' := by
  unfold Gives
  rw [ExceptT.run_bind, StateT.run_bind]
  -- the first step decides: with a result the rest is run, with a cause nothing is
  cases hstep : step.run.run s with
  | mk result s₁ =>
    cases result with
    | ok a =>
      constructor
      · exact fun h => ⟨a, s₁, rfl, h⟩
      · rintro ⟨a', s₁', h, hnext⟩
        obtain ⟨ha, rfl⟩ := Prod.mk.inj h
        obtain rfl := Except.ok.inj ha
        exact hnext
    | error cause =>
      constructor
      · intro h
        exact nomatch (Prod.mk.inj h).1
      · rintro ⟨a', s₁', h, -⟩
        exact nomatch (Prod.mk.inj h).1

/-- A step gives one result at most. -/
theorem Gives.unique {step : Compose α} {s s₁ s₂ : Supply} {a b : α} (ha : Gives step s a s₁)
    (hb : Gives step s b s₂) : a = b ∧ s₁ = s₂ := by
  obtain ⟨hresult, rfl⟩ := Prod.mk.inj (ha.symm.trans hb)
  exact ⟨Except.ok.inj hresult, rfl⟩

/-- A sequence goes on with what its first step gives. -/
theorem Gives.bind_iff {step : Compose α} {next : α → Compose β} {s s₁ s' : Supply} {a : α} {b : β}
    (ha : Gives step s a s₁) : Gives (step >>= next) s b s' ↔ Gives (next a) s₁ b s' := by
  rw [gives_bind_iff]
  constructor
  · rintro ⟨a', s₁', ha', hb⟩
    obtain ⟨rfl, rfl⟩ := ha.unique ha'
    exact hb
  · exact fun hb => ⟨a, s₁, ha, hb⟩

/-- Two steps that are taken one after the other. -/
theorem gives_pair_iff {first : Compose α} {second : Compose β} {s s' : Supply} {a : α} {b : β} :
    Gives (do return (← first, ← second)) s (a, b) s' ↔
      ∃ s₁, Gives first s a s₁ ∧ Gives second s₁ b s' := by
  simp only [gives_bind_iff, gives_pure_iff, Prod.mk.injEq]
  constructor
  · rintro ⟨_, s₁, ha, _, _, hb, ⟨rfl, rfl⟩, rfl⟩
    exact ⟨s₁, ha, hb⟩
  · rintro ⟨s₁, ha, hb⟩
    exact ⟨a, s₁, ha, b, s', hb, ⟨rfl, rfl⟩, rfl⟩

/-- A step that needs nothing from the supply leaves it alone. -/
theorem gives_lift_iff {e : Except CompositionError α} {s s' : Supply} {a : α} :
    Gives (liftM e) s a s' ↔ e = .ok a ∧ s' = s := by
  change (e, s) = (.ok a, s') ↔ _
  rw [Prod.mk.injEq, @eq_comm _ s]

/-- A step that needs nothing from the supply comes first. -/
theorem gives_lift_bind_iff {e : Except CompositionError α} {next : α → Compose β}
    {s s' : Supply} {a : α} {b : β} (he : e = .ok a) :
    Gives (liftM e >>= next) s b s' ↔ Gives (next a) s b s' :=
  (gives_lift_iff.2 ⟨he, rfl⟩).bind_iff

/-- A composition step is itself a step of the monad that it is taken in. -/
theorem within_eq (step : Compose α) : (within step : Compose α) = step := rfl

/-- Opening a scope gives the number that is next. -/
theorem gives_freshScope_iff {s s' : Supply} {id : Nat} :
    Gives freshScope s id s' ↔ id = s.nextScope ∧ s' = s.openScope := by
  change ((.ok s.nextScope : Except CompositionError Nat), s.openScope) = (.ok id, s') ↔ _
  rw [Prod.mk.injEq, Except.ok.injEq, eq_comm, @eq_comm _ s.openScope]

/-- A variable can be made of every type that has values. -/
theorem gives_fresh_iff {ty : Ty} {s s' : Supply} {v : Var} :
    Gives (Var.fresh ty) s v s' ↔ ty ≠ .void ∧ v = s.nextVar ty ∧ s' = s.openScope := by
  unfold Var.fresh
  simp only [gives_bind_iff, gives_freshScope_iff, gives_lift_iff, Var.param]
  constructor
  · rintro ⟨_, _, ⟨rfl, rfl⟩, hv, rfl⟩
    split at hv
    · exact nomatch hv
    · next hty => exact ⟨hty, (Except.ok.inj hv).symm, rfl⟩
  · rintro ⟨hty, rfl, rfl⟩
    exact ⟨_, _, ⟨rfl, rfl⟩, by rw [if_neg hty]; rfl, rfl⟩

/-! ## Results and causes -/

/-- What a step gives with a supply, or the cause for which it is refused. -/
def result (step : Compose α) (s : Supply) : Except CompositionError α := (step.run.run s).1

/-- A result is given if there is one to be kept. -/
theorem exists_gives_iff {step : Compose α} {s : Supply} {a : α} :
    (∃ s', Gives step s a s') ↔ step.result s = .ok a := by
  constructor
  · rintro ⟨s', h⟩
    exact congrArg Prod.fst h
  · exact fun h => ⟨(step.run.run s).2, Prod.ext h rfl⟩

/-- A sequence has the result of what comes behind its first step. -/
theorem Gives.result_bind {step : Compose α} {next : α → Compose β} {s s₁ : Supply} {a : α}
    (ha : Gives step s a s₁) : (step >>= next).result s = (next a).result s₁ := by
  unfold Gives at ha
  unfold result
  rw [ExceptT.run_bind, StateT.run_bind, ha]
  rfl

/-- A step that needs nothing from the supply is refused for its own cause. -/
theorem result_lift_bind (e : Except CompositionError α) (next : α → Compose β) (s : Supply) :
    (liftM e >>= next : Compose β).result s = e >>= fun a => (next a).result s := by
  cases e with
  | ok a => rfl
  | error cause => rfl

/-- A step that needs nothing from the supply has its own result. -/
theorem result_lift (e : Except CompositionError α) (s : Supply) :
    (liftM e : Compose α).result s = e := rfl

/-- A refused step refuses every sequence that begins with it. -/
theorem result_bind_of_error {step : Compose α} {next : α → Compose β} {s : Supply}
    {cause : CompositionError} (h : step.result s = .error cause) :
    (step >>= next).result s = .error cause := by
  unfold result at h ⊢
  rw [ExceptT.run_bind, StateT.run_bind]
  cases hstep : step.run.run s with
  | mk r s₁ =>
    rw [hstep] at h
    obtain rfl : r = .error cause := h
    rfl

/-- Lines of the log make no difference to the result, unless the rest reads the log. -/
theorem result_note_bind (line : String) (next : Unit → Compose β) (s : Supply) :
    (note line >>= next).result s = (next ()).result { s with log := s.log.push line } := rfl

/-! ## Steps that open no scope -/

/-- A step opens no scope, whether it is refused or not. -/
def OpensNone (step : Compose α) : Prop := ∀ s, (step.run.run s).2.nextScope = s.nextScope

/-- A step that needs nothing from the supply opens nothing. -/
theorem OpensNone.lift (e : Except CompositionError α) : OpensNone (liftM e) := fun _ => rfl

/-- The log is no scope. -/
theorem OpensNone.note (line : String) : OpensNone (Compose.note line) := fun _ => rfl

/-- A sequence opens nothing if none of its steps does. -/
theorem OpensNone.bind {step : Compose α} {next : α → Compose β} (h : OpensNone step)
    (hnext : ∀ a, OpensNone (next a)) : OpensNone (step >>= next) := by
  intro s
  have hs := h s
  rw [ExceptT.run_bind, StateT.run_bind]
  cases hstep : step.run.run s with
  | mk r s₁ =>
    rw [hstep] at hs
    cases r with
    | ok a => exact (hnext a s₁).trans hs
    | error cause => exact hs

/-- A step that needs nothing from the supply comes first. -/
theorem OpensNone.lift_bind {e : Except CompositionError α} {next : α → Compose β}
    (hnext : ∀ a, OpensNone (next a)) : OpensNone (liftM e >>= next) :=
  (OpensNone.lift e).bind hnext

/-- A line of the log comes first. -/
theorem OpensNone.note_bind {line : String} {next : Unit → Compose β}
    (hnext : OpensNone (next ())) :
    OpensNone (Compose.note line >>= next) :=
  (OpensNone.note line).bind fun _ => hnext

/-- The next scope is the same behind a step that opens none. -/
theorem OpensNone.nextScope_eq {step : Compose α} {s s' : Supply} {a : α} (h : OpensNone step)
    (ha : Gives step s a s') : s'.nextScope = s.nextScope := by
  have hs := h s
  rwa [show step.run.run s = (.ok a, s') from ha] at hs

end Compose

namespace Scope

variable {b : Scope} {ret : Expr}

/-- Building looks at the supply, writes to the log, and opens no scope. -/
theorem opensNone_build {v : Var} : Compose.OpensNone (b.build v) := by
  unfold build
  refine Compose.OpensNone.bind (fun _ => rfl) fun s => ?_
  have hrest (message : String) : Compose.OpensNone (do
      let handle ← liftM (chain b.live v 0 b.inputs.length b.statements)
      Compose.note message
      return handle : Compose Handle) :=
    .lift_bind fun _ => .note_bind fun _ => rfl
  split
  · exact .note_bind (hrest _)
  · exact hrest _

/-- Building a function opens no scope, since the scope has been opened before. -/
theorem opensNone_buildFunction : Compose.OpensNone (b.buildFunction ret) :=
  .lift_bind fun _ => opensNone_build

/-- Building a block opens no scope, since the scope has been opened before. -/
theorem opensNone_buildBlock : Compose.OpensNone (b.buildBlock ret) :=
  .lift_bind fun _ => opensNone_build.bind fun _ => .lift _

end Scope

namespace Closure

open Compose (Gives)

/-- A loop has a state variable when its initial state has a value. -/
theorem gives_freshState_iff {init : Closure} {s s' : Supply} {v : Var} :
    Gives (freshState init) s v s' ↔
      init.ty ≠ .void ∧ v = s.nextVar init.ty ∧ s' = s.openScope := by
  unfold freshState
  simp only [Compose.gives_bind_iff, Compose.gives_lift_iff, Compose.gives_fresh_iff,
    require_eq_ok_iff]
  constructor
  · rintro ⟨_, _, ⟨hty, rfl⟩, -, rfl, rfl⟩
    exact ⟨hty, rfl, rfl⟩
  · rintro ⟨hty, rfl, rfl⟩
    exact ⟨(), s, ⟨hty, rfl⟩, hty, rfl, rfl⟩

/-- A piece of a loop is accepted as what it is composed of, with the variables of the loop in
front. -/
theorem gives_pieceOver_iff {locals : List Var} {piece : Compose Closure} {s s' : Supply}
    {d : Closure} : Gives (pieceOver locals piece) s d s' ↔
      ∃ c, Gives piece s c s' ∧ c.withLocals locals = .ok d := by
  change Gives (piece >>= fun c => liftM (c.withLocals locals)) s d s' ↔ _
  simp only [Compose.gives_bind_iff, Compose.gives_lift_iff]
  constructor
  · rintro ⟨c, _, hc, hd, rfl⟩
    exact ⟨c, hc, hd⟩
  · rintro ⟨c, hc, hd⟩
    exact ⟨c, s', hc, hd, rfl⟩

/-- A composition that ends with a combination of handles, wired to variables, gives the wired
handle if the combination is accepted, and nothing else. -/
theorem exists_gives_wired_iff {step : Compose Closure} {s : Supply}
    {combined : Except CompositionError Handle} {vars : List Var} {h : Handle} {d : Closure}
    {fits : Prop} (hresult : step.result s = do wire (← combined) vars)
    (hcombined : ∀ h', combined = .ok h' ↔ fits ∧ h' = h) (hd : wire h vars = .ok d)
    (c : Closure) : (∃ s', Gives step s c s') ↔ fits ∧ c = d := by
  rw [Compose.exists_gives_iff, hresult, bind_eq_ok_iff]
  constructor
  · rintro ⟨h', hh, hw⟩
    obtain ⟨hfits, rfl⟩ := (hcombined h').1 hh
    exact ⟨hfits, Except.ok.inj (hw.symm.trans hd)⟩
  · rintro ⟨hfits, rfl⟩
    exact ⟨h, (hcombined h).2 ⟨hfits, rfl⟩, hd⟩

end Closure

end Splice
