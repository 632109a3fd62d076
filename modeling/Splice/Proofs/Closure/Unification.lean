import Splice.Closure.Alignment
import Splice.Proofs.Occurrence
import Splice.Scope.Basic
import Splice.Stock

/-!
# Unified closures mean the same

The pieces of a branch, a loop or a recovery are aligned by one unifier before they are combined.
The main statement is about any sources and any piece: the unifier has the variables of the sources
in the order of first occurrence, an alignment is refused only for an argument that is missing or
for a variable without a value among those of the unifier, and an aligned piece does with the kept
values and the values of the unifier's variables what the piece itself does with the kept values and
the values of its other arguments. Pieces that keep the same arguments come out with the same
parameters, and with the same signature if their results are of one type.
-/

namespace Splice

/-- A closure does what another one does, with some of its arguments in front and given variables
behind them. -/
structure Closure.AlignedTo (d c : Closure) (keep : Nat) (vars : List Var) : Prop where
  args_eq : d.args = c.args.take keep ++ vars
  ty_eq : d.ty = c.ty
  /-- The kept values are any values, whatever the environment gives to the kept arguments. -/
  call_eq : ∀ turns (env : Env) front, front.length = keep →
    d.handle.call turns (front ++ vars.map env) =
      c.handle.call turns (front ++ (c.args.drop keep).map env)

namespace Unifier

theorem alignedTo_of_align {u : Unifier} {keep : Nat} {c d : Closure}
    (hd : u.align keep c = .ok d) : d.AlignedTo c keep u.vars := by
  obtain ⟨hkeep, hmem, hvoid⟩ := exists_align_iff.1 ⟨d, hd⟩
  obtain ⟨d', hd', hargs, hty, hcall⟩ := exists_align hvoid hkeep hmem
  obtain rfl : d = d' := Except.ok.inj (hd.symm.trans hd')
  exact ⟨hargs, hty, hcall⟩

/-- Arguments of closures have values, and so have the variables of a unifier made from them. -/
theorem ty_ne_void_of_mem_ofSources {sources : List (List Var)}
    (hsources : ∀ source ∈ sources, ∃ c : Closure, source ⊆ c.args) :
    ∀ v ∈ (ofSources sources).vars, v.ty ≠ .void := by
  intro v hv
  obtain ⟨source, hsource, hv⟩ := mem_vars_ofSources.1 hv
  obtain ⟨c, hc⟩ := hsources source hsource
  exact c.ty_ne_void_of_mem_args (hc hv)

/-- Closures that are aligned with the same leading arguments have the same parameters, and so
differ in their signatures only if they differed in the types of their results. -/
theorem sig_eq_of_align {u : Unifier} {keep : Nat} {c₁ c₂ d₁ d₂ : Closure}
    (h₁ : u.align keep c₁ = .ok d₁) (h₂ : u.align keep c₂ = .ok d₂)
    (hfront : c₁.args.take keep = c₂.args.take keep) :
    d₁.args = d₂.args ∧ d₁.handle.params = d₂.handle.params ∧
      (d₁.handle.sig = d₂.handle.sig ↔ c₁.ty = c₂.ty) := by
  have haligned₁ := alignedTo_of_align h₁
  have haligned₂ := alignedTo_of_align h₂
  have hargs : d₁.args = d₂.args := by rw [haligned₁.args_eq, haligned₂.args_eq, hfront]
  have hparams : d₁.handle.params = d₂.handle.params := by rw [← d₁.typed, ← d₂.typed, hargs]
  refine ⟨hargs, hparams, fun hsig => ?_, fun hty => ?_⟩
  · rw [← haligned₁.ty_eq, ← haligned₂.ty_eq]
    exact congrArg Signature.ret hsig
  · have hret : d₁.handle.ret = d₂.handle.ret :=
      haligned₁.ty_eq.trans (hty.trans haligned₂.ty_eq.symm)
    exact Signature.ext hparams hret

/-- A unifier brings closures over its sources to one list of arguments and keeps their meaning. -/
structure Unifies (u : Unifier) (sources : List (List Var)) : Prop where
  vars_first : FirstOccurrences sources.flatten u.vars
  /-- A variable without a value, as statements without results have them, can be no parameter. -/
  align_iff : ∀ keep c, (∃ d, u.align keep c = .ok d) ↔ keep ≤ c.args.length ∧
    (∀ v ∈ c.args.drop keep, v ∈ u.vars) ∧ ∀ v ∈ u.vars, v.ty ≠ .void
  /-- Where the sources are arguments of closures, as those of all combinators are, nothing but a
  missing argument is refused. -/
  align_iff_of_args : (∀ source ∈ sources, ∃ c : Closure, source ⊆ c.args) →
    ∀ keep c, (∃ d, u.align keep c = .ok d) ↔
      keep ≤ c.args.length ∧ ∀ v ∈ c.args.drop keep, v ∈ u.vars
  alignedTo : ∀ keep c d, u.align keep c = .ok d → d.AlignedTo c keep u.vars
  sig_eq : ∀ keep c₁ c₂ d₁ d₂, u.align keep c₁ = .ok d₁ → u.align keep c₂ = .ok d₂ →
    c₁.args.take keep = c₂.args.take keep → d₁.args = d₂.args ∧
      d₁.handle.params = d₂.handle.params ∧ (d₁.handle.sig = d₂.handle.sig ↔ c₁.ty = c₂.ty)

/-- The unifier made from any sources unifies them. -/
theorem unifies_ofSources (sources : List (List Var)) : (ofSources sources).Unifies sources := by
  refine ⟨firstOccurrences_eraseDups _, fun keep c => exists_align_iff, fun hsources keep c => ?_,
    fun keep c d => alignedTo_of_align, fun keep c₁ c₂ d₁ d₂ => sig_eq_of_align⟩
  have hvoid := ty_ne_void_of_mem_ofSources hsources
  rw [exists_align_iff]
  exact ⟨fun ⟨hkeep, hmem, _⟩ => ⟨hkeep, hmem⟩, fun ⟨hkeep, hmem⟩ => ⟨hkeep, hmem, hvoid⟩⟩

/-- A loop body keeps its state in front and finds the repeated variable behind it in both of its
places. -/
theorem align_repeated_arguments :
    let i : Var := ⟨3, 0, true, .int⟩
    let p : Var := ⟨1, 0, true, .int⟩
    let q : Var := ⟨1, 1, true, .int⟩
    let body : Closure :=
      ⟨.prim ⟨[.int, .int, .int, .int], .int, by decide⟩ (Stock.runTagged .add (some "body")),
        [i, q, p, q], rfl⟩
    let init : Closure :=
      ⟨.prim ⟨[.int, .int], .int, by decide⟩ (Stock.runTagged .add (some "init")), [p, q], rfl⟩
    ∃ d, (ofSources [init.args, body.args.drop 1]).align 1 body = .ok d ∧ d.args = [i, p, q] ∧
      d.handle.call 0 [.int 100, .int 1, .int 20] {} =
        .ok (.int 141) { effects := #["body(100, 20, 1, 20)"] } := by
  intro i p q body init
  have hunifies := unifies_ofSources [init.args, body.args.drop 1]
  have hsources : ∀ source ∈ [init.args, body.args.drop 1], ∃ c : Closure, source ⊆ c.args := by
    refine List.forall_mem_cons.2 ⟨⟨init, List.Subset.refl _⟩, ?_⟩
    exact List.forall_mem_singleton.2 ⟨body, List.drop_subset 1 _⟩
  obtain ⟨d, hd⟩ := (hunifies.align_iff_of_args hsources 1 body).2 (by decide)
  have haligned := hunifies.alignedTo 1 body d hd
  refine ⟨d, hd, haligned.args_eq, ?_⟩
  have hcall := haligned.call_eq 0 (fun v => if v = p then .int 1 else .int 20) [.int 100] rfl
  exact (congrFun hcall {}).trans rfl

/-- With the variable of a statement without a result among the sources nothing is aligned, though
no argument is missing; and closures that have been aligned keep the types of their results, so
their signatures can differ. -/
theorem membership_is_not_enough :
    let nothing : Closure := ⟨.prim ⟨[], .void, by decide⟩ Stock.unit.run, [], rfl⟩
    let one : Closure := ⟨.prim ⟨[], .int, by decide⟩ (Stock.const (.int 1)).run, [], rfl⟩
    let scope : Scope := { id := 1, capturing := false }
    let p : Var := ⟨1, 0, true, .int⟩
    let sum : Closure := ⟨.prim ⟨[.int], .int, by decide⟩ Stock.add.run, [p], rfl⟩
    let text : Closure := ⟨.prim ⟨[.int], .str, by decide⟩ Stock.concat.run, [p], rfl⟩
    (∃ v next, scope.assignClosure nothing = .ok (v, next) ∧ 0 ≤ one.args.length ∧
      (∀ u ∈ one.args.drop 0, u ∈ (ofSources [[v]]).vars) ∧
      (ofSources [[v]]).align 0 one = .error (.voidParameter 0 [.void])) ∧
    ∃ d₁ d₂, (ofSources [sum.args, text.args]).align 0 sum = .ok d₁ ∧
      (ofSources [sum.args, text.args]).align 0 text = .ok d₂ ∧
      sum.args.take 0 = text.args.take 0 ∧ d₁.handle.sig ≠ d₂.handle.sig := by
  intro nothing one scope p sum text
  refine ⟨⟨⟨1, 0, false, .void⟩, _, rfl, Nat.le_refl 0, nofun, rfl⟩, _, _, rfl, rfl, rfl, ?_⟩
  intro hsig
  exact nomatch congrArg Signature.ret hsig

end Unifier

end Splice
