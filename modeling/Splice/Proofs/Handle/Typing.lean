import Mathlib.Data.List.Forall2
import Splice.Handle.Calls
import Splice.Handle.Recovery
import Splice.Proofs.Handle.Control
import Splice.Proofs.Handle.Recovery

/-!
# Typed handles

`Handle.Typed` says of a handle, by its structure, that the signatures of its parts fit together and
that its native functions return what their signatures promise. `Handle.Built` says that a handle
has been made by the operations that compose handles, conversions aside; `Handle.Built.typed` says
that these operations accept nothing but parts that fit.
-/

namespace Splice

/-- The values are arguments for parameters of the types: as many of them, each one admitted. -/
def Fits (params : List Ty) (args : List Value) : Prop :=
  List.Forall₂ (fun ty v => ty.admits v = true) params args

instance (params : List Ty) (args : List Value) : Decidable (Fits params args) :=
  inferInstanceAs (Decidable (List.Forall₂ _ params args))

namespace Fits

variable {params params' : List Ty} {args args' : List Value} {ty : Ty} {v : Value}

/-- No arguments for no parameters. -/
theorem nil : Fits [] [] := List.Forall₂.nil

/-- One more argument for one more parameter. -/
theorem cons (hv : ty.admits v = true) (h : Fits params args) : Fits (ty :: params) (v :: args) :=
  List.Forall₂.cons hv h

/-- There are as many arguments as parameters. -/
theorem length_eq (h : Fits params args) : params.length = args.length := List.Forall₂.length_eq h

/-- Arguments for two lists of parameters, one behind the other. -/
theorem append (h : Fits params args) (h' : Fits params' args') :
    Fits (params ++ params') (args ++ args') :=
  List.rel_append h h'

/-- The first arguments are for the first parameters. -/
theorem take (h : Fits params args) (n : Nat) : Fits (params.take n) (args.take n) :=
  List.forall₂_take n h

/-- The last arguments are for the last parameters. -/
theorem drop (h : Fits params args) (n : Nat) : Fits (params.drop n) (args.drop n) :=
  List.forall₂_drop n h

/-- Arguments for three lists of parameters in a row are split off in the places of these. -/
theorem split {front mid back : List Ty} (h : Fits (front ++ mid ++ back) args) :
    front.length + mid.length ≤ args.length ∧ Fits front (args.take front.length) ∧
      Fits mid ((args.drop front.length).take mid.length) ∧
      Fits back (args.drop (front.length + mid.length)) := by
  have hlen := h.length_eq
  have hfront := h.take front.length
  have hmid := (h.drop front.length).take mid.length
  have hback := h.drop (front.length + mid.length)
  simp only [List.length_append] at hlen
  rw [List.append_assoc, List.take_left' rfl] at hfront
  rw [List.append_assoc, List.drop_left' rfl, List.take_left' rfl] at hmid
  rw [List.drop_left' List.length_append] at hback
  exact ⟨by omega, hfront, hmid, hback⟩

/-- Behind each parameter stands an argument. -/
theorem exists_getElem? (h : Fits params args) {i : Nat} (hi : params[i]? = some ty) :
    ∃ v, args[i]? = some v ∧ ty.admits v = true := by
  obtain ⟨hlt, rfl⟩ := List.getElem?_eq_some_iff.1 hi
  have hlt' : i < args.length := h.length_eq ▸ hlt
  exact ⟨args[i], List.getElem?_eq_getElem hlt', List.Forall₂.get h hlt hlt'⟩

/-- An argument that is read is admitted where the parameter is. -/
theorem admits_argument (h : Fits params args) {i : Nat} (hi : params[i]? = some ty) :
    ty.admits (Handle.argument args i) = true := by
  obtain ⟨v, hv, hadmits⟩ := h.exists_getElem? hi
  rw [Handle.argument, hv]
  exact hadmits

/-- Arguments can be passed on to places where the parameters are of their types. -/
theorem reordered (h : Fits params args) {reorder : List Nat} {target : List Ty}
    (hreorder : reorder.map (params[·]?) = target.map some) :
    (∀ i ∈ reorder, i < args.length) ∧ Fits target (reorder.map (Handle.argument args)) := by
  induction reorder generalizing target with
  | nil =>
    obtain rfl := List.map_eq_nil_iff.1 hreorder.symm
    exact ⟨nofun, nil⟩
  | cons i reorder ih =>
    cases target with
    | nil => exact nomatch hreorder
    | cons ty target =>
      obtain ⟨hi, hrest⟩ := List.cons.inj hreorder
      obtain ⟨hlt, hfits⟩ := ih hrest
      obtain ⟨v, hv, -⟩ := h.exists_getElem? hi
      have hilt : i < args.length := (List.getElem?_eq_some_iff.1 hv).1
      exact ⟨List.forall_mem_cons.2 ⟨hilt, hlt⟩, cons (h.admits_argument hi) hfits⟩

end Fits

/-- What `bool` admits has the content of a boolean. -/
theorem Ty.exists_expectBool {v : Value} (hv : Ty.bool.admits v = true) :
    ∃ b, v.expectBool = .ok b := by
  cases v with
  | bool b => exact ⟨b, rfl⟩
  | _ => exact nomatch hv

/-- What `int` admits has the content of an integer. -/
theorem Ty.exists_expectInt {v : Value} (hv : Ty.int.admits v = true) :
    ∃ i, v.expectInt = .ok i := by
  cases v with
  | int i => exact ⟨i, rfl⟩
  | _ => exact nomatch hv

/-- The check of a signature lets exactly its arguments through. -/
theorem Signature.check_eq_ok_iff {s : Signature} {args : List Value} :
    s.check args = .ok () ↔ Fits s.params args := by
  have hnone : s.mismatch? args = none ↔ Fits s.params args := by
    -- the lengths are compared first, and then every value with its type
    unfold mismatch? Fits
    rw [List.forall₂_iff_zip]
    split
    case isTrue hlen => exact ⟨nofun, fun h => absurd h.1.symm hlen⟩
    case isFalse hlen =>
      rw [not_not] at hlen
      rw [List.findSome?_eq_none_iff, and_iff_right hlen.symm]
      constructor
      · intro hall ty v hmem
        obtain ⟨i, hi⟩ := List.mem_iff_getElem?.1 hmem
        have hchecked := hall ((ty, v), i) (List.mem_zipIdx_iff_getElem?.2 hi)
        by_contra hv
        exact nomatch (if_neg hv).symm.trans hchecked
      · rintro hall ⟨⟨ty, v⟩, i⟩ hmem
        exact if_pos (hall (List.mem_of_getElem? (List.mem_zipIdx_iff_getElem?.1 hmem)))
  rw [check, ← hnone]
  split
  case h_1 h => exact ⟨fun _ => h, fun _ => rfl⟩
  case h_2 h => exact ⟨nofun, fun hn => nomatch h.symm.trans hn⟩

namespace Handle

/-- On arguments for its parameters, a function returns only what a type admits. -/
def RunRespects (params : List Ty) (ret : Ty) (run : List Value → Exec Value) : Prop :=
  ∀ args w v w', Fits params args → run args w = .ok v w' → ret.admits v = true

/-- The signatures of the parts of a handle fit together, and its native functions return what their
signatures promise. No conversion is among the parts. -/
inductive Typed : Handle → Prop
  | prim {sig : Signature} {run : List Value → Exec Value}
      (hrun : RunRespects sig.params sig.ret run) : Typed (.prim sig run)
  | permuted {sig : Signature} {reorder : List Nat} {target : Handle} (htarget : Typed target)
      (hreorder : reorder.map (sig.params[·]?) = target.params.map some)
      (hret : target.ret = sig.ret) : Typed (.permuted sig reorder target)
  | collected {sig : Signature} {pos : Nat} {filter target : Handle} (hfilter : Typed filter)
      (htarget : Typed target) (hpos : pos ≤ target.arity)
      (hslot : filter.ret ≠ .void → target.params[pos]? = some filter.ret)
      (hparams : sig.params = target.params.take pos ++ filter.params ++
        target.params.drop (if filter.ret = .void then pos else pos + 1))
      (hret : target.ret = sig.ret) : Typed (.collected sig pos filter target)
  | widened {sig : Signature} {pos width : Nat} {target : Handle} (types : List Ty)
      (htarget : Typed target) (hpos : pos ≤ target.arity) (hwidth : types.length = width)
      (hparams : sig.params = target.params.take pos ++ types ++ target.params.drop pos)
      (hret : target.ret = sig.ret) : Typed (.widened sig pos width target)
  | filtered {sig : Signature} {filter target : Handle} (hfilter : Typed filter)
      (htarget : Typed target) (hparams : target.params = sig.params)
      (hslot : filter.params = resultParams target.ret) (hret : filter.ret = sig.ret) :
      Typed (.filtered sig filter target)
  | guarded {sig : Signature} {test accept reject : Handle} (htest : Typed test)
      (haccept : Typed accept) (hreject : Typed reject) (hbool : test.ret = .bool)
      (hfront : sig.params.take test.arity = test.params)
      (hacceptParams : accept.params = sig.params)
      (hrejectParams : reject.params = sig.params) (hacceptRet : accept.ret = sig.ret)
      (hrejectRet : reject.ret = sig.ret) : Typed (.guarded sig test accept reject)
  | whileLoop {sig : Signature} {init pred body : Handle} (hinit : Typed init) (hpred : Typed pred)
      (hbody : Typed body) (hinitParams : init.params = sig.params) (hinitRet : init.ret = sig.ret)
      (hpredParams : pred.params = sig.ret :: sig.params) (hbool : pred.ret = .bool)
      (hbodyParams : body.params = sig.ret :: sig.params) (hbodyRet : body.ret = sig.ret) :
      Typed (.whileLoop sig init pred body)
  | doWhileLoop {sig : Signature} {init body pred : Handle} (hinit : Typed init)
      (hbody : Typed body) (hpred : Typed pred) (hinitParams : init.params = sig.params)
      (hinitRet : init.ret = sig.ret) (hbodyParams : body.params = sig.ret :: sig.params)
      (hbodyRet : body.ret = sig.ret) (hpredParams : pred.params = sig.ret :: sig.params)
      (hbool : pred.ret = .bool) : Typed (.doWhileLoop sig init body pred)
  | countedLoop {sig : Signature} {start stop init body : Handle} (hstart : Typed start)
      (hstop : Typed stop) (hinit : Typed init) (hbody : Typed body)
      (hstartParams : start.params = sig.params) (hstartRet : start.ret = .int)
      (hstopParams : stop.params = sig.params) (hstopRet : stop.ret = .int)
      (hinitParams : init.params = sig.params) (hinitRet : init.ret = sig.ret)
      (hbodyParams : body.params = sig.ret :: .int :: sig.params) (hbodyRet : body.ret = sig.ret) :
      Typed (.countedLoop sig start stop init body)
  | iteratedLoop {sig : Signature} {source init body : Handle} {elem : Ty} (hsource : Typed source)
      (hinit : Typed init) (hbody : Typed body) (hsourceParams : source.params = sig.params)
      (hsourceRet : source.ret = .iterator elem) (hinitParams : init.params = sig.params)
      (hinitRet : init.ret = sig.ret) (hbodyParams : body.params = sig.ret :: elem :: sig.params)
      (hbodyRet : body.ret = sig.ret) : Typed (.iteratedLoop sig source init body)
  | catching {sig : Signature} {cls : String} {target handler : Handle} (htarget : Typed target)
      (hhandler : Typed handler) (hparams : target.params = sig.params)
      (hret : target.ret = sig.ret) (hhandlerParams : handler.params = .error :: sig.params)
      (hhandlerRet : handler.ret = sig.ret) :
      Typed (.catching sig cls target handler)
  | finalized {sig : Signature} {target cleanup : Handle} (htarget : Typed target)
      (hcleanup : Typed cleanup) (hparams : target.params = sig.params)
      (hcleanupParams : cleanup.params = cleanupLocals target.ret ++ sig.params)
      (hcleanupRet : cleanup.ret = sig.ret) : Typed (.finalized sig target cleanup)
  | checked {sig : Signature} {target : Handle} (htarget : Typed target)
      (hsig : target.sig = sig) : Typed (.checked sig target)

/-! ## What the operations compose -/

/-- A handle that the operations on handles have made of native functions that return what their
types promise. Conversions are not among these operations. -/
inductive Built : Handle → Prop
  | native {params ret run h} (hrun : RunRespects params ret run)
      (hh : native params ret run = .ok h) : Built h
  | identity {ty h} (hh : identity ty = .ok h) : Built h
  | constant {ty v h} (hh : constant ty v = .ok h) : Built h
  | empty {params h} (hh : empty params = .ok h) : Built h
  | project {params index h} (hh : project params index = .ok h) : Built h
  | permute {target params reorder h} (htarget : Built target)
      (hh : target.permute params reorder = .ok h) : Built h
  | collect {target pos filter h} (htarget : Built target) (hfilter : Built filter)
      (hh : target.collect pos filter = .ok h) : Built h
  | dropArgs {target pos types h} (htarget : Built target)
      (hh : target.dropArgs pos types = .ok h) : Built h
  | filterReturn {target filter h} (htarget : Built target) (hfilter : Built filter)
      (hh : target.filterReturn filter = .ok h) : Built h
  | guardWithTest {test accept reject h} (htest : Built test) (haccept : Built accept)
      (hreject : Built reject) (hh : guardWithTest test accept reject = .ok h) : Built h
  | loopWhile {init pred body h} (hinit : Built init) (hpred : Built pred) (hbody : Built body)
      (hh : loopWhile init pred body = .ok h) : Built h
  | loopDoWhile {init body pred h} (hinit : Built init) (hbody : Built body) (hpred : Built pred)
      (hh : loopDoWhile init body pred = .ok h) : Built h
  | loopCounted {start stop init body h} (hstart : Built start) (hstop : Built stop)
      (hinit : Built init) (hbody : Built body) (hh : loopCounted start stop init body = .ok h) :
      Built h
  | loopIterated {source init body h} (hsource : Built source) (hinit : Built init)
      (hbody : Built body) (hh : loopIterated source init body = .ok h) : Built h
  | catchException {target cls handler h} (htarget : Built target) (hhandler : Built handler)
      (hh : target.catchException cls handler = .ok h) : Built h
  | tryFinally {target cleanup h} (htarget : Built target) (hcleanup : Built cleanup)
      (hh : target.tryFinally cleanup = .ok h) : Built h
  | throwing {ret h} (hh : throwing ret = .ok h) : Built h
  | rechecked {h} (hh : Built h) : Built h.rechecked

/-- A native function has the signature that was asked for. -/
theorem native_eq_ok {params : List Ty} {ret : Ty} {run : List Value → Exec Value} {h : Handle}
    (hh : native params ret run = .ok h) :
    ∃ sig : Signature, sig.params = params ∧ sig.ret = ret ∧ h = prim sig run := by
  obtain ⟨sig, hsig, hprim⟩ := bind_eq_ok_iff.1 hh
  obtain ⟨hparams, hret⟩ := Signature.ofTypes_eq_ok_iff.1 hsig
  exact ⟨sig, hparams, hret, (Except.ok.inj hprim).symm⟩

/-- A native function is typed if it keeps its promise. -/
theorem typed_of_native {params : List Ty} {ret : Ty} {run : List Value → Exec Value} {h : Handle}
    (hrun : RunRespects params ret run) (hh : native params ret run = .ok h) : h.Typed := by
  obtain ⟨sig, rfl, rfl, rfl⟩ := native_eq_ok hh
  exact .prim hrun

/-- An argument is what the type of its parameter promises. -/
theorem runRespects_argument {params : List Ty} {ty : Ty} {i : Nat} (hi : params[i]? = some ty) :
    RunRespects params ty fun args => return argument args i := by
  intro args w v w' hfits hrun
  obtain ⟨rfl, -⟩ := Outcome.ok.inj hrun
  exact hfits.admits_argument hi

/-- A constant is admitted by its type, or it is refused. -/
theorem typed_of_constant {ty : Ty} {v : Value} {h : Handle} (hh : constant ty v = .ok h) :
    h.Typed := by
  unfold constant at hh
  split at hh
  case isTrue hv =>
    obtain rfl := Except.ok.inj hh
    refine .prim fun args w v' w' hfits hrun => ?_
    obtain ⟨rfl, -⟩ := Outcome.ok.inj hrun
    exact hv
  case isFalse => cases hh

/-- A projection returns an argument of the type that it reads. -/
theorem typed_of_project {params : List Ty} {index : Nat} {h : Handle}
    (hh : project params index = .ok h) : h.Typed := by
  unfold project at hh
  split at hh
  case h_1 ty hty => exact typed_of_native (runRespects_argument hty) hh
  case h_2 => cases hh

/-- Positions are accepted if each of them leads to an argument of the type that the place takes. -/
theorem typed_of_permute {target h : Handle} {params : List Ty} {reorder : List Nat}
    (htarget : target.Typed) (hh : target.permute params reorder = .ok h) : h.Typed := by
  rw [permute, require_bind_eq_ok_iff, bind_eq_ok_iff] at hh
  obtain ⟨hlen, sig, hsig, hh⟩ := hh
  obtain ⟨rfl, hret⟩ := Signature.ofTypes_eq_ok_iff.1 hsig
  cases hm : target.misplaced? sig.params reorder with
  | some cause => rw [hm] at hh; cases hh
  | none =>
    rw [hm] at hh
    obtain rfl := Except.ok.inj hh
    split
    · exact htarget
    · exact .permuted htarget ((misplaced?_eq_none_iff hlen).1 hm) hret.symm

/-- A filter is accepted in a place of the type of its result, or in any place if it has none. -/
theorem typed_of_collect {target filter h : Handle} {pos : Nat} (htarget : target.Typed)
    (hfilter : filter.Typed) (hh : target.collect pos filter = .ok h) : h.Typed := by
  rw [collect] at hh
  split at hh
  case isTrue hvoid =>
    split at hh
    case isFalse => cases hh
    case isTrue hpos =>
      obtain rfl := Except.ok.inj hh
      exact .collected hfilter htarget hpos (absurd hvoid) (by rw [if_pos hvoid]; rfl) rfl
  case isFalse hvoid =>
    split at hh
    case isFalse => cases hh
    case isTrue hslot =>
      -- the place of the filter's result is one of the target's parameters
      obtain rfl := Except.ok.inj hh
      have hpos : pos < target.arity := (List.getElem?_eq_some_iff.1 hslot).1
      exact .collected hfilter htarget hpos.le (fun _ => hslot) (by rw [if_neg hvoid]; rfl) rfl

/-- Parameters are accepted in any place that there is. -/
theorem typed_of_dropArgs {target h : Handle} {pos : Nat} {types : List Ty}
    (htarget : target.Typed) (hh : target.dropArgs pos types = .ok h) : h.Typed := by
  rw [dropArgs, require_bind_eq_ok_iff, bind_eq_ok_iff] at hh
  obtain ⟨hpos, inserted, hsig, hh⟩ := hh
  obtain ⟨rfl, -⟩ := Signature.ofTypes_eq_ok_iff.1 hsig
  obtain rfl := Except.ok.inj hh
  split
  · exact htarget
  · exact .widened _ htarget hpos rfl rfl rfl

/-- What the operations accept fits together. -/
theorem Built.typed {h : Handle} (hbuilt : h.Built) : h.Typed := by
  induction hbuilt with
  -- each operation has checked what the parts have to do with each other, which is all that is
  -- asked
  | native hrun hh => exact typed_of_native hrun hh
  | identity hh => exact typed_of_native (runRespects_argument rfl) hh
  | constant hh => exact typed_of_constant hh
  | empty hh =>
    refine typed_of_native (fun args w v w' _ hrun => ?_) hh
    obtain ⟨rfl, -⟩ := Outcome.ok.inj hrun
    rfl
  | project hh => exact typed_of_project hh
  | permute _ hh htarget => exact typed_of_permute htarget hh
  | collect _ _ hh htarget hfilter => exact typed_of_collect htarget hfilter hh
  | dropArgs _ hh htarget => exact typed_of_dropArgs htarget hh
  | filterReturn _ _ hh htarget hfilter =>
    obtain ⟨hslot, rfl⟩ := filterReturn_eq_ok_iff.1 hh
    exact .filtered hfilter htarget rfl hslot rfl
  | guardWithTest _ _ _ hh htest haccept hreject =>
    obtain ⟨⟨hbool, hparams, hret, hfront⟩, rfl⟩ := guardWithTest_eq_ok_iff.1 hh
    exact .guarded htest haccept hreject hbool hfront rfl hparams rfl hret
  | loopWhile _ _ _ hh hinit hpred hbody =>
    obtain ⟨⟨-, hpredParams, hbool, hbodyParams, hbodyRet⟩, rfl⟩ := loopWhile_eq_ok_iff.1 hh
    exact .whileLoop hinit hpred hbody rfl rfl hpredParams hbool hbodyParams hbodyRet
  | loopDoWhile _ _ _ hh hinit hbody hpred =>
    obtain ⟨⟨-, hbodyParams, hbodyRet, hpredParams, hbool⟩, rfl⟩ := loopDoWhile_eq_ok_iff.1 hh
    exact .doWhileLoop hinit hbody hpred rfl rfl hbodyParams hbodyRet hpredParams hbool
  | loopCounted _ _ _ _ hh hstart hstop hinit hbody =>
    obtain ⟨⟨-, hstartParams, hstartRet, hstopParams, hstopRet, hbodyParams, hbodyRet⟩, rfl⟩ :=
      loopCounted_eq_ok_iff.1 hh
    exact .countedLoop hstart hstop hinit hbody hstartParams hstartRet hstopParams hstopRet rfl rfl
      hbodyParams hbodyRet
  | loopIterated _ _ _ hh hsource hinit hbody =>
    obtain ⟨⟨elem, -, hsourceRet, hsourceParams, hbodyParams, hbodyRet⟩, rfl⟩ :=
      loopIterated_eq_ok_iff.1 hh
    exact .iteratedLoop hsource hinit hbody hsourceParams hsourceRet rfl rfl hbodyParams hbodyRet
  | catchException _ _ hh htarget hhandler =>
    obtain ⟨⟨hparams, hret⟩, rfl⟩ := catchException_eq_ok_iff.1 hh
    exact .catching htarget hhandler rfl rfl hparams hret
  | tryFinally _ _ hh htarget hcleanup =>
    obtain ⟨⟨hparams, hret⟩, rfl⟩ := tryFinally_eq_ok_iff.1 hh
    exact .finalized htarget hcleanup rfl hparams hret
  | throwing hh =>
    refine typed_of_native (fun args w v w' _ hrun => ?_) hh
    split at hrun <;> exact nomatch hrun
  | rechecked _ htarget => exact .checked htarget rfl

end Handle

end Splice
