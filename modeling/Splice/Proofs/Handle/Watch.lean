import Splice.Proofs.Exec.Watch
import Splice.Proofs.Handle.Typing

/-!
# Calls that keep to their types

`Handle.watch` runs a handle as `Handle.call` does, but stops at the first inner call whose values
are no arguments for the called handle, and wherever an argument, a test or a bound is not there.
Calls trust all of this. The main statement says that they may: on arguments that fit, the watched
run of a handle that has been built of functions that respect their types never stops, except for a
value that an iterator produces against its type; so plain calls do the same as calls that check
their arguments once more, and what is returned is of the type that the signature promises.
-/

namespace Splice.Handle

/-- Runs a callable and watches that it, and all callables that it runs, are run on arguments for
their signatures. -/
@[simp] def watch (turns : Nat) (h : Handle) (args : List Value) : Watch Value := do
  Watch.demand (Fits h.params args) (.arguments h.sig args)
  match h with
  | prim _ run => run args
  | permuted _ reorder target => do
    Watch.demand (∀ i ∈ reorder, i < args.length) (.positions reorder args)
    target.watch turns (reorder.map (argument args))
  | collected _ pos filter target => do
    Watch.demand (pos + filter.arity ≤ args.length) (.slice (pos + filter.arity) args)
    let produced ← filter.watch turns ((args.drop pos).take filter.arity)
    let rest := args.drop (pos + filter.arity)
    target.watch turns (args.take pos ++ if filter.ret = .void then rest else produced :: rest)
  | widened _ pos width target => do
    Watch.demand (pos + width ≤ args.length) (.slice (pos + width) args)
    target.watch turns (args.take pos ++ args.drop (pos + width))
  | filtered _ filter target => do
    let produced ← target.watch turns args
    filter.watch turns (if target.ret = .void then [] else [produced])
  | converted _ conversion target => do
    let v ← target.watch turns args
    liftM (liftM (conversion.apply v) : Exec Value)
  | guarded _ test accept reject => do
    Watch.demand (test.arity ≤ args.length) (.slice test.arity args)
    let v ← test.watch turns (args.take test.arity)
    if ← Watch.content v.expectBool then accept.watch turns args else reject.watch turns args
  | whileLoop _ init pred body => do
    Watch.repeatWhile
      (fun state => do Watch.content (← pred.watch turns (state :: args)).expectBool)
      (fun state => body.watch turns (state :: args)) turns (← init.watch turns args)
  | doWhileLoop _ init body pred => do
    Watch.repeatUntil
      (fun state => do Watch.content (← pred.watch turns (state :: args)).expectBool)
      (fun state => body.watch turns (state :: args)) turns (← init.watch turns args)
  | countedLoop _ start stop init body => do
    let first ← Watch.content (← start.watch turns args).expectInt
    let last ← Watch.content (← stop.watch turns args).expectInt
    Watch.countUp (fun index state => body.watch turns (state :: .int index :: args))
      (last.toInt - first.toInt).toNat first (← init.watch turns args)
  | iteratedLoop _ source init body => do
    match ← source.watch turns args with
    | .iterator addr =>
      Watch.drain (liftM (Iterator.next addr) >>= Watch.inspect source.ret)
        (fun v state => body.watch turns (state :: v :: args)) turns (← init.watch turns args)
    | other => liftM (Exec.raise (.sourceNotIterator other.kind) : Exec Value)
  | catching _ cls target handler => do
    match ← (target.watch turns args).attempt with
    | .ok v => return v
    | .error e =>
      if e.isInstanceOf cls then handler.watch turns (.error e :: args)
      else liftM (Exec.throw e : Exec Value)
  | finalized _ target cleanup => do
    let slots := fun v => if target.ret = .void then args else v :: args
    match ← (target.watch turns args).attempt with
    | .ok v => cleanup.watch turns (.null :: slots v)
    | .error e =>
      let _ ← cleanup.watch turns (.error e :: slots target.ret.default)
      liftM (Exec.throw e : Exec Value)
  | checked _ target => do
    let _ ← liftM (liftM (target.sig.check args) : Exec Unit)
    target.watch turns args

/-- Some loop inside runs over an iterator. -/
def Draws : Handle → Prop
  | prim .. => False
  | permuted _ _ target | widened _ _ _ target | converted _ _ target | checked _ target =>
    target.Draws
  | collected _ _ filter target | filtered _ filter target => filter.Draws ∨ target.Draws
  | guarded _ test accept reject => test.Draws ∨ accept.Draws ∨ reject.Draws
  | whileLoop _ init pred body => init.Draws ∨ pred.Draws ∨ body.Draws
  | doWhileLoop _ init body pred => init.Draws ∨ body.Draws ∨ pred.Draws
  | countedLoop _ start stop init body => start.Draws ∨ stop.Draws ∨ init.Draws ∨ body.Draws
  | iteratedLoop .. => True
  | catching _ _ target handler => target.Draws ∨ handler.Draws
  | finalized _ target cleanup => target.Draws ∨ cleanup.Draws

/-- A handle of which some parts check their arguments once more. -/
inductive Rechecks : Handle → Handle → Prop
  | prim {sig run} : Rechecks (.prim sig run) (.prim sig run)
  | permuted {sig reorder target target'} (htarget : Rechecks target target') :
      Rechecks (.permuted sig reorder target) (.permuted sig reorder target')
  | collected {sig pos filter filter' target target'} (hfilter : Rechecks filter filter')
      (htarget : Rechecks target target') :
      Rechecks (.collected sig pos filter target) (.collected sig pos filter' target')
  | widened {sig pos width target target'} (htarget : Rechecks target target') :
      Rechecks (.widened sig pos width target) (.widened sig pos width target')
  | filtered {sig filter filter' target target'} (hfilter : Rechecks filter filter')
      (htarget : Rechecks target target') :
      Rechecks (.filtered sig filter target) (.filtered sig filter' target')
  | converted {sig conversion target target'} (htarget : Rechecks target target') :
      Rechecks (.converted sig conversion target) (.converted sig conversion target')
  | guarded {sig test test' accept accept' reject reject'} (htest : Rechecks test test')
      (haccept : Rechecks accept accept') (hreject : Rechecks reject reject') :
      Rechecks (.guarded sig test accept reject) (.guarded sig test' accept' reject')
  | whileLoop {sig init init' pred pred' body body'} (hinit : Rechecks init init')
      (hpred : Rechecks pred pred') (hbody : Rechecks body body') :
      Rechecks (.whileLoop sig init pred body) (.whileLoop sig init' pred' body')
  | doWhileLoop {sig init init' body body' pred pred'} (hinit : Rechecks init init')
      (hbody : Rechecks body body') (hpred : Rechecks pred pred') :
      Rechecks (.doWhileLoop sig init body pred) (.doWhileLoop sig init' body' pred')
  | countedLoop {sig start start' stop stop' init init' body body'}
      (hstart : Rechecks start start') (hstop : Rechecks stop stop') (hinit : Rechecks init init')
      (hbody : Rechecks body body') :
      Rechecks (.countedLoop sig start stop init body) (.countedLoop sig start' stop' init' body')
  | iteratedLoop {sig source source' init init' body body'} (hsource : Rechecks source source')
      (hinit : Rechecks init init') (hbody : Rechecks body body') :
      Rechecks (.iteratedLoop sig source init body) (.iteratedLoop sig source' init' body')
  | catching {sig cls target target' handler handler'} (htarget : Rechecks target target')
      (hhandler : Rechecks handler handler') :
      Rechecks (.catching sig cls target handler) (.catching sig cls target' handler')
  | finalized {sig target target' cleanup cleanup'} (htarget : Rechecks target target')
      (hcleanup : Rechecks cleanup cleanup') :
      Rechecks (.finalized sig target cleanup) (.finalized sig target' cleanup')
  | checked {sig target target'} (htarget : Rechecks target target') :
      Rechecks (.checked sig target) (.checked sig target')
  /-- The part itself, with what has been changed inside it, is made to check its arguments. -/
  | rechecked {h h'} (hh : Rechecks h h') : Rechecks h h'.rechecked

namespace Rechecks

/-- No part need be changed. -/
theorem refl (h : Handle) : Rechecks h h := by
  induction h with
  | prim => exact .prim
  | permuted _ _ _ htarget => exact .permuted htarget
  | collected _ _ _ _ hfilter htarget => exact .collected hfilter htarget
  | widened _ _ _ _ htarget => exact .widened htarget
  | filtered _ _ _ hfilter htarget => exact .filtered hfilter htarget
  | converted _ _ _ htarget => exact .converted htarget
  | guarded _ _ _ _ htest haccept hreject => exact .guarded htest haccept hreject
  | whileLoop _ _ _ _ hinit hpred hbody => exact .whileLoop hinit hpred hbody
  | doWhileLoop _ _ _ _ hinit hbody hpred => exact .doWhileLoop hinit hbody hpred
  | countedLoop _ _ _ _ _ hstart hstop hinit hbody => exact .countedLoop hstart hstop hinit hbody
  | iteratedLoop _ _ _ _ hsource hinit hbody => exact .iteratedLoop hsource hinit hbody
  | catching _ _ _ _ htarget hhandler => exact .catching htarget hhandler
  | finalized _ _ _ htarget hcleanup => exact .finalized htarget hcleanup
  | checked _ _ htarget => exact .checked htarget

/-- Checking arguments once more leaves the signature as it is. -/
theorem sig_eq {h h' : Handle} (hre : Rechecks h h') : h'.sig = h.sig := by
  induction hre with
  | rechecked _ ih => exact ih
  | _ => rfl

end Rechecks

/-! ## Watched calls and plain calls -/

/-- On arguments that fit, the watched run of a handle keeps to the calls of another one with the
same signature, and the results are of the type that this promises. -/
structure Respects (draws : Prop) (turns : Nat) (h h' : Handle) : Prop where
  sig_eq : h'.sig = h.sig
  keeps : ∀ args, Fits h.params args →
    (h.watch turns args).Keeps draws (h'.call turns args) fun v => h.ret.admits v = true

namespace Respects

variable {draws : Prop} {turns : Nat} {sig : Signature}

/-- The signature says how many arguments there are. -/
theorem arity_eq {h h' : Handle} (hh : Respects draws turns h h') : h'.arity = h.arity := by
  rw [arity, params, hh.sig_eq]
  rfl

/-- The signature says what is returned. -/
theorem ret_eq {h h' : Handle} (hh : Respects draws turns h h') : h'.ret = h.ret :=
  congrArg Signature.ret hh.sig_eq

/-- The part of a handle is called on arguments that fit its own parameters. -/
theorem keeps_of {h h' : Handle} (hh : Respects draws turns h h') {params : List Ty} {ret : Ty}
    {args : List Value} (hfits : Fits params args) (hparams : h.params = params)
    (hret : h.ret = ret) :
    (h.watch turns args).Keeps draws (h'.call turns args) fun v => ret.admits v = true := by
  subst hparams hret
  exact hh.keeps args hfits

/-- A native function keeps to its type if it respects it. -/
theorem prim {run : List Value → Exec Value} (hrun : RunRespects sig.params sig.ret run) :
    Respects draws turns (prim sig run) (prim sig run) := by
  refine ⟨rfl, fun args hfits => ?_⟩
  rw [watch, call]
  exact .demand_bind hfits (.lift fun w v w' => hrun args w v w' hfits)

/-- The arguments of a permuted handle are those that it passes on, each in a place of its type. -/
theorem permuted {reorder : List Nat} {target target' : Handle}
    (htarget : Respects draws turns target target')
    (hreorder : reorder.map (sig.params[·]?) = target.params.map some)
    (hret : target.ret = sig.ret) :
    Respects draws turns (permuted sig reorder target) (permuted sig reorder target') := by
  refine ⟨rfl, fun args hfits => ?_⟩
  -- a place that is missing would be filled by a default, but no place is
  obtain ⟨hpositions, hpassed⟩ := hfits.reordered hreorder
  have hslots : reorder.map (fun j => (args.toArray[j]?).getD .unit) =
      reorder.map (argument args) := by
    simp only [List.getElem?_toArray]
    rfl
  rw [watch, call, hslots]
  exact .demand_bind hfits (.demand_bind hpositions (htarget.keeps_of hpassed rfl hret))

/-- The middle of the arguments goes to the filter, and its result, if it has one, takes their
place. -/
theorem collected {pos : Nat} {filter filter' target target' : Handle}
    (hfilter : Respects draws turns filter filter') (htarget : Respects draws turns target target')
    (hpos : pos ≤ target.arity) (hslot : filter.ret ≠ .void → target.params[pos]? = some filter.ret)
    (hparams : sig.params = target.params.take pos ++ filter.params ++
      target.params.drop (if filter.ret = .void then pos else pos + 1))
    (hret : target.ret = sig.ret) :
    Respects draws turns (collected sig pos filter target) (collected sig pos filter' target') := by
  refine ⟨rfl, fun args hfits => ?_⟩
  have hsplit : Fits (target.params.take pos ++ filter.params ++
      target.params.drop (if filter.ret = .void then pos else pos + 1)) args := hparams ▸ hfits
  obtain ⟨hslice, hfront, hmid, hback⟩ := hsplit.split
  rw [List.length_take_of_le hpos] at hslice hfront hmid hback
  rw [watch, call, hfilter.arity_eq, hfilter.ret_eq]
  refine .demand_bind hfits (.demand_bind hslice ?_)
  refine (hfilter.keeps_of hmid rfl rfl).bind fun v hv => htarget.keeps_of ?_ rfl hret
  by_cases hvoid : filter.ret = .void
  · rw [if_pos hvoid] at hback
    have hpassed := hfront.append hback
    rw [List.take_append_drop] at hpassed
    rw [if_pos hvoid]
    exact hpassed
  · -- the result of the filter stands in the place of its parameter
    obtain ⟨hlt, hget⟩ := List.getElem?_eq_some_iff.1 (hslot hvoid)
    rw [if_neg hvoid] at hback
    have hpassed := hfront.append (.cons hv hback)
    rw [← hget, List.getElem_cons_drop, List.take_append_drop] at hpassed
    rw [if_neg hvoid]
    exact hpassed

/-- The arguments that are ignored are left out between the front and the back. -/
theorem widened {pos width : Nat} {target target' : Handle} {types : List Ty}
    (htarget : Respects draws turns target target') (hpos : pos ≤ target.arity)
    (hwidth : types.length = width)
    (hparams : sig.params = target.params.take pos ++ types ++ target.params.drop pos)
    (hret : target.ret = sig.ret) :
    Respects draws turns (widened sig pos width target) (widened sig pos width target') := by
  refine ⟨rfl, fun args hfits => ?_⟩
  have hsplit : Fits (target.params.take pos ++ types ++ target.params.drop pos) args :=
    hparams ▸ hfits
  obtain ⟨hslice, hfront, -, hback⟩ := hsplit.split
  rw [List.length_take_of_le hpos, hwidth] at hslice hback
  rw [List.length_take_of_le hpos] at hfront
  have hpassed := hfront.append hback
  rw [List.take_append_drop] at hpassed
  rw [watch, call]
  exact .demand_bind hfits (.demand_bind hslice (htarget.keeps_of hpassed rfl hret))

/-- The result of the target is the only argument of the filter, or there is none. -/
theorem filtered {filter filter' target target' : Handle}
    (hfilter : Respects draws turns filter filter') (htarget : Respects draws turns target target')
    (hparams : target.params = sig.params) (hslot : filter.params = resultParams target.ret)
    (hret : filter.ret = sig.ret) :
    Respects draws turns (filtered sig filter target) (filtered sig filter' target') := by
  refine ⟨rfl, fun args hfits => ?_⟩
  rw [watch, call, htarget.ret_eq]
  refine .demand_bind hfits ((htarget.keeps_of hfits hparams rfl).bind fun v hv => ?_)
  refine hfilter.keeps_of ?_ hslot hret
  unfold resultParams
  split
  · exact .nil
  · exact .cons hv .nil

/-- What a test or a bound gives has the content that is read before the run goes on. -/
theorem keeps_content_bind {h h' : Handle} (hh : Respects draws turns h h') {params : List Ty}
    {ty : Ty} {args : List Value} {read : Value → Except Fault α} {f : α → Watch β} {g : α → Exec β}
    {Q : β → Prop} (hfits : Fits params args) (hparams : h.params = params) (hret : h.ret = ty)
    (hread : ∀ v, ty.admits v = true → ∃ a, read v = .ok a)
    (hnext : ∀ a, Watch.Keeps draws (f a) (g a) Q) :
    Watch.Keeps draws (do f (← Watch.content (read (← h.watch turns args))))
      (do g (← liftM (read (← h'.call turns args)))) Q := by
  refine (hh.keeps_of hfits hparams hret).bind fun v hv => ?_
  obtain ⟨a, ha⟩ := hread v hv
  have hcontent : Watch.Keeps draws (Watch.content (read v)) (liftM (read v)) fun _ => True :=
    .content ha trivial
  exact hcontent.bind fun a _ => hnext a

/-- The content of a test or a bound is all that is looked at. -/
theorem keeps_content {h h' : Handle} (hh : Respects draws turns h h') {params : List Ty} {ty : Ty}
    {args : List Value} {read : Value → Except Fault α} (hfits : Fits params args)
    (hparams : h.params = params) (hret : h.ret = ty)
    (hread : ∀ v, ty.admits v = true → ∃ a, read v = .ok a) :
    Watch.Keeps draws (do Watch.content (read (← h.watch turns args)))
      (do liftM (read (← h'.call turns args))) fun _ => True := by
  have hpure : ∀ a : α, Watch.Keeps draws (pure a) (pure a) fun _ => True := fun _ => .pure trivial
  simpa only [bind_pure] using hh.keeps_content_bind hfits hparams hret hread hpure

/-- The test is called on the front of the arguments, and each branch on all of them. -/
theorem guarded {test test' accept accept' reject reject' : Handle}
    (htest : Respects draws turns test test') (haccept : Respects draws turns accept accept')
    (hreject : Respects draws turns reject reject') (hbool : test.ret = .bool)
    (hfront : sig.params.take test.arity = test.params) (hacceptParams : accept.params = sig.params)
    (hrejectParams : reject.params = sig.params) (hacceptRet : accept.ret = sig.ret)
    (hrejectRet : reject.ret = sig.ret) :
    Respects draws turns (guarded sig test accept reject) (guarded sig test' accept' reject') := by
  refine ⟨rfl, fun args hfits => ?_⟩
  -- the test takes no more arguments than there are, as its parameters are the first of them
  have hslice : test.arity ≤ args.length := by
    have hlen := congrArg List.length hfront
    have hargs := hfits.length_eq
    rw [List.length_take] at hlen
    change sig.params.length = args.length at hargs
    change min test.arity sig.params.length = test.arity at hlen
    omega
  have htested : Fits test.params (args.take test.arity) := hfront ▸ Fits.take hfits test.arity
  rw [watch, call, htest.arity_eq]
  refine .demand_bind hfits (.demand_bind hslice ?_)
  refine htest.keeps_content_bind htested rfl hbool (fun _ => Ty.exists_expectBool) fun holds => ?_
  cases holds with
  | true => exact haccept.keeps_of hfits hacceptParams hacceptRet
  | false => exact hreject.keeps_of hfits hrejectParams hrejectRet

section

variable {init init' pred pred' body body' : Handle}

/-- The state of the loop is of the type that its handles promise, before and after every turn. -/
theorem whileLoop (hinit : Respects draws turns init init')
    (hpred : Respects draws turns pred pred') (hbody : Respects draws turns body body')
    (hinitParams : init.params = sig.params) (hinitRet : init.ret = sig.ret)
    (hpredParams : pred.params = sig.ret :: sig.params) (hbool : pred.ret = .bool)
    (hbodyParams : body.params = sig.ret :: sig.params) (hbodyRet : body.ret = sig.ret) :
    Respects draws turns (whileLoop sig init pred body) (whileLoop sig init' pred' body') := by
  refine ⟨rfl, fun args hfits => ?_⟩
  rw [watch, call]
  refine .demand_bind hfits ((hinit.keeps_of hfits hinitParams hinitRet).bind fun v hv => ?_)
  refine .repeatWhile (fun s hs => ?_) (fun s hs => ?_) turns hv
  · exact hpred.keeps_content (.cons hs hfits) hpredParams hbool fun _ => Ty.exists_expectBool
  · exact hbody.keeps_of (.cons hs hfits) hbodyParams hbodyRet

/-- The state of the loop is of the type that its handles promise, before and after every turn. -/
theorem doWhileLoop (hinit : Respects draws turns init init')
    (hbody : Respects draws turns body body') (hpred : Respects draws turns pred pred')
    (hinitParams : init.params = sig.params) (hinitRet : init.ret = sig.ret)
    (hbodyParams : body.params = sig.ret :: sig.params) (hbodyRet : body.ret = sig.ret)
    (hpredParams : pred.params = sig.ret :: sig.params) (hbool : pred.ret = .bool) :
    Respects draws turns (doWhileLoop sig init body pred) (doWhileLoop sig init' body' pred') := by
  refine ⟨rfl, fun args hfits => ?_⟩
  rw [watch, call]
  refine .demand_bind hfits ((hinit.keeps_of hfits hinitParams hinitRet).bind fun v hv => ?_)
  refine .repeatUntil (fun s hs => ?_) (fun s hs => ?_) turns hv
  · exact hpred.keeps_content (.cons hs hfits) hpredParams hbool fun _ => Ty.exists_expectBool
  · exact hbody.keeps_of (.cons hs hfits) hbodyParams hbodyRet

/-- Besides the state, the body is called on an index, which is an integer. -/
theorem countedLoop {start start' stop stop' : Handle} (hstart : Respects draws turns start start')
    (hstop : Respects draws turns stop stop') (hinit : Respects draws turns init init')
    (hbody : Respects draws turns body body') (hstartParams : start.params = sig.params)
    (hstartRet : start.ret = .int) (hstopParams : stop.params = sig.params)
    (hstopRet : stop.ret = .int) (hinitParams : init.params = sig.params)
    (hinitRet : init.ret = sig.ret) (hbodyParams : body.params = sig.ret :: .int :: sig.params)
    (hbodyRet : body.ret = sig.ret) :
    Respects draws turns (countedLoop sig start stop init body)
      (countedLoop sig start' stop' init' body') := by
  refine ⟨rfl, fun args hfits => ?_⟩
  rw [watch, call]
  refine .demand_bind hfits ?_
  refine hstart.keeps_content_bind hfits hstartParams hstartRet (fun _ => Ty.exists_expectInt)
    fun first => ?_
  refine hstop.keeps_content_bind hfits hstopParams hstopRet (fun _ => Ty.exists_expectInt)
    fun last => ?_
  refine (hinit.keeps_of hfits hinitParams hinitRet).bind fun v hv => ?_
  refine .countUp (fun i s hs => ?_) _ _ hv
  exact hbody.keeps_of (.cons hs (.cons rfl hfits)) hbodyParams hbodyRet

/-- Besides the state, the body is called on what was drawn. This is where a run may stop, since
nothing keeps an iterator from producing a value of another type. -/
theorem iteratedLoop {source source' : Handle} {elem : Ty} (hdraws : draws)
    (hsource : Respects draws turns source source') (hinit : Respects draws turns init init')
    (hbody : Respects draws turns body body') (hsourceParams : source.params = sig.params)
    (hsourceRet : source.ret = .iterator elem) (hinitParams : init.params = sig.params)
    (hinitRet : init.ret = sig.ret) (hbodyParams : body.params = sig.ret :: elem :: sig.params)
    (hbodyRet : body.ret = sig.ret) :
    Respects draws turns (iteratedLoop sig source init body)
      (iteratedLoop sig source' init' body') := by
  refine ⟨rfl, fun args hfits => ?_⟩
  rw [watch, call]
  refine .demand_bind hfits ((hsource.keeps_of hfits hsourceParams rfl).bind fun v hv => ?_)
  -- the source has come to an iterator, or its type was wrong and both runs fail
  cases v with
  | iterator addr =>
    refine (hinit.keeps_of hfits hinitParams hinitRet).bind fun v hv => ?_
    refine .drain (.draw hdraws source.ret (Iterator.next addr)) (fun x s hx hs => ?_) turns hv
    have helem : elem.admits x = true := by
      rw [hsourceRet] at hx
      exact hx
    exact hbody.keeps_of (.cons hs (.cons helem hfits)) hbodyParams hbodyRet
  | _ => exact .raise

end

/-- The handler is called on the exception, in front of the arguments. -/
theorem catching {cls : String} {target target' handler handler' : Handle}
    (htarget : Respects draws turns target target')
    (hhandler : Respects draws turns handler handler')
    (hparams : target.params = sig.params) (hret : target.ret = sig.ret)
    (hhandlerParams : handler.params = .error :: sig.params) (hhandlerRet : handler.ret = sig.ret) :
    Respects draws turns (catching sig cls target handler) (catching sig cls target' handler') := by
  refine ⟨rfl, fun args hfits => ?_⟩
  rw [watch, call]
  refine .demand_bind hfits ?_
  refine (htarget.keeps_of hfits hparams hret).attempt.bind fun outcome ho => ?_
  cases outcome with
  | ok v => exact .pure (ho v rfl)
  | error e =>
    by_cases he : e.isInstanceOf cls = true
    · simp only [if_pos he]
      exact hhandler.keeps_of (.cons rfl hfits) hhandlerParams hhandlerRet
    · simp only [if_neg he]
      exact .throw

/-- The cleanup is called on the exception or null, and on the result or the default of its type. -/
theorem finalized {target target' cleanup cleanup' : Handle}
    (htarget : Respects draws turns target target')
    (hcleanup : Respects draws turns cleanup cleanup')
    (hparams : target.params = sig.params)
    (hcleanupParams : cleanup.params = cleanupLocals target.ret ++ sig.params)
    (hcleanupRet : cleanup.ret = sig.ret) :
    Respects draws turns (finalized sig target cleanup) (finalized sig target' cleanup') := by
  refine ⟨rfl, fun args hfits => ?_⟩
  rw [watch, call, htarget.ret_eq]
  refine .demand_bind hfits ((htarget.keeps_of hfits hparams rfl).attempt.bind fun outcome ho => ?_)
  -- the arguments of the cleanup fit whether the target has returned or failed
  have hslots : ∀ error v, Ty.error.admits error = true → target.ret.admits v = true →
      Fits (cleanupLocals target.ret ++ sig.params)
        (error :: if target.ret = .void then args else v :: args) := by
    intro error v herror hv
    unfold cleanupLocals
    split
    · exact .cons herror hfits
    · exact .cons herror (.cons hv hfits)
  cases outcome with
  | ok v => exact hcleanup.keeps_of (hslots _ v rfl (ho v rfl)) hcleanupParams hcleanupRet
  | error e =>
    have hfailed := hslots (.error e) target.ret.default rfl target.ret.admits_default
    exact (hcleanup.keeps_of hfailed hcleanupParams hcleanupRet).bind fun _ _ => .throw

/-- A check that is passed leaves the arguments as they are. -/
theorem checked {target target' : Handle} (htarget : Respects draws turns target target')
    (hsig : target.sig = sig) :
    Respects draws turns (checked sig target) (checked sig target') := by
  refine ⟨rfl, fun args hfits => ?_⟩
  rw [watch, call, htarget.sig_eq]
  refine .demand_bind hfits ((Watch.Keeps.lift fun _ _ _ _ => trivial).bind fun _ _ => ?_)
  exact htarget.keeps_of hfits (congrArg Signature.params hsig) (congrArg Signature.ret hsig)

/-- Arguments that fit pass a check, which leaves no trace. -/
theorem rechecked {h h' : Handle} (hh : Respects draws turns h h') :
    Respects draws turns h h'.rechecked := by
  refine ⟨hh.sig_eq, fun args hfits => ?_⟩
  have hcheck : h'.sig.check args = .ok () := by
    rw [hh.sig_eq]
    exact Signature.check_eq_ok_iff.2 hfits
  rw [Handle.rechecked, call, hcheck]
  exact hh.keeps args hfits

end Respects

/-- Watched runs of a typed handle keep to the calls of it, whichever parts of it check their
arguments once more. -/
theorem Rechecks.respects {h h' : Handle} (hre : Rechecks h h') (htyped : h.Typed) {draws : Prop}
    (hdraws : h.Draws → draws) (turns : Nat) : Respects draws turns h h' := by
  induction hre with
  | prim =>
    obtain ⟨hrun⟩ := htyped
    exact .prim hrun
  | permuted _ ih =>
    cases htyped with
    | permuted htarget hreorder hret => exact .permuted (ih htarget hdraws) hreorder hret
  | collected _ _ ihFilter ihTarget =>
    cases htyped with
    | collected hfilter htarget hpos hslot hparams hret =>
      exact .collected (ihFilter hfilter (hdraws ∘ .inl)) (ihTarget htarget (hdraws ∘ .inr)) hpos
        hslot hparams hret
  | widened _ ih =>
    cases htyped with
    | widened types htarget hpos hwidth hparams hret =>
      exact .widened (ih htarget hdraws) hpos hwidth hparams hret
  | filtered _ _ ihFilter ihTarget =>
    cases htyped with
    | filtered hfilter htarget hparams hslot hret =>
      exact .filtered (ihFilter hfilter (hdraws ∘ .inl)) (ihTarget htarget (hdraws ∘ .inr)) hparams
        hslot hret
  | converted => exact nomatch htyped
  | guarded _ _ _ ihTest ihAccept ihReject =>
    cases htyped with
    | guarded htest haccept hreject hbool hfront hacceptParams hrejectParams hacceptRet
        hrejectRet =>
      exact .guarded (ihTest htest (hdraws ∘ .inl)) (ihAccept haccept (hdraws ∘ .inr ∘ .inl))
        (ihReject hreject (hdraws ∘ .inr ∘ .inr)) hbool hfront hacceptParams hrejectParams
        hacceptRet hrejectRet
  | whileLoop _ _ _ ihInit ihPred ihBody =>
    cases htyped with
    | whileLoop hinit hpred hbody hinitParams hinitRet hpredParams hbool hbodyParams hbodyRet =>
      exact .whileLoop (ihInit hinit (hdraws ∘ .inl)) (ihPred hpred (hdraws ∘ .inr ∘ .inl))
        (ihBody hbody (hdraws ∘ .inr ∘ .inr)) hinitParams hinitRet hpredParams hbool hbodyParams
        hbodyRet
  | doWhileLoop _ _ _ ihInit ihBody ihPred =>
    cases htyped with
    | doWhileLoop hinit hbody hpred hinitParams hinitRet hbodyParams hbodyRet hpredParams hbool =>
      exact .doWhileLoop (ihInit hinit (hdraws ∘ .inl)) (ihBody hbody (hdraws ∘ .inr ∘ .inl))
        (ihPred hpred (hdraws ∘ .inr ∘ .inr)) hinitParams hinitRet hbodyParams hbodyRet hpredParams
        hbool
  | countedLoop _ _ _ _ ihStart ihStop ihInit ihBody =>
    cases htyped with
    | countedLoop hstart hstop hinit hbody hstartParams hstartRet hstopParams hstopRet hinitParams
        hinitRet hbodyParams hbodyRet =>
      exact .countedLoop (ihStart hstart (hdraws ∘ .inl)) (ihStop hstop (hdraws ∘ .inr ∘ .inl))
        (ihInit hinit (hdraws ∘ .inr ∘ .inr ∘ .inl)) (ihBody hbody (hdraws ∘ .inr ∘ .inr ∘ .inr))
        hstartParams hstartRet hstopParams hstopRet hinitParams hinitRet hbodyParams hbodyRet
  | iteratedLoop _ _ _ ihSource ihInit ihBody =>
    cases htyped with
    | iteratedLoop hsource hinit hbody hsourceParams hsourceRet hinitParams hinitRet hbodyParams
        hbodyRet =>
      have hallowed : draws := hdraws trivial
      exact .iteratedLoop hallowed (ihSource hsource fun _ => hallowed)
        (ihInit hinit fun _ => hallowed) (ihBody hbody fun _ => hallowed) hsourceParams hsourceRet
        hinitParams hinitRet hbodyParams hbodyRet
  | catching _ _ ihTarget ihHandler =>
    cases htyped with
    | catching htarget hhandler hparams hret hhandlerParams hhandlerRet =>
      exact .catching (ihTarget htarget (hdraws ∘ .inl)) (ihHandler hhandler (hdraws ∘ .inr))
        hparams hret hhandlerParams hhandlerRet
  | finalized _ _ ihTarget ihCleanup =>
    cases htyped with
    | finalized htarget hcleanup hparams hcleanupParams hcleanupRet =>
      exact .finalized (ihTarget htarget (hdraws ∘ .inl)) (ihCleanup hcleanup (hdraws ∘ .inr))
        hparams hcleanupParams hcleanupRet
  | checked _ ih =>
    cases htyped with
    | checked htarget hsig => exact .checked (ih htarget hdraws) hsig
  | rechecked _ ih => exact .rechecked (ih htyped hdraws)

/-- Every value that a loop inside draws from an iterator is of the type of its elements. -/
def DrawsElements (turns : Nat) (h : Handle) (args : List Value) (w : World) : Prop :=
  ∀ ty v w', (h.watch turns args).run w ≠ .ok (.error (.element ty v)) w'

/-- A projection reads an argument that is there. -/
theorem call_project {params : List Ty} {index : Nat} {h : Handle}
    (hh : project params index = .ok h) {args : List Value} (hfits : Fits h.params args)
    (turns : Nat) : ∃ v, args[index]? = some v ∧ h.call turns args = pure v := by
  unfold project at hh
  split at hh
  case h_1 ty hty =>
    obtain ⟨sig, rfl, -, rfl⟩ := native_eq_ok hh
    obtain ⟨v, hv, -⟩ := hfits.exists_getElem? hty
    refine ⟨v, hv, ?_⟩
    rw [call, argument, hv]
    rfl
  case h_2 => cases hh

/-- The identity returns its argument. -/
theorem call_identity {ty : Ty} {h : Handle} (hh : identity ty = .ok h) {args : List Value}
    (hfits : Fits h.params args) (turns : Nat) :
    ∃ v, args[0]? = some v ∧ h.call turns args = pure v := by
  have hproject : project [ty] 0 = .ok h := hh
  exact call_project hproject hfits turns

/-- A handle that has been built of functions which respect their types runs all its parts on
arguments that fit, so that nothing depends on whether they are checked, and returns what its
signature promises. -/
theorem built_respects_types {h : Handle} (hbuilt : h.Built) (turns : Nat) {args : List Value}
    (hfits : Fits h.params args) (w : World) :
    (¬ h.Draws → h.DrawsElements turns args w) ∧
    (h.DrawsElements turns args w →
      (h.watch turns args).run w = (liftM (h.call turns args) : Watch Value).run w ∧
      (∀ v w', h.call turns args w = .ok v w' → h.ret.admits v = true) ∧
      ∀ h', Rechecks h h' → h'.call turns args w = h.call turns args w) ∧
    (∀ params index, project params index = .ok h →
      ∃ v, args[index]? = some v ∧ h.call turns args = pure v) ∧
    ∀ ty, identity ty = .ok h → ∃ v, args[0]? = some v ∧ h.call turns args = pure v := by
  have hkept : ∀ h', Rechecks h h' → Watch.Kept h.Draws (fun v => h.ret.admits v = true)
      ((h.watch turns args).run w) (h'.call turns args w) :=
    -- one watched run keeps to all calls at once, whichever parts are checked
    fun h' hre => (hre.respects hbuilt.typed id turns).keeps args hfits w
  have hplain := hkept h (.refl h)
  refine ⟨fun hdraws ty v w' hstops => ?_, fun helements => ?_,
    fun params index hh => call_project hh hfits turns,
    fun ty hh => call_identity hh hfits turns⟩
  · rw [hstops] at hplain
    cases hplain with
    | element hallowed => exact hdraws hallowed
  · obtain ⟨hrun, hresult⟩ := hplain.eq_of_ne helements
    exact ⟨hrun, hresult, fun h' hre => hplain.unique (hkept h' hre) helements⟩

/-- A loop over two integers runs its body on both of them, whether or not the body checks them. -/
theorem built_respects_types_over_iterator :
    let source : Handle := .prim ⟨[], .iterator .int, by decide⟩ fun _ =>
      Iterator.ofList [.int 1, .int 2]
    let init : Handle := .prim ⟨[], .int, by decide⟩ fun _ => return .int 0
    let body : Handle := .prim ⟨[.int, .int], .int, by decide⟩ fun args => return argument args 1
    let loop : Handle → Handle := .iteratedLoop init.sig source init
    (loop body).Built ∧ Fits (loop body).params [] ∧ (loop body).DrawsElements 3 [] {} ∧
      Rechecks (loop body) (loop body.rechecked) ∧
      (loop body).call 3 [] {} =
        .ok (.int 2) { cells := #[[]], iterators := #[.ofCell 0] } ∧
      (loop body.rechecked).call 3 [] {} = (loop body).call 3 [] {} ∧
      (loop body).ret.admits (.int 2) = true := by
  intro source init body loop
  have hsource : native [] (.iterator .int) (fun _ => Iterator.ofList [.int 1, .int 2]) =
      .ok source := rfl
  have hrun : RunRespects [] (.iterator .int) fun _ => Iterator.ofList [.int 1, .int 2] := by
    intro args w v w' _ hrun
    obtain ⟨rfl, -⟩ := Outcome.ok.inj hrun
    rfl
  have hinit : constant .int (.int 0) = .ok init := rfl
  have hbody : project [.int, .int] 1 = .ok body := rfl
  have hloop : (loop body).Built :=
    .loopIterated (.native hrun hsource) (.constant hinit) (.project hbody) rfl
  have hfits : Fits (loop body).params [] := .nil
  have hwatched : ((loop body).watch 3 []).run {} =
      .ok (.ok (.int 2)) { cells := #[[]], iterators := #[.ofCell 0] } := rfl
  have helements : (loop body).DrawsElements 3 [] {} := by
    intro ty v w' hstops
    exact nomatch hwatched.symm.trans hstops
  have hre : Rechecks (loop body) (loop body.rechecked) :=
    .iteratedLoop (.refl _) (.refl _) (.rechecked (.refl _))
  obtain ⟨-, hrespects, -⟩ := built_respects_types hloop 3 hfits {}
  obtain ⟨-, hresult, hrechecked⟩ := hrespects helements
  exact ⟨hloop, hfits, helements, hre, rfl, hrechecked _ hre, hresult _ _ rfl⟩

end Splice.Handle
