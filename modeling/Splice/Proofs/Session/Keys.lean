import Splice.Proofs.Scope.Grown
import Splice.Proofs.Session.Basic
import Splice.Stock
import Mathlib.Data.List.Nodup

/-!
# Keys tell variables apart

Variables are looked up by their scopes and their ordinals there, and nothing else is compared. The
main statement is that in every session this is enough: no two calls make variables with one key,
whatever is composed in between, and a variable that occurs anywhere comes from such a call. It is
carried by an invariant of sessions, `Session.Sound`. Each scope under construction has ordinals
ahead of all that have been used in it, and the supply has identities ahead of all scopes.
-/

namespace Splice

open Compose (Gives)

/-! ## Scopes under construction -/

/-- What keeps the variables of a scope apart while it grows, among all variables made. -/
structure Scope.Sound (b : Scope) (made : List Var) : Prop where
  /-- The scope has a history, and has given all of its variables that have been made. -/
  grown : ∃ history, Grown b.id b.capturing history b ∧
    ∀ v ∈ made, v.scope = b.id → v ∈ history.vars
  vars_made : ∀ v ∈ b.vars, v ∈ made
  vars_nodup : b.vars.Nodup
  /-- The ordinals to come are ahead of those in use. -/
  ahead : ∀ v ∈ made, v.scope = b.id → v.ordinal < b.nextOrdinal
  reads_made : ∀ st ∈ b.statements, ∀ v ∈ st.closure.args, v ∈ made

/-- A scope has given a new variable and stays sound. -/
structure Scope.Next (b b' : Scope) (made : List Var) (v : Var) : Prop where
  id_eq : b'.id = b.id
  sound : b'.Sound (made ++ [v])
  scope_eq : v.scope = b.id
  key_ne : ∀ w ∈ made, w.key ≠ v.key

namespace Scope.Sound

variable {b b' : Scope} {made : List Var}

/-- A new scope is sound, as no variable of it has been made. -/
theorem empty (id : Nat) (capturing : Bool) (hid : ∀ v ∈ made, v.scope ≠ id) :
    Scope.Sound { id, capturing } made where
  grown := ⟨{}, .opened, fun v hv h => absurd h (hid v hv)⟩
  vars_made := nofun
  vars_nodup := List.nodup_nil
  ahead := fun v hv h => absurd h (hid v hv)
  reads_made := nofun

/-- Variables of other scopes make no difference. -/
theorem append {new : List Var} (h : b.Sound made) (hnew : ∀ v ∈ new, v.scope ≠ b.id) :
    b.Sound (made ++ new) where
  grown := by
    obtain ⟨history, hgrown, hgiven⟩ := h.grown
    refine ⟨history, hgrown, fun v hv hid => ?_⟩
    exact (List.mem_append.1 hv).elim (hgiven v · hid) fun hv => absurd hid (hnew v hv)
  vars_made := fun v hv => List.mem_append_left _ (h.vars_made v hv)
  vars_nodup := h.vars_nodup
  ahead := fun v hv hid => (List.mem_append.1 hv).elim (h.ahead v · hid) fun hv =>
    absurd hid (hnew v hv)
  reads_made := fun st hst v hv => List.mem_append_left _ (h.reads_made st hst v hv)

/-- The next variable of a scope has a new key. -/
theorem next_key_ne {v : Var} (h : b.Sound made) (hscope : v.scope = b.id)
    (hordinal : v.ordinal = b.nextOrdinal) : ∀ w ∈ made, w.key ≠ v.key := by
  intro w hw hkey
  have hlt := h.ahead w hw ((congrArg Prod.fst hkey).trans hscope)
  have heq : w.ordinal = v.ordinal := congrArg Prod.snd hkey
  omega

/-- A scope that gives its next variable may capture variables that have been made elsewhere. -/
theorem next {v : Var} {history : History} (h : b.Sound made) (captured : List Var)
    (hscope : v.scope = b.id) (hordinal : v.ordinal = b.nextOrdinal) (hid : b'.id = b.id)
    (hnext : b'.nextOrdinal = b.nextOrdinal + 1) (hgrown : Grown b'.id b'.capturing history b')
    (hgiven : ∀ w ∈ made ++ [v], w.scope = b.id → w ∈ history.vars)
    (hperm : b'.vars.Perm (b.vars ++ (captured ++ [v]))) (hnodup : captured.Nodup)
    (hcaptured : ∀ w ∈ captured, w ∈ made ∧ w ∉ b.vars)
    (hreads : ∀ st ∈ b'.statements, ∀ w ∈ st.closure.args, w ∈ made) : b.Next b' made v := by
  have hkey := h.next_key_ne hscope hordinal
  have hnew : v ∉ made := fun hmem => hkey v hmem rfl
  refine ⟨hid, ⟨⟨history, hgrown, hid ▸ hgiven⟩, fun w hw => ?_, ?_, fun w hw hown => ?_,
    fun st hst w hw => List.mem_append_left _ (hreads st hst w hw)⟩, hscope, hkey⟩
  · rcases List.mem_append.1 (hperm.mem_iff.1 hw) with hw | hw
    · exact List.mem_append_left _ (h.vars_made w hw)
    · exact List.mem_append.2 ((List.mem_append.1 hw).imp_left fun hw => (hcaptured w hw).1)
  · -- the new variable has not been captured, since only made ones are
    have hv_captured : v ∉ captured := fun hmem => hnew (hcaptured v hmem).1
    rw [hperm.nodup_iff, List.nodup_append', List.nodup_append']
    refine ⟨h.vars_nodup, ⟨hnodup, List.nodup_singleton v, List.disjoint_singleton.2 hv_captured⟩,
      fun w hw hmem => ?_⟩
    rcases List.mem_append.1 hmem with hmem | hmem
    · exact (hcaptured w hmem).2 hw
    · exact hnew (List.mem_singleton.1 hmem ▸ h.vars_made w hw)
  · rw [hnext]
    rcases List.mem_append.1 hw with hw | hw
    · exact Nat.lt_succ_of_lt (h.ahead w hw (hown.trans hid))
    · rw [List.mem_singleton.1 hw, hordinal]
      exact Nat.lt_succ_self _

/-- A declared parameter is a new variable. -/
theorem addParam {ty : Ty} {v : Var} (h : b.Sound made) (hfunction : b.capturing = false)
    (hv : b.addParam ty = (.ok v, b')) : b.Next b' made v := by
  obtain ⟨history, hgrown, hgiven⟩ := h.grown
  have hdeclared := hgrown.declared hfunction hv
  obtain ⟨hempty, -, hvar, rfl⟩ := Scope.addParam_eq_ok hv
  have hscope : v.scope = b.id := by rw [hvar]
  have hordinal : v.ordinal = b.nextOrdinal := by rw [hvar]
  refine h.next [] hscope hordinal rfl rfl hdeclared (fun w hw hid => ?_) (List.Perm.of_eq ?_)
    List.nodup_nil nofun h.reads_made
  · rcases List.mem_append.1 hw with hw | hw
    · exact (List.mem_append.1 (hgiven w hw hid)).elim
        (fun hw => List.mem_append_left _ (List.mem_append_left _ hw)) (List.mem_append_right _)
    · exact List.mem_append_left _ (List.mem_append_right _ hw)
  · simp [Scope.vars, hempty]

/-- A refused parameter takes an ordinal at most. -/
theorem refuse {ty : Ty} {cause : CompositionError} (h : b.Sound made)
    (hfunction : b.capturing = false) (hv : b.addParam ty = (.error cause, b')) :
    b'.id = b.id ∧ b'.Sound made := by
  obtain ⟨history, hgrown, hgiven⟩ := h.grown
  have hrefused := hgrown.refused hfunction hv
  obtain ⟨nextOrdinal, hle, rfl⟩ := Scope.addParam_eq_error hv
  exact ⟨rfl, ⟨history, hrefused, hgiven⟩, h.vars_made, h.vars_nodup,
    fun v hv hid => Nat.lt_of_lt_of_le (h.ahead v hv hid) hle, h.reads_made⟩

/-- A statement takes what it captures and gives a new variable. -/
theorem assign {e : Expr} {v : Var} (h : b.Sound made) (he : ∀ w ∈ e.vars, w ∈ made)
    (hv : b.assign e = .ok (v, b')) : b.Next b' made v := by
  obtain ⟨history, hgrown, hgiven⟩ := h.grown
  have hassigned := hgrown.assigned (fun w hw hid => hgiven w (he w hw) hid) hv
  obtain ⟨c, -, -, hreads, hv⟩ := Scope.assign_eq_ok hv
  obtain ⟨hvar, rfl⟩ := Scope.assignClosure_eq_ok hv
  have hc : ∀ w ∈ c.args, w ∈ made := fun w hw => he w (List.mem_filter.1 (hreads ▸ hw)).1
  have hscope : v.scope = b.id := by rw [hvar]
  have hordinal : v.ordinal = b.nextOrdinal := by rw [hvar]
  refine h.next (b.captured c) hscope hordinal rfl rfl hassigned (fun w hw hid => ?_) ?_
    (nodup_eraseDups _) (fun w hw => ?_) fun st hst w hw => ?_
  · rw [History.vars, List.map_append, ← List.append_assoc]
    rcases List.mem_append.1 hw with hw | hw
    · exact List.mem_append_left _ (hgiven w hw hid)
    · exact List.mem_append_right _ hw
  · simp only [Scope.vars, Scope.extended, List.map_append, List.map_singleton, List.append_assoc]
    exact List.Perm.append_left _ (List.perm_append_comm_assoc _ _ _)
  · -- a captured variable is no input, and the variables of statements are of this scope
    obtain ⟨hread, hother, hinput⟩ := Scope.mem_captured.1 hw
    refine ⟨hc w hread, fun hmem => (List.mem_append.1 hmem).elim hinput fun hmem => ?_⟩
    obtain ⟨st, hst, rfl⟩ := List.mem_map.1 hmem
    exact hother (hgrown.recorded.wellFormed.own st hst)
  · rcases List.mem_append.1 hst with hst | hst
    · exact h.reads_made st hst w hw
    · rw [List.mem_singleton.1 hst] at hw
      exact hc w hw

/-- What is returned adds nothing to the inputs but what it reads. -/
theorem inputs_of_returned {ret : Expr} {v : Var} (h : b.Sound made)
    (hret : ∀ w ∈ ret.vars, w ∈ made) (hv : b.returned ret = .ok (v, b')) :
    ∀ w ∈ b'.inputs, w ∈ made := by
  rcases Scope.returned_eq_ok hv with ⟨-, -, rfl⟩ | hassign
  · exact fun w hw => h.vars_made w (List.mem_append_left _ hw)
  · obtain ⟨c, -, -, hreads, hassign⟩ := Scope.assign_eq_ok hassign
    obtain ⟨-, rfl⟩ := Scope.assignClosure_eq_ok hassign
    intro w hw
    rcases List.mem_append.1 hw with hw | hw
    · exact h.vars_made w (List.mem_append_left _ hw)
    · have hmem : w ∈ ret.reads := hreads ▸ (Scope.mem_captured.1 hw).1
      exact hret w (List.mem_filter.1 hmem).1

end Scope.Sound

/-! ## Built scopes -/

namespace Scope

variable {b : Scope} {ret : Expr}

/-- The closure of a block reads the inputs that the block has when it is told what to return. -/
theorem args_of_buildBlock {c : Closure} {s s' : Supply} (h : Gives (b.buildBlock ret) s c s') :
    ∃ v next, b.returned ret = .ok (v, next) ∧ c.args = next.inputs := by
  obtain ⟨⟨v, next⟩, _, hreturned, h⟩ := Compose.gives_bind_iff.1 h
  obtain ⟨handle, _, -, h⟩ := Compose.gives_bind_iff.1 h
  exact ⟨v, next, (Compose.gives_lift_iff.1 hreturned).1,
    (Closure.wire_eq_ok_iff.1 (Compose.gives_lift_iff.1 h).1).2⟩

end Scope

/-! ## Sessions -/

namespace Session

/-- What keeps the variables of a session apart. -/
structure Sound (s : Session) : Prop where
  keys_nodup : (s.made.map Var.key).Nodup
  /-- The scopes to come are ahead of those in use. -/
  ahead : ∀ v ∈ s.made, v.scope < s.supply.nextScope
  closures_made : ∀ c ∈ s.closures, ∀ v ∈ c.args, v ∈ s.made
  unifiers_made : ∀ u ∈ s.unifiers, ∀ v ∈ u.vars, v ∈ s.made
  ids_nodup : (s.scopes.map Scope.id).Nodup
  ids_ahead : ∀ b ∈ s.scopes, b.id < s.supply.nextScope
  scopes_sound : ∀ b ∈ s.scopes, b.Sound s.made

namespace Sound

variable {s t : Session} {pre post : List Scope} {b b' : Scope}

/-- At the start nothing has been made. -/
theorem start (supply : Supply) : Sound { supply } where
  keys_nodup := List.nodup_nil
  ahead := nofun
  closures_made := nofun
  unifiers_made := nofun
  ids_nodup := List.nodup_nil
  ids_ahead := nofun
  scopes_sound := nofun

/-- The variables of what the caller can use have been made. -/
theorem made_of_has (h : s.Sound) {e : Expr} (he : s.Has e) : ∀ v ∈ e.vars, v ∈ s.made := by
  cases e with
  | var w =>
    intro v hv
    rw [List.mem_singleton.1 hv]
    exact he
  | closure c => exact h.closures_made c he

/-- Scopes may be opened elsewhere. -/
theorem pass (h : s.Sound) {σ : Supply} (hnext : s.supply.nextScope ≤ σ.nextScope) :
    Sound { s with supply := σ } :=
  { h with
    ahead := fun v hv => Nat.lt_of_lt_of_le (h.ahead v hv) hnext
    ids_ahead := fun b hb => Nat.lt_of_lt_of_le (h.ids_ahead b hb) hnext }

/-- The caller may get one more closure over variables that have been made. -/
theorem addClosure (h : s.Sound) {c : Closure} (hc : ∀ v ∈ c.args, v ∈ s.made) :
    Sound { s with closures := s.closures ++ [c] } :=
  { h with
    closures_made := fun d hd => (List.mem_append.1 hd).elim (h.closures_made d) fun hd => by
      rw [List.mem_singleton.1 hd]
      exact hc }

/-- The caller may get one more unifier of variables that have been made. -/
theorem addUnifier (h : s.Sound) {u : Unifier} (hu : ∀ v ∈ u.vars, v ∈ s.made) :
    Sound { s with unifiers := s.unifiers ++ [u] } :=
  { h with
    unifiers_made := fun u' hu' => (List.mem_append.1 hu').elim (h.unifiers_made u') fun hu' => by
      rw [List.mem_singleton.1 hu']
      exact hu }

/-- New variables of new scopes are told apart from all others by their scopes. -/
theorem addVars (h : s.Sound) {new : List Var} {σ : Supply}
    (hscope : ∀ v ∈ new, s.supply.nextScope ≤ v.scope ∧ v.scope < σ.nextScope)
    (hnodup : (new.map Var.scope).Nodup) (hnext : s.supply.nextScope ≤ σ.nextScope) :
    Sound { s with supply := σ, made := s.made ++ new } := by
  have hkeys : (new.map Var.key).Nodup := by
    refine List.Nodup.of_map Prod.fst ?_
    rwa [List.map_map]
  have hpassed := h.pass hnext
  refine ⟨?_, ?_, fun c hc v hv => List.mem_append_left _ (h.closures_made c hc v hv),
    fun u hu v hv => List.mem_append_left _ (h.unifiers_made u hu v hv), h.ids_nodup,
    hpassed.ids_ahead, fun b hb => (h.scopes_sound b hb).append fun v hv hid => ?_⟩
  · rw [List.map_append, List.nodup_append]
    refine ⟨h.keys_nodup, hkeys, fun k hk k' hk' hkk' => ?_⟩
    -- equal keys have equal scopes, but the new scopes are ahead of those in use
    obtain ⟨v, hv, rfl⟩ := List.mem_map.1 hk
    obtain ⟨w, hw, rfl⟩ := List.mem_map.1 hk'
    have hvw : v.scope = w.scope := congrArg Prod.fst hkk'
    have hlt := h.ahead v hv
    have hle := (hscope w hw).1
    omega
  · exact fun v hv => (List.mem_append.1 hv).elim (hpassed.ahead v) fun hv => (hscope v hv).2
  · have hlt := h.ids_ahead b hb
    have hle := (hscope v hv).1
    omega

/-- Each scope of a sound session is sound. -/
theorem scope_sound (h : s.Sound) (hscopes : s.scopes = pre ++ b :: post) : b.Sound s.made :=
  h.scopes_sound b (by simp [hscopes])

/-- The other scopes have other identities. -/
theorem id_ne_of_mem (h : s.Sound) (hscopes : s.scopes = pre ++ b :: post) :
    ∀ d ∈ pre ++ post, d.id ≠ b.id := by
  have hnodup := h.ids_nodup
  rw [hscopes, List.map_append, List.map_cons, List.nodup_middle, List.nodup_cons] at hnodup
  intro d hd hid
  apply hnodup.1
  rw [← List.map_append, ← hid]
  exact List.mem_map_of_mem hd

/-- A scope may go. -/
theorem drop (h : s.Sound) (hscopes : s.scopes = pre ++ b :: post) :
    Sound { s with scopes := pre ++ post } := by
  have hsub : pre ++ post ⊆ s.scopes := by
    rw [hscopes]
    exact List.append_subset.2 ⟨List.subset_append_left _ _,
      List.Subset.trans (List.subset_cons_self _ _) (List.subset_append_right _ _)⟩
  have hnodup := h.ids_nodup
  rw [hscopes, List.map_append, List.map_cons, List.nodup_middle, List.nodup_cons,
    ← List.map_append] at hnodup
  exact
    { h with
      ids_nodup := hnodup.2
      ids_ahead := fun d hd => h.ids_ahead d (hsub hd)
      scopes_sound := fun d hd => h.scopes_sound d (hsub hd) }

/-- A scope with an identity of its own may come. -/
theorem insert (h : s.Sound) (hscopes : s.scopes = pre ++ post)
    (hne : ∀ d ∈ pre ++ post, d.id ≠ b.id) (hid : b.id < s.supply.nextScope)
    (hb : b.Sound s.made) : Sound { s with scopes := pre ++ b :: post } := by
  have hmem : ∀ d, d ∈ pre ++ b :: post ↔ d = b ∨ d ∈ s.scopes := fun d => by
    rw [List.perm_middle.mem_iff, List.mem_cons, hscopes]
  have hnodup := h.ids_nodup
  rw [hscopes] at hnodup
  -- only the identities of the scopes and their soundness are at stake
  refine { h with ids_nodup := ?_, ids_ahead := ?_, scopes_sound := ?_ }
  · rw [List.map_append, List.map_cons, List.nodup_middle, List.nodup_cons, ← List.map_append]
    refine ⟨fun hmem => ?_, hnodup⟩
    obtain ⟨d, hd, hdb⟩ := List.mem_map.1 hmem
    exact hne d hd hdb
  · intro d hd
    rcases (hmem d).1 hd with rfl | hd
    · exact hid
    · exact h.ids_ahead d hd
  · intro d hd
    rcases (hmem d).1 hd with rfl | hd
    · exact hb
    · exact h.scopes_sound d hd

/-- A scope may be opened. -/
theorem openScope (h : s.Sound) {σ : Supply} {capturing : Bool}
    (hb : b = { id := s.supply.nextScope, capturing }) (hσ : σ = s.supply.openScope) :
    Sound { s with supply := σ, scopes := b :: s.scopes } := by
  subst hb hσ
  have hpassed := h.pass (σ := s.supply.openScope) (Nat.le_succ _)
  exact hpassed.insert (show s.scopes = [] ++ s.scopes from rfl)
    (fun d hd => Nat.ne_of_lt (h.ids_ahead d hd)) (Nat.lt_succ_self _)
    (.empty _ _ fun v hv => Nat.ne_of_lt (h.ahead v hv))

/-- A scope may change without giving a variable. -/
theorem changeScope (h : s.Sound) (hscopes : s.scopes = pre ++ b :: post) (hid : b'.id = b.id)
    (hb' : b'.Sound s.made) : Sound { s with scopes := pre ++ b' :: post } := by
  have hb : b ∈ s.scopes := by simp [hscopes]
  refine (h.drop hscopes).insert rfl ?_ ?_ hb'
  · rw [hid]
    exact h.id_ne_of_mem hscopes
  · rw [hid]
    exact h.ids_ahead b hb

/-- A scope may give a variable. The other scopes look at variables of their own only. -/
theorem nextVar (h : s.Sound) (hscopes : s.scopes = pre ++ b :: post) {v : Var}
    (hnext : b.Next b' s.made v) :
    Sound { s with made := s.made ++ [v], scopes := pre ++ b' :: post } := by
  have hb : b ∈ s.scopes := by simp [hscopes]
  have hne := h.id_ne_of_mem hscopes
  have hrest := h.drop hscopes
  have hmade : Sound { s with made := s.made ++ [v], scopes := pre ++ post } := by
    refine ⟨?_, ?_, fun c hc w hw => List.mem_append_left _ (h.closures_made c hc w hw),
      fun u hu w hw => List.mem_append_left _ (h.unifiers_made u hu w hw), hrest.ids_nodup,
      hrest.ids_ahead, fun d hd => (hrest.scopes_sound d hd).append fun w hw hwd => ?_⟩
    · rw [List.map_append, List.map_singleton, List.nodup_append]
      refine ⟨h.keys_nodup, by simp, fun k hk k' hk' hkk' => ?_⟩
      obtain ⟨w, hw, rfl⟩ := List.mem_map.1 hk
      exact hnext.key_ne w hw (hkk'.trans (List.mem_singleton.1 hk'))
    · intro w hw
      rcases List.mem_append.1 hw with hw | hw
      · exact h.ahead w hw
      · rw [List.mem_singleton.1 hw, hnext.scope_eq]
        exact h.ids_ahead b hb
    · rw [List.mem_singleton.1 hw, hnext.scope_eq] at hwd
      exact hne d hd hwd.symm
  refine hmade.insert rfl ?_ ?_ hnext.sound
  · rw [hnext.id_eq]
    exact hne
  · rw [hnext.id_eq]
    exact h.ids_ahead b hb

/-- The callbacks of a construct find the construct's own variables. -/
theorem enter (h : s.Sound) (k : Control) : (s.enter k).Sound :=
  h.addVars Control.scope_of_mem_locals Control.nodup_scopes_locals Control.nextScope_le_opened

/-- What a construct composes reads variables of its operands and of what its callbacks give. -/
theorem made_of_control (h : s.Sound) (ht : t.Sound) (hsub : s.made ⊆ t.made) {k : Control}
    (hargs : ∀ e ∈ k.operands, s.Has e) {ps : List Closure} {c : Closure} {σ σ' : Supply}
    (hps : Gives (k.pieces s.supply) (k.opened s.supply) ps σ) (hhas : ∀ p ∈ ps, p ∈ t.closures)
    (hc : Gives k.compose s.supply c σ') : ∀ v ∈ c.args, v ∈ t.made := by
  obtain ⟨-, ps', _, hps', -, hmakes⟩ := Control.makes_of_gives hc
  obtain ⟨rfl, -⟩ := hps.unique hps'
  intro v hv
  rcases List.mem_append.1 ((hmakes.args_first.mem_iff v).1 hv) with hv | hv
  · obtain ⟨e, he, hv⟩ := List.mem_flatMap.1 hv
    exact hsub (h.made_of_has (hargs e he) v (List.mem_filter.1 hv).1)
  · obtain ⟨p, hp, hv⟩ := List.mem_flatMap.1 hv
    exact ht.closures_made p (hhas p hp) v (List.mem_filter.1 hv).1

end Sound

/-- Calls keep sessions sound. -/
theorem Leads.sound {s t : Session} (h : Leads s t) (hs : s.Sound) : t.Sound := by
  induction h with
  | refl => exact hs
  | passed _ hnext ih => exact (ih hs).pass hnext
  | @operated s t c _ op hargs hc ih =>
    have hreads : Closure.ReadsOnly (· ∈ t.made) op.run :=
      op.readsOnly fun e he => (ih hs).made_of_has (hargs e he)
    exact (ih hs).addClosure (hreads c hc)
  | unified _ sources hsources ih =>
    refine (ih hs).addUnifier fun v hv => ?_
    obtain ⟨source, hsource, hv⟩ := Unifier.mem_vars_ofSources.1 hv
    exact hsources source hsource v hv
  | aligned _ hu hc hd ih =>
    refine (ih hs).addClosure fun v hv => ?_
    rw [(Unifier.align_eq_ok hd).2.2] at hv
    rcases List.mem_append.1 hv with hv | hv
    · exact (ih hs).closures_made _ hc v (List.mem_of_mem_take hv)
    · exact (ih hs).unifiers_made _ hu v hv
  | entered _ k _ _ ih => exact (ih hs).enter k
  | @controlled s t u ps c σ _ k hargs hu hps hhas hc ih ihu =>
    have ht : t.Sound := ih hs
    have hu' : u.Sound := ihu (ht.enter k)
    have hsub : t.made ⊆ u.made := fun v hv => hu.made_subset (List.mem_append_left _ hv)
    have hsame : u.supply.nextScope ≤ σ.nextScope :=
      Nat.le_of_eq (Control.nextScope_of_gives hc hps).symm
    exact (hu'.addClosure (ht.made_of_control hu' hsub hargs hps hhas hc)).pass hsame
  | openedFunction _ hb ih =>
    obtain ⟨id, σ, hid, hb⟩ := Compose.gives_bind_iff.1 hb
    obtain ⟨rfl, rfl⟩ := Compose.gives_freshScope_iff.1 hid
    obtain ⟨hb, hσ⟩ := Compose.gives_pure_iff.1 hb
    exact (ih hs).openScope hb hσ
  | openedBlock _ hb ih =>
    obtain ⟨id, σ, hid, hb⟩ := Compose.gives_bind_iff.1 hb
    obtain ⟨rfl, rfl⟩ := Compose.gives_freshScope_iff.1 hid
    obtain ⟨hb, hσ⟩ := Compose.gives_pure_iff.1 hb
    exact (ih hs).openScope hb hσ
  | declared _ hscopes hfunction hv ih =>
    have hb := (ih hs).scope_sound hscopes
    exact (ih hs).nextVar hscopes (hb.addParam hfunction hv)
  | refused _ hscopes hfunction hv ih =>
    have hb := (ih hs).scope_sound hscopes
    obtain ⟨hid, hsound⟩ := hb.refuse hfunction hv
    exact (ih hs).changeScope hscopes hid hsound
  | assigned _ hscopes he hv ih =>
    have hb := (ih hs).scope_sound hscopes
    exact (ih hs).nextVar hscopes (hb.assign ((ih hs).made_of_has he) hv)
  | builtFunction _ hscopes _ hh ih =>
    have hsame := Nat.le_of_eq (Scope.opensNone_buildFunction.nextScope_eq hh).symm
    exact ((ih hs).drop hscopes).pass hsame
  | builtBlock _ hscopes hret hc ih =>
    have hb := (ih hs).scope_sound hscopes
    have hsame := Nat.le_of_eq (Scope.opensNone_buildBlock.nextScope_eq hc).symm
    obtain ⟨v, next, hnext, hargs⟩ := Scope.args_of_buildBlock hc
    refine (((ih hs).drop hscopes).addClosure ?_).pass hsame
    rw [hargs]
    exact hb.inputs_of_returned ((ih hs).made_of_has hret) hnext
  | dropped _ hscopes ih => exact (ih hs).drop hscopes

/-- A variable that a caller can come across. -/
inductive Occurs (s : Session) (v : Var) : Prop
  | made (hv : v ∈ s.made)
  | closure {c : Closure} (hc : c ∈ s.closures) (hv : v ∈ c.args)
  | unifier {u : Unifier} (hu : u ∈ s.unifiers) (hv : v ∈ u.vars)
  | scope {b : Scope} (hb : b ∈ s.scopes) (hv : v ∈ b.vars)
  | statement {b : Scope} {st : Statement} (hb : b ∈ s.scopes) (hst : st ∈ b.statements)
      (hv : v ∈ st.closure.args)

/-- Wherever a variable occurs, a call has made it. -/
theorem Sound.made_of_occurs {s : Session} {v : Var} (h : s.Sound) (hv : s.Occurs v) :
    v ∈ s.made := by
  cases hv with
  | made hv => exact hv
  | closure hc hv => exact h.closures_made _ hc v hv
  | unifier hu hv => exact h.unifiers_made _ hu v hv
  | scope hb hv => exact (h.scopes_sound _ hb).vars_made v hv
  | statement hb hst hv => exact (h.scopes_sound _ hb).reads_made _ hst v hv

/-- One call at most makes a variable with a given key. -/
theorem Sound.call_unique {s : Session} {v w : Var} {i j : Nat} (h : s.Sound)
    (hv : s.made[i]? = some v) (hw : s.made[j]? = some w) (hkey : v.key = w.key) : i = j := by
  have hi := List.getElem?_map (f := Var.key) (l := s.made) (i := i)
  have hj := List.getElem?_map (f := Var.key) (l := s.made) (i := j)
  rw [hv] at hi
  rw [hw] at hj
  obtain ⟨hlt, -⟩ := List.getElem?_eq_some_iff.1 hi
  refine (List.getElem?_inj hlt h.keys_nodup).1 ?_
  rw [hi, hj]
  exact congrArg some hkey

/-- In every session, the arguments of closures fit the parameters of their handles, of which none
is void; the variables of a scope have different keys; and variables that have one key, wherever
they occur, are the variable of one call, the only one that has made a variable with this key. -/
theorem keys_identify {supply : Supply} {s : Session} (hs : Leads { supply } s) :
    (∀ c ∈ s.closures, c.args.length = c.handle.params.length ∧
      ∀ (i : Nat) (v : Var), c.args[i]? = some v → c.handle.params[i]? = some v.ty) ∧
    (∀ h : Handle, Ty.void ∉ h.params) ∧
    (∀ b ∈ s.scopes, (b.vars.map Var.key).Nodup) ∧
    ∀ v w, s.Occurs v → s.Occurs w → v.key = w.key →
      (∃ call : Nat, s.made[call]? = some v ∧ s.made[call]? = some w ∧
        ∀ (other : Nat) (u : Var), s.made[other]? = some u → u.key = v.key → other = call) ∧
      v.ty = w.ty ∧ v.isParam = w.isParam := by
  have hsound := hs.sound (.start supply)
  have hsame : ∀ v w, s.Occurs v → s.Occurs w → v.key = w.key →
      ∃ call : Nat, s.made[call]? = some v ∧ s.made[call]? = some w ∧
        ∀ (other : Nat) (u : Var), s.made[other]? = some u → u.key = v.key → other = call := by
    intro v w hv hw hkey
    obtain ⟨i, hi⟩ := List.getElem?_of_mem (hsound.made_of_occurs hv)
    obtain ⟨j, hj⟩ := List.getElem?_of_mem (hsound.made_of_occurs hw)
    obtain rfl := hsound.call_unique hi hj hkey
    exact ⟨i, hi, hj, fun other u hu huv => hsound.call_unique hu hi huv⟩
  refine ⟨fun c _ => ⟨c.length_args, fun i v hv => ?_⟩, fun h => h.sig.noVoid, fun b hb => ?_,
    fun v w hv hw hkey => ?_⟩
  · rw [← c.typed, List.getElem?_map, hv]
    rfl
  · refine List.Nodup.map_on (fun v hv w hw hkey => ?_) (hsound.scopes_sound b hb).vars_nodup
    obtain ⟨call, hcall, hcall', -⟩ := hsame v w (.scope hb hv) (.scope hb hw) hkey
    exact Option.some.inj (hcall.symm.trans hcall')
  · obtain ⟨call, hcall, hcall', hother⟩ := hsame v w hv hw hkey
    obtain rfl := Option.some.inj (hcall.symm.trans hcall')
    exact ⟨⟨call, hcall, hcall', hother⟩, rfl, rfl⟩

/-- A function with a parameter assigns a loop over it, whose callbacks use the parameter and the
loop's own variable. -/
theorem keys_identify_in_loop :
    let p : Var := ⟨1, 0, true, .int⟩
    let state : Var := ⟨2, 0, true, .int⟩
    let result : Var := ⟨1, 1, false, .int⟩
    ∃ s : Session, Leads { supply := {} } s ∧ s.made = [p, state, result] ∧
      s.closures.length = 3 ∧ (∃ b ∈ s.scopes, b.vars = [p, result]) ∧
      ∀ v, s.Occurs v → v.key = (1, 0) → v = p := by
  intro p state result
  let handle (f : Stock) (ret : Ty) : Handle :=
    .prim ⟨[.int, .int], ret, by decide⟩ (f.runTagged none)
  let pred : Closure := ⟨handle .less .bool, [state, p], rfl⟩
  let body : Closure := ⟨handle .add .int, [state, p], rfl⟩
  let k : Control := .whileLoop (.var p) (fun v => Closure.wire (handle .less .bool) [v, p])
    fun v => Closure.wire (handle .add .int) [v, p]
  have hopened : Leads { supply := {} }
      { supply := Supply.openScope {}, scopes := [⟨1, false, [], [], 0⟩] } :=
    .openedFunction .refl rfl
  have hdeclared : Leads { supply := {} }
      { supply := Supply.openScope {}, made := [p], scopes := [⟨1, false, [p], [], 1⟩] } :=
    .declared hopened (show _ = [] ++ _ :: [] from rfl) rfl
      (show Scope.addParam _ .int = _ from rfl)
  -- the callbacks wire handles to the state and the parameter
  have hpieces : Leads
      { supply := (Supply.openScope {}).openScope, made := [p, state],
        scopes := [⟨1, false, [p], [], 1⟩] }
      { supply := (Supply.openScope {}).openScope, made := [p, state], closures := [pred, body],
        scopes := [⟨1, false, [p], [], 1⟩] } := by
    have hmade : ∀ v ∈ [state, p], v ∈ [p, state] := by decide
    refine .operated (.operated .refl (.wire (handle .less .bool) [state, p]) ?_ rfl)
      (.wire (handle .add .int) [state, p]) ?_ rfl
    all_goals
      intro e he
      obtain ⟨v, hv, rfl⟩ := List.mem_map.1 he
      exact hmade v hv
  have hgiven : Gives (k.pieces (Supply.openScope {})) (k.opened (Supply.openScope {}))
      [pred, body] (Supply.openScope {}).openScope := rfl
  have hadmits : k.Admits := (by decide : Ty.int ≠ .void)
  obtain ⟨c, hmakes, hc⟩ := Control.exists_made hadmits hgiven
  obtain ⟨σ, hσ⟩ := (hc c).2 ⟨rfl, rfl⟩
  have hcontrolled : Leads { supply := {} }
      { supply := σ, made := [p, state], closures := [pred, body, c],
        scopes := [⟨1, false, [p], [], 1⟩] } :=
    .controlled hdeclared k (List.forall_mem_singleton.2 List.mem_cons_self) hpieces hgiven
      (fun q hq => hq) hσ
  have hargs : c.args = [p] := hmakes.args_first.eq_eraseDups
  let b : Scope := ⟨1, false, [p], [⟨result, c⟩], 2⟩
  have hassigned : Leads { supply := {} }
      { supply := σ, made := [p, state, result], closures := [pred, body, c], scopes := [b] } := by
    refine .assigned hcontrolled (show _ = [] ++ _ :: [] from rfl)
      (show Has _ (.closure c) by simp [Has]) ?_
    have hty : c.ty = .int := hmakes.ty_eq
    change Scope.assignClosure _ c = .ok (result, b)
    simp [Scope.assignClosure, Scope.foreign, hargs, hty, p, result, b]
  obtain ⟨-, -, -, hkeys⟩ := keys_identify hassigned
  refine ⟨_, hassigned, rfl, rfl, ⟨b, List.mem_singleton.2 rfl, rfl⟩, fun v hv hkey => ?_⟩
  obtain ⟨⟨call, hcall, hcall', -⟩, -⟩ := hkeys v p hv (.made List.mem_cons_self) hkey
  exact Option.some.inj (hcall.symm.trans hcall')

end Session

end Splice
