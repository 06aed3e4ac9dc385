import NativeClass.Proofs.Inference.EveryUnion
/-!
# Stored values fit

A store into an attribute of the receiver leaves the attribute with a type that has a place for the value. Later
stores only widen the type, and so the value still has a place when the body ends.

* `Inference.storedValues`: the values that a statement stores into attributes.
* `Inference.Holds`: an attribute has a place for a value.
* `Inference.Follows`: what a part of a walk leaves of such places.
* **`Inference.holds_of_visit`**: the stores of one statement.
* **`Inference.holds_of_walkAll`**, `Inference.holds_inferMethod`: the stores of a body, when the walk has ended.
-/

namespace NativeClass.Inference

open Python (Expr Stmt)

/-! ## Values -/

/-- The attribute of the receiver that a store goes to, and the type of its value. -/
def Write.attribute? : Write → Option (String × Ty)
  | .toAttribute _ name value _ => some (name, value)
  | _ => none

/-- The statement stores with a type hint. -/
def isHinted : Stmt → Bool
  | .annotated .. => true
  | _ => false

/-- The values that a statement without its blocks stores into attributes of the receiver: the names of the
attributes and the types of the values. A type hint stands at a single target. -/
def storedValues (c : BodyContext) (s : Scope) : Stmt → Except TypingFailure (List (String × Ty))
  | .annotated _ (.attribute _ object attr) _ (some value) =>
    if c.isReceiver object then do
      let ty ← typeOf c s value
      return [(attr, ty)]
    else return []
  | .annotated .. => return []
  | stmt => do
    let ws ← writes c s stmt
    return ws.filterMap Write.attribute?

/-- The value of a store into an attribute has been compared with the type that the attribute has in the end: the
store has no type hint of its own, and the attribute is not widened any more. -/
def BodyContext.checks (c : BodyContext) (isHinted : Bool) (v : Variable) : Bool :=
  !isHinted && !(c.mayDefine && v.promotable)

/-- An attribute has a place for the value of a store. -/
def Holds (c : BodyContext) (v : Variable) (isHinted : Bool) (ty : Ty) : Prop :=
  v.ty.Covers (c.checks isHinted v) c.promote ty

variable {c : BodyContext} {s s' s'' : Scope} {v : Variable} {ty : Ty}

/-! ## Parts of a walk -/

/-- What a part of a walk does to a scope: attributes are only widened, and each new type has a place for the
values of the old one. -/
structure Follows (c : BodyContext) (s s' : Scope) : Prop where
  keeps : c.Keeps s.symbols s'.symbols
  unions : s'.EveryUnion (· ≠ [])
  admits : ∀ name v v', s.symbols.get? name = some v → s'.symbols.get? name = some v' →
    v'.ty.Admits c.promote v.ty

namespace Follows

theorem of_eq (hs : s'.EveryUnion (· ≠ [])) (h : s'.symbols = s.symbols) : Follows c s s' where
  keeps := h ▸ .refl c _
  unions := hs
  admits name v v' hv hv' := by
    rw [h, hv, Option.some.injEq] at hv'
    exact hv' ▸ .refl _

theorem trans (hs : s.EveryUnion (· ≠ [])) (h : Follows c s s') (h' : Follows c s' s'') : Follows c s s'' where
  keeps := h.keeps.trans h'.keeps
  unions := h'.unions
  admits name v v'' hv hv'' := by
    obtain ⟨v', hv', -⟩ := h.keeps.1.known name v hv
    exact (h'.admits name v' v'' hv' hv'').trans (h'.unions.symbols name v'' hv'')
      (h.unions.symbols name v' hv') (hs.symbols name v hv) (h.admits name v v' hv hv')

theorem holds (h : Follows c s s') (hs : s.EveryUnion (· ≠ [])) (hty : ty.NoEmptyUnion) {name : String}
    {isHinted : Bool} (hv : s.symbols.get? name = some v) (hholds : Holds c v isHinted ty) :
    ∃ v', s'.symbols.get? name = some v' ∧ Holds c v' isHinted ty := by
  obtain ⟨v', hv', hw⟩ := h.keeps.1.known name v hv
  have hadmits : v'.ty.Admits c.promote ty :=
    (h.admits name v v' hv hv').trans (h.unions.symbols name v' hv') (hs.symbols name v hv) hty hholds.admits
  refine ⟨v', hv', hadmits.covers fun hchecks => ?_⟩
  -- a value that has been compared is in an attribute that nothing widens any more
  have hsame : v' = v := by
    cases hdef : c.mayDefine with
    | true =>
      have hfixed : v'.promotable = false := by
        simpa [BodyContext.checks, hdef] using (Bool.and_eq_true_iff.mp hchecks).2
      exact hw.eq (hw.promotable ▸ hfixed)
    | false =>
      rw [h.keeps.2 hdef, hv, Option.some.injEq] at hv'
      exact hv'.symm
  subst hsame
  exact hholds.fits (Or.inl hchecks)

end Follows

theorem follows_foldlM {β : Type} {f : Scope → β → Except Halt Scope} {xs : List β}
    (hs : s.EveryUnion (· ≠ []))
    (step : ∀ x ∈ xs, ∀ s s', s.EveryUnion (· ≠ []) → f s x = .ok s' → Follows c s s')
    (h : xs.foldlM f s = .ok s') : Follows c s s' := by
  refine (ensures_foldlM (E := fun _ => True) (fun _ => Follows c s) (.of_eq hs rfl) ?_).of_ok h
  intro dealt x rest s₁ hxs hs₁
  cases hstep : f s₁ x with
  | error halt => trivial
  | ok s₂ =>
    have hx : x ∈ xs := hxs ▸ List.mem_append_right dealt List.mem_cons_self
    exact hs₁.trans hs (step x hx s₁ s₂ hs₁.unions hstep)

/-! ## Stores -/

theorem admits_of_attributeStore {name : String} {value : Ty} {isAnnotated : Bool} (hs : s.EveryUnion (· ≠ []))
    (hvalue : value.NoEmptyUnion) (h : AttributeStore c s name value isAnnotated s') :
    ∀ k v v', s.symbols.get? k = some v → s'.symbols.get? k = some v' → v'.ty.Admits c.promote v.ty := by
  intro k v v' hv hv'
  cases h with
  | fits =>
    rw [hv, Option.some.injEq] at hv'
    exact hv' ▸ .refl _
  | @widened w hw =>
    rw [Scope.setAttribute, OrderedMap.get?_insert] at hv'
    split at hv'
    next hk =>
      cases hv'
      rw [hk, hw, Option.some.injEq] at hv
      exact hv ▸ Ty.admits_join_left (hs.symbols name w hw) hvalue
    · rw [hv, Option.some.injEq] at hv'
      exact hv' ▸ .refl _
  | introduced hnone =>
    have hk : k ≠ name := fun e => by simp [e, hnone] at hv
    rw [Scope.setAttribute, OrderedMap.get?_insert, if_neg hk, hv, Option.some.injEq] at hv'
    exact hv' ▸ .refl _

/-- After a store the attribute has a place for the value. -/
theorem holds_of_attributeStore {name : String} {value : Ty} {isAnnotated : Bool} (hs : s.EveryUnion (· ≠ []))
    (hvalue : value.NoEmptyUnion) (h : AttributeStore c s name value isAnnotated s') :
    ∃ v, s'.symbols.get? name = some v ∧ Holds c v false value := by
  cases h with
  | fits hv h => exact ⟨_, hv, Ty.covers_of_isAssignableFrom h⟩
  | @widened v hv hdef hopen =>
    refine ⟨_, OrderedMap.get?_insert_self _ _ _, ?_⟩
    refine (Ty.admits_join_right (hs.symbols name v hv) hvalue).covers fun hchecks => ?_
    simp [BodyContext.checks, hdef, hopen] at hchecks
  | introduced =>
    refine ⟨_, OrderedMap.get?_insert_self _ _ _, ?_⟩
    have hself : value.isAssignableFrom value c.promote := by
      rw [Ty.isAssignableFrom, Ty.isSubtype_refl, Bool.true_or]
    cases isAnnotated <;> exact Ty.covers_of_isAssignableFrom hself

theorem follows_write (hs : s.EveryUnion (· ≠ [])) {w : Write} (hw : w.EveryUnion (· ≠ []))
    (h : write c s w = .ok s') : Follows c s s' := by
  have hs' : s'.EveryUnion (· ≠ []) := (ensures_write unionClosed_ne_nil hs hw).of_ok h
  cases w with
  | toLocal =>
    cases h
    exact .of_eq hs' rfl
  | elsewhere target =>
    rw [write] at h
    obtain ⟨_, -, h⟩ := bind_eq_ok_iff.mp h
    cases h
    exact .of_eq hs' rfl
  | toAttribute span name value isAnnotated =>
    rw [write] at h
    have hkeeps := ((stores_assignAttribute c s span name value isAnnotated).of_ok h).1
    exact ⟨hkeeps, hs', admits_of_attributeStore hs hw (attributeStore_of_ok (attempt_eq_ok_iff.mp h))⟩

theorem holds_of_foldlM_write {ws : List Write} (hs : s.EveryUnion (· ≠ []))
    (hws : ∀ w ∈ ws, w.EveryUnion (· ≠ [])) (h : ws.foldlM (write c) s = .ok s') :
    ∀ x ∈ ws.filterMap Write.attribute?, ∃ v, s'.symbols.get? x.1 = some v ∧ Holds c v false x.2 := by
  intro x hx
  obtain ⟨w, hw, hwx⟩ := List.mem_filterMap.mp hx
  -- the place is there right after the write, and the writes that follow keep it
  obtain ⟨before, after, rfl⟩ := List.append_of_mem hw
  obtain ⟨hbeforeUnions, hrest⟩ := List.forall_mem_append.mp hws
  obtain ⟨hwUnions, hafterUnions⟩ := List.forall_mem_cons.mp hrest
  rw [List.foldlM_append] at h
  obtain ⟨s₁, hbefore, h⟩ := bind_eq_ok_iff.mp h
  rw [List.foldlM_cons] at h
  obtain ⟨s₂, hwrite, hafter⟩ := bind_eq_ok_iff.mp h
  have hs₁ : s₁.EveryUnion (· ≠ []) :=
    (follows_foldlM hs (fun w hw _ _ hs h => follows_write hs (hbeforeUnions w hw) h) hbefore).unions
  have hs₂ : Follows c s₁ s₂ := follows_write hs₁ hwUnions hwrite
  cases w with
  | toLocal | elsewhere => cases hwx
  | toAttribute span name value isAnnotated =>
    cases hwx
    rw [write, attempt_eq_ok_iff] at hwrite
    obtain ⟨v, hv, hholds⟩ := holds_of_attributeStore hs₁ hwUnions (attributeStore_of_ok hwrite)
    have hfollows : Follows c s₂ s' :=
      follows_foldlM hs₂.unions (fun w hw _ _ hs h => follows_write hs (hafterUnions w hw) h) hafter
    exact hfollows.holds hs₂.unions hwUnions hv hholds

/-! ## Statements -/

theorem follows_visit (hc : c.methods.EveryUnion (· ≠ [])) (hs : s.EveryUnion (· ≠ [])) {stmt : Stmt}
    (h : visit c s stmt = .ok s') : Follows c s s' := by
  rcases visit_eq_foldlM c s stmt with ⟨span, value, rfl⟩ | hvisit
  · have hs' : s'.EveryUnion (· ≠ []) := (ensures_visit unionClosed_ne_nil hc hs _).of_ok h
    rw [visit_ret] at h
    obtain ⟨ty, -, h⟩ := bind_eq_ok_iff.mp h
    cases h
    exact .of_eq hs' rfl
  · rw [hvisit] at h
    obtain ⟨ws, hws, h⟩ := bind_eq_ok_iff.mp h
    have hunions := (ensures_writes unionClosed_ne_nil hc hs stmt).of_ok (attempt_eq_ok_iff.mp hws)
    exact follows_foldlM hs (fun w hw _ _ hs h => follows_write hs (hunions w hw) h) h

theorem storedValues_of_not_isHinted {stmt : Stmt} {ws : List Write} (h : isHinted stmt = false)
    (hwrites : writes c s stmt = .ok ws) : storedValues c s stmt = .ok (ws.filterMap Write.attribute?) := by
  rw [storedValues, hwrites]
  · rfl
  all_goals
    intros
    subst_vars
    cases h

theorem holds_of_annotated (hc : c.methods.EveryUnion (· ≠ [])) (hs : s.EveryUnion (· ≠ []))
    {span aspan : Python.Span} {object hint value : Expr} {attr : String} {ws : List Write}
    (hwrites : writes c s (.annotated span (.attribute aspan object attr) hint (some value)) = .ok ws)
    (hholds : ∀ x ∈ ws.filterMap Write.attribute?, ∃ v, s'.symbols.get? x.1 = some v ∧ Holds c v false x.2)
    (hs' : s'.EveryUnion (· ≠ [])) (hobject : c.isReceiver object) :
    ∃ ty v, typeOf c s value = .ok ty ∧ s'.symbols.get? attr = some v ∧ Holds c v true ty := by
  obtain ⟨_, hcheck, hws⟩ := bind_eq_ok_iff.mp hwrites
  cases hws
  obtain ⟨ty, hty, hfits⟩ := bind_eq_ok_iff.mp hcheck
  obtain ⟨v, hv, hhinted⟩ := hholds (attr, .ofHint hint) (by simp [targetWrites, hobject, Write.attribute?])
  refine ⟨ty, v, hty, hv, Ty.Admits.covers ?_ nofun⟩
  split at hfits
  next hassignable =>
    have hhintUnions := Ty.everyUnion_ofHint unionClosed_ne_nil hint
    have htyUnions := (ensures_typeOf unionClosed_ne_nil hc hs value).of_ok hty
    exact hhinted.admits.trans (hs'.symbols attr v hv) hhintUnions htyUnions
      (Ty.admits_of_isAssignableFrom hassignable)
  · cases hfits

/-- The stores of a statement by what the writes into its targets leave. -/
theorem holds_of_writes (hc : c.methods.EveryUnion (· ≠ [])) (hs : s.EveryUnion (· ≠ [])) {stmt : Stmt}
    {ws : List Write} (hwrites : writes c s stmt = .ok ws)
    (hholds : ∀ x ∈ ws.filterMap Write.attribute?, ∃ v, s'.symbols.get? x.1 = some v ∧ Holds c v false x.2)
    (hs' : s'.EveryUnion (· ≠ [])) :
    ∃ stores, storedValues c s stmt = .ok stores ∧
      ∀ x ∈ stores, ∃ v, s'.symbols.get? x.1 = some v ∧ Holds c v (isHinted stmt) x.2 := by
  cases hhint : isHinted stmt with
  | false => exact ⟨_, storedValues_of_not_isHinted hhint hwrites, hholds⟩
  | true =>
    have hnone : ∃ stores : List (String × Ty), pure [] = Except.ok stores (ε := TypingFailure) ∧
        ∀ x ∈ stores, ∃ v, s'.symbols.get? x.1 = some v ∧ Holds c v true x.2 :=
      ⟨[], rfl, List.forall_mem_nil _⟩
    cases stmt with
    | annotated span target hint value =>
      cases value with
      | none =>
        cases target <;> exact hnone
      | some value =>
        cases target with
        | «attribute» aspan object attr =>
          rw [storedValues]
          split
          next hobject =>
            obtain ⟨ty, v, hty, hv, hplace⟩ := holds_of_annotated hc hs hwrites hholds hs' hobject
            exact ⟨[(attr, ty)], by rw [hty]; rfl, List.forall_mem_singleton.mpr ⟨v, hv, hplace⟩⟩
          · exact hnone
        | _ => exact hnone
    | _ => cases hhint

theorem ensures_storedValues {Q : List Ty → Prop} (hQ : UnionClosed Q) (hc : c.methods.EveryUnion Q)
    (hs : s.EveryUnion Q) (stmt : Stmt) :
    Ensures (storedValues c s stmt) (fun stores => ∀ x ∈ stores, x.2.EveryUnion Q) fun _ => True := by
  unfold storedValues
  split
  next value =>
    split
    · exact (ensures_typeOf hQ hc hs value).bind fun ty hty => ensures_ok.mpr (List.forall_mem_singleton.mpr hty)
    · exact ensures_ok.mpr (List.forall_mem_nil _)
  · exact ensures_ok.mpr (List.forall_mem_nil _)
  · refine (ensures_writes hQ hc hs stmt).bind fun ws hws => ensures_ok.mpr fun x hx => ?_
    obtain ⟨w, hw, hwx⟩ := List.mem_filterMap.mp hx
    cases w with
    | toLocal | elsewhere => cases hwx
    | toAttribute =>
      cases hwx
      exact hws _ hw

/-- **After a statement the attributes have places for the values that it stores.** -/
theorem holds_of_visit (hc : c.methods.EveryUnion (· ≠ [])) (hs : s.EveryUnion (· ≠ [])) {stmt : Stmt}
    (h : visit c s stmt = .ok s') :
    ∃ stores, storedValues c s stmt = .ok stores ∧
      ∀ x ∈ stores, ∃ v, s'.symbols.get? x.1 = some v ∧ Holds c v (isHinted stmt) x.2 := by
  have hs' : s'.EveryUnion (· ≠ []) := (ensures_visit unionClosed_ne_nil hc hs stmt).of_ok h
  rcases visit_eq_foldlM c s stmt with ⟨span, value, rfl⟩ | hvisit
  · rw [visit_ret] at h
    obtain ⟨ty, hty, -⟩ := bind_eq_ok_iff.mp h
    have hwrites : writes c s (.ret span value) = .ok [] := by
      rw [writes, attempt_eq_ok_iff.mp hty]
      rfl
    exact holds_of_writes hc hs hwrites (List.forall_mem_nil _) hs'
  · rw [hvisit] at h
    obtain ⟨ws, hws, h⟩ := bind_eq_ok_iff.mp h
    have hwrites := attempt_eq_ok_iff.mp hws
    have hunions := (ensures_writes unionClosed_ne_nil hc hs stmt).of_ok hwrites
    exact holds_of_writes hc hs hwrites (holds_of_foldlM_write hs hunions h) hs'

/-- **When a walk has ended, the attributes have places for the values that each statement stores.** -/
theorem holds_of_walkAll (hc : c.methods.EveryUnion (· ≠ [])) (hs : s.EveryUnion (· ≠ []))
    {block before after : List Stmt} {stmt : Stmt} {last : Scope} (h : walkAll c s block = .ok last)
    (hsplit : reached block = before ++ stmt :: after) :
    ∃ s₁ stores, before.foldlM (visit c) s = .ok s₁ ∧ storedValues c s₁ stmt = .ok stores ∧
      ∀ x ∈ stores, ∃ v, last.symbols.get? x.1 = some v ∧ Holds c v (isHinted stmt) x.2 := by
  obtain ⟨s₁, s₂, hbefore, hvisit, hafter⟩ := exists_visit_of_walkAll h hsplit
  have hs₁ : s₁.EveryUnion (· ≠ []) := (ensures_foldlM_visit unionClosed_ne_nil hc hs before).of_ok hbefore
  obtain ⟨stores, hstores, hholds⟩ := holds_of_visit hc hs₁ hvisit
  refine ⟨s₁, stores, hbefore, hstores, fun x hx => ?_⟩
  obtain ⟨v, hv, hplace⟩ := hholds x hx
  have hx₂ : x.2.NoEmptyUnion := (ensures_storedValues unionClosed_ne_nil hc hs₁ stmt).of_ok hstores x hx
  have hs₂ : s₂.EveryUnion (· ≠ []) := (ensures_visit unionClosed_ne_nil hc hs₁ stmt).of_ok hvisit
  have hfollows : Follows c s₂ last := follows_foldlM hs₂ (fun _ _ _ _ hs h => follows_visit hc hs h) hafter
  exact hfollows.holds hs₂ hx₂ hv hplace

/-- The values that a method stores have places in the attributes that inference leaves. -/
theorem holds_inferMethod {r : TypingRequest} {body : FunctionBody} {t : Typing}
    (hunions : r.EveryUnion (· ≠ [])) (hbody : r.method.func.body = some body)
    (h : (inferMethod r).result = .ok t) {before after : List Stmt} {stmt : Stmt}
    (hsplit : reached body.statements = before ++ stmt :: after) :
    ∃ s stores, before.foldlM (visit (bodyContext r body.lines)) (initialScope r) = .ok s ∧
      storedValues (bodyContext r body.lines) s stmt = .ok stores ∧
      ∀ x ∈ stores, ∃ v, (inferMethod r).symbols.get? x.1 = some v ∧
        Holds (bodyContext r body.lines) v (isHinted stmt) x.2 := by
  simp only [inferMethod, hbody, inferBody] at h ⊢
  split at h
  · cases h
  next last hwalk =>
    exact holds_of_walkAll hunions.methods (everyUnion_initialScope hunions) hwalk hsplit

end NativeClass.Inference
