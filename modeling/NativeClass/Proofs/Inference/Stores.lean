import Mathlib.Logic.Relation
import NativeClass.Inference.Body
import NativeClass.Proofs.Ensures
import NativeClass.Proofs.OrderedMap
/-!
# The attribute stores of a body

A walk over a body changes the symbol table only by stores into attributes of the receiver, and such a store
only appends a new attribute or widens one that may be widened.

* `blockStores`, `Function.attributeStores`: the attributes that a body stores into, in the order of the walk.
* `SymbolTable.Grows`: what a body may do to a symbol table.
* `Inference.Stores`: what a part of a walk does to it; `Stores.bind` puts parts together.
* **`Inference.stores_walkAll`**: a walk over a block stores into the attributes of the block.
* **`Inference.keeps_inferMethod`**, **`Inference.keys_inferMethod`**: the symbol table after a method.
-/

namespace NativeClass

open Python (Expr Stmt)

/-! ## Stores as they are written -/

mutual

/-- The attributes of the receiver among the parts of a target, from left to right. -/
def targetStores (receiver : Option String) : Expr → List String
  | .tuple _ elems => targetsStores receiver elems
  | .attribute _ (.name _ id) attr => if receiver = some id then [attr] else []
  | _ => []

/-- The attributes of the receiver among several targets. -/
def targetsStores (receiver : Option String) : List Expr → List String
  | [] => []
  | t :: ts => targetStores receiver t ++ targetsStores receiver ts

end

mutual

/-- The attributes of the receiver that a statement stores into. -/
def stmtStores (receiver : Option String) : Stmt → List String
  | .assign _ targets _ => targetsStores receiver targets
  | .annotated _ target _ _ | .augmented _ target _ _ => targetStores receiver target
  | .branch _ _ body orelse | .whileLoop _ _ body orelse =>
    blockStores receiver body ++ blockStores receiver orelse
  | .forLoop _ target _ body orelse =>
    targetStores receiver target ++ (blockStores receiver body ++ blockStores receiver orelse)
  | _ => []

/-- The attributes of the receiver that the statements of a block store into. -/
def blockStores (receiver : Option String) : List Stmt → List String
  | [] => []
  | stmt :: rest => stmtStores receiver stmt ++ blockStores receiver rest

end

/-- The attributes of its receiver that a function stores into, in the order of the text. -/
def Function.attributeStores (f : Function) : List String :=
  match f.body with
  | some body => blockStores (Inference.receiverName? f) body.statements
  | none => []

/-! ## Growth -/

/-- The later state `v'` of an attribute: its type may have been joined with others if it may be widened. -/
structure Variable.Widens (promote : Bool) (v v' : Variable) : Prop where
  origin : v'.origin = v.origin
  promotable : v'.promotable = v.promotable
  fixed : v.promotable = false → v'.ty = v.ty
  ty : Relation.ReflTransGen (fun a b => ∃ t, b = Ty.join a t promote) v.ty v'.ty

/-- The state in which a body introduces an attribute: declared and fixed, or inferred and open. -/
def Variable.IsNew (v : Variable) : Prop :=
  v.origin = .declared ∧ v.promotable = false ∨ v.origin = .inferred ∧ v.promotable = true

/-- What a body may do to a symbol table. -/
structure SymbolTable.Grows (promote : Bool) (old new : SymbolTable) : Prop where
  keys : old.keys <+: new.keys
  known : ∀ name v, old.get? name = some v → ∃ v', new.get? name = some v' ∧ v.Widens promote v'
  added : ∀ name v, old.get? name = none → new.get? name = some v → v.IsNew

variable {promote : Bool}

namespace Variable

variable {v v' v'' : Variable}

theorem Widens.refl (v : Variable) : v.Widens promote v :=
  ⟨rfl, rfl, fun _ => rfl, .refl⟩

theorem Widens.trans (h : v.Widens promote v') (h' : v'.Widens promote v'') : v.Widens promote v'' where
  origin := h'.origin.trans h.origin
  promotable := h'.promotable.trans h.promotable
  fixed hv := (h'.fixed (h.promotable.trans hv)).trans (h.fixed hv)
  ty := h.ty.trans h'.ty

theorem Widens.eq (h : v.Widens promote v') (hv : v.promotable = false) : v' = v := by
  obtain ⟨ty, p, origin⟩ := v
  obtain ⟨ty', p', origin'⟩ := v'
  obtain rfl := h.origin
  obtain rfl := h.promotable
  obtain rfl := h.fixed hv
  rfl

theorem IsNew.widens (hv : v.IsNew) (h : v.Widens promote v') : v'.IsNew := by
  rw [IsNew, h.origin, h.promotable]
  exact hv

theorem IsNew.origin_ne (hv : v.IsNew) : v.origin ≠ .inherited := by
  rcases hv with ⟨ho, -⟩ | ⟨ho, -⟩ <;> simp [ho]

end Variable

namespace SymbolTable.Grows

variable {old mid new : SymbolTable} {name : String} {v v' : Variable}

theorem refl (old : SymbolTable) : old.Grows promote old where
  keys := List.prefix_refl _
  known _ v hv := ⟨v, hv, .refl v⟩
  added name v hnone hv := by
    rw [hnone] at hv
    cases hv

theorem trans (h : old.Grows promote mid) (h' : mid.Grows promote new) : old.Grows promote new where
  keys := h.keys.trans h'.keys
  known name v hv := by
    obtain ⟨v', hv', hw⟩ := h.known name v hv
    obtain ⟨v'', hv'', hw'⟩ := h'.known name v' hv'
    exact ⟨v'', hv'', hw.trans hw'⟩
  added name v hnone hv := by
    cases hmid : mid.get? name with
    | none => exact h'.added name v hmid hv
    | some m =>
      obtain ⟨v', hv', hw⟩ := h'.known name m hmid
      rw [hv, Option.some.injEq] at hv'
      exact (h.added name m hnone hmid).widens (hv' ▸ hw)

theorem insert_known (hv : old.get? name = some v) (hw : v.Widens promote v') :
    old.Grows promote (old.insert name v') where
  keys := ⟨[], by rw [List.append_nil, old.keys_insert, if_pos (OrderedMap.mem_keys_of_get? hv)]⟩
  known k w hk := by
    rw [OrderedMap.get?_insert]
    by_cases hkn : k = name
    · rw [hkn, hv, Option.some.injEq] at hk
      exact ⟨v', if_pos hkn, hk ▸ hw⟩
    · exact ⟨w, by rw [if_neg hkn, hk], .refl w⟩
  added k w hnone hk := by
    have hkn : k ≠ name := fun e => by simp [e, hv] at hnone
    rw [OrderedMap.get?_insert, if_neg hkn, hnone] at hk
    cases hk

theorem insert_new (hnone : old.get? name = none) (hv : v.IsNew) :
    old.Grows promote (old.insert name v) where
  keys := by
    rw [old.keys_insert, if_neg (OrderedMap.get?_eq_none_iff.mp hnone)]
    exact List.prefix_append _ _
  known k w hk := by
    have hkn : k ≠ name := fun e => by simp [e, hnone] at hk
    exact ⟨w, by rw [OrderedMap.get?_insert, if_neg hkn, hk], .refl w⟩
  added k w hnone' hk := by
    rw [OrderedMap.get?_insert] at hk
    split at hk
    · exact Option.some.inj hk ▸ hv
    · rw [hnone'] at hk
      cases hk

end SymbolTable.Grows

namespace Inference

/-! ## Parts of a walk -/

/-- What a body does to the symbol table: nothing at all, if it may not define attributes. -/
def BodyContext.Keeps (c : BodyContext) (old new : SymbolTable) : Prop :=
  old.Grows c.promote new ∧ (c.mayDefine = false → new = old)

theorem BodyContext.Keeps.refl (c : BodyContext) (old : SymbolTable) : c.Keeps old old :=
  ⟨.refl old, fun _ => rfl⟩

theorem BodyContext.Keeps.trans {c : BodyContext} {old mid new : SymbolTable} (h : c.Keeps old mid)
    (h' : c.Keeps mid new) : c.Keeps old new :=
  ⟨h.1.trans h'.1, fun hc => (h'.2 hc).trans (h.2 hc)⟩

/-- A part of a walk that begins at `s` and stores into `names`, whether it ends or halts. -/
def Stores (c : BodyContext) (s : Scope) (names : List String) (r : Except Halt Scope) : Prop :=
  Ensures r
    (fun s' => c.Keeps s.symbols s'.symbols ∧ s'.symbols.keys = extendKeys s.symbols.keys names)
    (fun halt => c.Keeps s.symbols halt.symbols)

variable {c : BodyContext} {s : Scope} {names names' : List String}

namespace Stores

theorem of_eq {s' : Scope} (h : s'.symbols = s.symbols) : Stores c s [] (.ok s') := by
  refine ensures_ok.mpr ?_
  rw [h]
  exact ⟨.refl c _, rfl⟩

theorem halt (f : TypingFailure) : Stores c s names (.error ⟨f, s.symbols⟩) :=
  ensures_error.mpr (.refl c _)

theorem bind {r : Except Halt Scope} {f : Scope → Except Halt Scope} (h : Stores c s names r)
    (hf : ∀ s', Stores c s' names' (f s')) : Stores c s (names ++ names') (r >>= f) := by
  cases r with
  | error halt => exact h
  | ok s' =>
    obtain ⟨hkeeps, hkeys⟩ := h
    refine Ensures.imp (hf s') (fun s'' h'' => ?_) fun _ hkeeps' => hkeeps.trans hkeeps'
    obtain ⟨hkeeps', hkeys'⟩ := h''
    exact ⟨hkeeps.trans hkeeps', by rw [hkeys', hkeys, extendKeys_append]⟩

theorem attempt {α : Type} (r : Except TypingFailure α) {f : α → Except Halt Scope}
    (hf : ∀ a, Stores c s names (f a)) : Stores c s names (s.attempt r >>= f) := by
  cases r with
  | ok a => exact hf a
  | error failure => exact halt failure

end Stores

/-! ## Stores into targets -/

theorem stores_assignAttribute (c : BodyContext) (s : Scope) (span : Python.Span) (name : String)
    (value : Ty) (isAnnotated : Bool) :
    Stores c s [name] (s.attempt (assignAttribute c s span name value isAnnotated)) := by
  unfold assignAttribute
  split
  next v hv =>
    have hmem : name ∈ s.symbols.keys := OrderedMap.mem_keys_of_get? hv
    split
    · exact ensures_ok.mpr ⟨.refl c _, (if_pos hmem).symm⟩
    · split
      next hopen =>
        rw [Bool.and_eq_true] at hopen
        obtain ⟨hdef, hprom⟩ := hopen
        have hw : v.Widens c.promote { v with ty := Ty.join v.ty value c.promote } :=
          ⟨rfl, rfl, fun h => by simp [hprom] at h, .single ⟨value, rfl⟩⟩
        refine ensures_ok.mpr ⟨⟨.insert_known hv hw, fun h => ?_⟩,
          OrderedMap.keys_insert_eq_extendKeys _ _ _⟩
        simp [hdef] at h
      · exact .halt _
  next hnone =>
    split
    · exact .halt _
    · split
      next hdef =>
        have hnew : (if isAnnotated then Variable.declared value else .inferred value).IsNew := by
          split
          · exact Or.inl ⟨rfl, rfl⟩
          · exact Or.inr ⟨rfl, rfl⟩
        refine ensures_ok.mpr ⟨⟨.insert_new hnone hnew, fun h => ?_⟩,
          OrderedMap.keys_insert_eq_extendKeys _ _ _⟩
        simp [hdef] at h
      · exact .halt _

theorem length_unpacked (value : Ty) (count : Nat) : (value.unpacked count).length = count := by
  unfold Ty.unpacked
  split
  · split
    · assumption
    · exact List.length_replicate
  · exact List.length_replicate

theorem stores_typeOf (c : BodyContext) (s : Scope) (e : Expr) :
    Stores c s [] (do let _ ← s.attempt (typeOf c s e); return s) :=
  .attempt _ fun _ => .of_eq rfl

theorem targetStores_attribute (c : BodyContext) (span : Python.Span) (object : Expr) (attr : String) :
    targetStores c.receiver (.attribute span object attr) = if c.isReceiver object then [attr] else [] := by
  cases object <;> simp [targetStores, BodyContext.isReceiver]

mutual

theorem stores_assign (c : BodyContext) (s : Scope) (target : Expr) (value : Ty) (isAnnotated : Bool) :
    Stores c s (targetStores c.receiver target) (assign c s target value isAnnotated) := by
  cases target with
  | name span id =>
    rw [assign, targetStores]
    · exact .of_eq rfl
    all_goals simp
  | tuple span elems =>
    rw [assign, targetStores]
    exact stores_assignEach c s elems _ (length_unpacked value elems.length)
  | «attribute» span object attr =>
    rw [assign, targetStores_attribute]
    split
    · exact stores_assignAttribute c s span attr value isAnnotated
    · exact stores_typeOf c s _
  | _ => exact stores_typeOf c s _

theorem stores_assignEach (c : BodyContext) (s : Scope) (targets : List Expr) (values : List Ty)
    (h : values.length = targets.length) :
    Stores c s (targetsStores c.receiver targets) (assignEach c s targets values) := by
  cases targets with
  | nil => exact .of_eq rfl
  | cons t ts =>
    cases values with
    | nil => simp at h
    | cons v vs =>
      rw [assignEach, targetsStores]
      exact (stores_assign c s t v false).bind fun s' => stores_assignEach c s' ts vs (by simpa using h)

end

theorem stores_assignAll (c : BodyContext) (s : Scope) (targets : List Expr) (value : Ty) :
    Stores c s (targetsStores c.receiver targets) (assignAll c s targets value) := by
  unfold assignAll
  induction targets generalizing s with
  | nil => exact .of_eq rfl
  | cons t ts ih =>
    rw [List.foldlM_cons, targetsStores]
    exact (stores_assign c s t value false).bind ih

/-! ## Stores of a body -/

mutual

theorem stores_walk (c : BodyContext) (s : Scope) (stmt : Stmt) :
    Stores c s (stmtStores c.receiver stmt) (walk c s stmt) := by
  cases stmt with
  | assign span targets value =>
    rw [walk, stmtStores]
    exact .attempt _ fun ty => stores_assignAll c s targets ty
  | annotated span target hint value =>
    rw [walk, stmtStores]
    exact .attempt _ fun _ => stores_assign c s target _ true
  | augmented span target op value =>
    rw [walk, stmtStores]
    exact .attempt _ fun ty => stores_assign c s target ty false
  | ret span value =>
    rw [walk]
    exact .attempt _ fun _ => .of_eq rfl
  | branch span test body orelse =>
    rw [walk, stmtStores]
    exact .attempt _ fun _ => (stores_walkAll c s body).bind fun s' => stores_walkAll c s' orelse
  | whileLoop span test body orelse =>
    rw [walk, stmtStores]
    exact .attempt _ fun _ => (stores_walkAll c s body).bind fun s' => stores_walkAll c s' orelse
  | forLoop span target iter body orelse =>
    rw [walk, stmtStores]
    exact .attempt _ fun ty => (stores_assign c s target ty.element false).bind fun s' =>
      (stores_walkAll c s' body).bind fun s'' => stores_walkAll c s'' orelse
  | expr span value => exact stores_typeOf c s value
  | assertion span test => exact stores_typeOf c s test
  | _ => exact .of_eq rfl

/-- **A walk over a block stores into the attributes of the block.** -/
theorem stores_walkAll (c : BodyContext) (s : Scope) (block : List Stmt) :
    Stores c s (blockStores c.receiver block) (walkAll c s block) := by
  cases block with
  | nil => exact .of_eq rfl
  | cons stmt rest =>
    rw [walkAll, blockStores]
    exact (stores_walk c s stmt).bind fun s' => stores_walkAll c s' rest

end

/-! ## Methods -/

theorem keeps_inferBody (r : TypingRequest) (body : FunctionBody) :
    (bodyContext r body.lines).Keeps r.symbols (inferBody r body).symbols := by
  have hwalk := stores_walkAll (bodyContext r body.lines) (initialScope r) body.statements
  cases hw : walkAll (bodyContext r body.lines) (initialScope r) body.statements with
  | ok s =>
    simp only [inferBody, hw]
    exact (hwalk.of_ok hw).1
  | error halt =>
    simp only [inferBody, hw]
    exact hwalk.of_error hw

/-- **The symbol table after a method**, whether it can be typed or not. -/
theorem keeps_inferMethod (r : TypingRequest) :
    r.symbols.Grows (r.flags.getBool promotionFlag true) (inferMethod r).symbols ∧
      (r.mayDefine = false → (inferMethod r).symbols = r.symbols) := by
  unfold inferMethod
  split
  next body _ => exact keeps_inferBody r body
  · exact ⟨.refl _, fun _ => rfl⟩

/-- **The names in the symbol table after a method that can be typed.** -/
theorem keys_inferMethod {r : TypingRequest} {t : Typing} (h : (inferMethod r).result = .ok t) :
    (inferMethod r).symbols.keys = extendKeys r.symbols.keys r.method.func.attributeStores := by
  unfold inferMethod at h ⊢
  unfold Function.attributeStores
  cases hbody : r.method.func.body with
  | none => rfl
  | some body =>
    rw [hbody] at h
    have hwalk := stores_walkAll (bodyContext r body.lines) (initialScope r) body.statements
    cases hw : walkAll (bodyContext r body.lines) (initialScope r) body.statements with
    | ok s =>
      simp only [inferBody, hw]
      exact (hwalk.of_ok hw).2
    | error halt =>
      simp only [inferBody, hw] at h
      cases h

end Inference

end NativeClass
