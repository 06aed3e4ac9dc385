import NativeClass.Proofs.Draft.Edit
/-!
# Recording signatures

A signature that is offered for a method of a draft is checked against the one that is known for the name. The draft
answers with the signature that it has recorded, or refuses. What is known is the slot of a base at first and the
draft's own record later. Whatever is offered, a record only becomes more precise: nothing but an unknown return type
is ever filled in.

* `Draft.answer`, `Draft.afterOffers`: the answer to one offer, and the draft after several.
* `Draft.exists_answer_eq_ok_iff`, `Draft.fits_of_answer`: when one offer is accepted, and what is answered.
* `Draft.keeps_offer`, `Draft.keeps_afterOffers`: what is recorded stays under one offer and under several.
* `Draft.agreesOn_afterOffers_filter`: offers for other names do not matter.
* **`Draft.keepsSignatures`**: what a draft keeps under all offers.
-/

namespace NativeClass

namespace Draft

/-- The answer of a draft to a signature that is offered for a method: the one that it records. -/
def answer (d : Draft) (name : String) (s : Signature) : Except CompileError Signature :=
  ((Edit.addMethod name s).perform d).1

/-- The draft after several signatures were offered for methods, whatever it answers. -/
def afterOffers (d : Draft) (offers : List (String × Signature)) : Draft :=
  d.afterCalls (offers.map fun e => .addMethod e.1 e.2)

variable {d d' : Draft} {name : String} {s old r : Signature} {offers : List (String × Signature)}

theorem afterOffers_append (d : Draft) (offers offers' : List (String × Signature)) :
    d.afterOffers (offers ++ offers') = (d.afterOffers offers).afterOffers offers' := by
  rw [afterOffers, List.map_append, afterCalls, List.foldl_append]
  rfl

theorem afterOffers_cons (d : Draft) (e : String × Signature) (offers : List (String × Signature)) :
    d.afterOffers (e :: offers) = (d.afterOffers [e]).afterOffers offers :=
  rfl

/-! ## One offer -/

theorem answer_eq (d : Draft) (name : String) (s : Signature) :
    d.answer name s =
      if d.slotTypes.isFrozen then .error (.ofFrozen d.name .methods name) else d.mergedSignature name s := by
  rw [answer, perform_addMethod, addMethod]
  by_cases hfrozen : d.slotTypes.isFrozen
  · rw [if_pos hfrozen, if_pos hfrozen]
  · rw [if_neg hfrozen, if_neg hfrozen]
    cases d.mergedSignature name s with
    | ok r => rfl
    | error e => rfl

theorem afterOffers_singleton (d : Draft) (name : String) (s : Signature) :
    d.afterOffers [(name, s)] =
      match d.answer name s with
      | .ok r => { d with methods := d.methods.insert name r }
      | .error _ => d := by
  show ((Call.addMethod name s).edit.perform d).2 = _
  rw [Call.perform_edit, Call.apply, answer_eq, addMethod]
  by_cases hfrozen : d.slotTypes.isFrozen
  · rw [if_pos hfrozen, if_pos hfrozen]
    rfl
  · rw [if_neg hfrozen, if_neg hfrozen]
    cases d.mergedSignature name s with
    | ok r => rfl
    | error e => rfl

/-- A signature that is answered refines the offered one and fits the known one. -/
theorem fits_of_answer (h : d.answer name s = .ok r) :
    r.Refines s ∧ ∀ old, d.knownSignature? name s = some old → r.Fits old := by
  rw [answer_eq] at h
  split at h
  · cases h
  · exact (ensures_mergedSignature d name s).of_ok h

theorem building_of_answer (h : d.answer name s = .ok r) : d.slotTypes.isFrozen = false := by
  rw [answer_eq] at h
  split at h
  · cases h
  next hbuilding => exact Bool.eq_false_iff.mpr hbuilding

/-- While slots are being filled, a signature is accepted exactly if it matches the known one. -/
theorem exists_answer_eq_ok_iff (hbuilding : d.slotTypes.isFrozen = false) :
    (∃ r, d.answer name s = .ok r) ↔ ∀ old, d.knownSignature? name s = some old → s.Matches old := by
  rw [answer_eq, hbuilding, if_neg Bool.false_ne_true, mergedSignature]
  cases d.knownSignature? name s with
  | none => exact iff_of_true ⟨s, rfl⟩ (by simp)
  | some old =>
    have hmatches : (∀ old', some old = some old' → s.Matches old') ↔ s.Matches old :=
      ⟨fun h => h old rfl, fun h _ heq => Option.some.inj heq ▸ h⟩
    rw [hmatches, ← Signature.exists_reconcile_eq_ok_iff]
    dsimp only
    cases s.reconcile old with
    | ok r => exact iff_of_true ⟨r, rfl⟩ ⟨r, rfl⟩
    | error conflict => exact iff_of_false (by simp) (by simp)

theorem exists_afterOffers_singleton_eq (d : Draft) (e : String × Signature) :
    ∃ methods, d.afterOffers [e] = { d with methods } := by
  rw [afterOffers_singleton]
  cases d.answer e.1 e.2 with
  | ok r => exact ⟨_, rfl⟩
  | error _ => exact ⟨d.methods, rfl⟩

theorem get?_afterOffers_of_answer (h : d.answer name s = .ok r) :
    (d.afterOffers [(name, s)]).methods.get? name = some r := by
  rw [afterOffers_singleton, h]
  exact OrderedMap.get?_insert_self ..

theorem get?_afterOffers_of_ne {e : String × Signature} (hne : name ≠ e.1) :
    (d.afterOffers [e]).methods.get? name = d.methods.get? name := by
  rw [afterOffers_singleton]
  cases d.answer e.1 e.2 with
  | ok r => exact (OrderedMap.get?_insert ..).trans (if_neg hne)
  | error _ => rfl

/-- An offer keeps what is recorded for a name, up to its unknown return type. -/
theorem keeps_offer (e : String × Signature) (hold : d.methods.get? name = some old) :
    ∃ s, (d.afterOffers [e]).methods.get? name = some s ∧ s.Fits old := by
  by_cases hkey : name = e.1
  · subst hkey
    cases hanswer : d.answer e.1 e.2 with
    | ok r =>
      have hknown : d.knownSignature? e.1 e.2 = some old := by rw [knownSignature?, hold]
      exact ⟨r, get?_afterOffers_of_answer hanswer, (fits_of_answer hanswer).2 old hknown⟩
    | error _ =>
      rw [afterOffers_singleton, hanswer]
      exact ⟨old, hold, .refl old⟩
  · exact ⟨old, (get?_afterOffers_of_ne hkey).trans hold, .refl old⟩

theorem answer_recorded (hbuilding : d.slotTypes.isFrozen = false) (hr : d.methods.get? name = some r) :
    d.answer name r = .ok r := by
  rw [answer_eq, hbuilding, if_neg Bool.false_ne_true, mergedSignature, knownSignature?, hr]
  dsimp only
  rw [Signature.reconcile_self]

theorem afterOffers_recorded (hr : d.methods.get? name = some r) (hanswer : d.answer name r = .ok r) :
    d.afterOffers [(name, r)] = d := by
  rw [afterOffers_singleton, hanswer]
  dsimp only
  rw [OrderedMap.insert_of_get? hr]

/-! ## Several offers -/

theorem exists_afterOffers_eq (d : Draft) (offers : List (String × Signature)) :
    ∃ methods, d.afterOffers offers = { d with methods } := by
  induction offers generalizing d with
  | nil => exact ⟨d.methods, rfl⟩
  | cons e offers ih =>
    obtain ⟨methods, hstep⟩ := d.exists_afterOffers_singleton_eq e
    rw [afterOffers_cons, hstep]
    exact ih { d with methods }

theorem keeps_afterOffers (offers : List (String × Signature)) (hold : d.methods.get? name = some old) :
    ∃ s, (d.afterOffers offers).methods.get? name = some s ∧ s.Fits old := by
  induction offers generalizing d old with
  | nil => exact ⟨old, hold, .refl old⟩
  | cons e offers ih =>
    obtain ⟨s', hs', hfits'⟩ := keeps_offer e hold
    obtain ⟨s, hs, hfits⟩ := ih hs'
    exact ⟨s, hs, hfits.trans hfits'⟩

/-- As long as every offer for a name is refused, nothing is recorded for it. -/
theorem get?_afterOffers_of_refused (hnone : d.methods.get? name = none)
    (hrefused : ∀ before s after r, offers = before ++ (name, s) :: after →
      (d.afterOffers before).answer name s ≠ .ok r) :
    (d.afterOffers offers).methods.get? name = none := by
  induction offers generalizing d with
  | nil => exact hnone
  | cons e offers ih =>
    rw [afterOffers_cons]
    refine ih ?_ fun before s after r hsplit => ?_
    · by_cases hkey : name = e.1
      · subst hkey
        cases hanswer : d.answer e.1 e.2 with
        | ok r => exact absurd hanswer (hrefused [] e.2 offers r rfl)
        | error _ =>
          rw [afterOffers_singleton, hanswer]
          exact hnone
      · rw [get?_afterOffers_of_ne hkey, hnone]
    · exact hrefused (e :: before) s after r (congrArg (e :: ·) hsplit)

/-! ## Offers for other names -/

/-- The drafts have the same name and slots, and the same is recorded for one method. -/
structure AgreesOn (key : String) (d d' : Draft) : Prop where
  name : d.name = d'.name
  slotTypes : d.slotTypes = d'.slotTypes
  recorded : d.methods.get? key = d'.methods.get? key

namespace AgreesOn

theorem answer_eq (h : AgreesOn name d d') (s : Signature) : d.answer name s = d'.answer name s := by
  have hknown : d.knownSignature? name s = d'.knownSignature? name s := by
    rw [knownSignature?, knownSignature?, h.recorded, h.slotTypes]
  have hmerged : d.mergedSignature name s = d'.mergedSignature name s := by
    rw [mergedSignature, mergedSignature, hknown, h.name]
  rw [Draft.answer_eq, Draft.answer_eq, h.slotTypes, h.name, hmerged]

theorem offer (h : AgreesOn name d d') (s : Signature) :
    AgreesOn name (d.afterOffers [(name, s)]) (d'.afterOffers [(name, s)]) := by
  rw [afterOffers_singleton, afterOffers_singleton, h.answer_eq s]
  cases d'.answer name s with
  | error e => exact h
  | ok r => exact ⟨h.name, h.slotTypes, by simp only [OrderedMap.get?_insert_self]⟩

theorem offer_other {e : String × Signature} (h : AgreesOn name d d') (hne : name ≠ e.1) :
    AgreesOn name (d.afterOffers [e]) d' := by
  obtain ⟨methods, hstep⟩ := d.exists_afterOffers_singleton_eq e
  have hname : (d.afterOffers [e]).name = d.name := by rw [hstep]
  have hslots : (d.afterOffers [e]).slotTypes = d.slotTypes := by rw [hstep]
  exact ⟨hname.trans h.name, hslots.trans h.slotTypes, (get?_afterOffers_of_ne hne).trans h.recorded⟩

end AgreesOn

/-- **Offers for other names do not matter.** -/
theorem agreesOn_afterOffers_filter (h : AgreesOn name d d') (offers : List (String × Signature)) :
    AgreesOn name (d.afterOffers offers) (d'.afterOffers (offers.filter (·.1 = name))) := by
  induction offers generalizing d d' with
  | nil => exact h
  | cons e offers ih =>
    obtain ⟨key, s⟩ := e
    by_cases hkey : key = name
    · subst hkey
      rw [List.filter_cons_of_pos (by simp)]
      exact ih (h.offer s)
    · rw [List.filter_cons_of_neg (by simpa using hkey)]
      exact ih (h.offer_other (Ne.symm hkey))

/-! ## What a draft keeps -/

/-- What a draft keeps while signatures are offered for its methods. -/
structure KeepsSignatures (d : Draft) : Prop where
  /-- Until the slots are frozen, an offer is accepted exactly if it matches what is known for its name. -/
  accepts : ∀ offers name s, d.slotTypes.isFrozen = false →
    ((∃ r, (d.afterOffers offers).answer name s = .ok r) ↔
      ∀ old, (d.afterOffers offers).knownSignature? name s = some old → s.Matches old)
  /-- The answer is the offered signature up to its unknown return type. It is recorded, and nothing but the methods
  changes. -/
  records : ∀ offers name s r, (d.afterOffers offers).answer name s = .ok r → r.Refines s ∧
    ∃ methods, d.afterOffers (offers ++ [(name, s)]) = { d with methods } ∧ methods.get? name = some r
  /-- A refused offer changes nothing. -/
  refuses : ∀ offers name s e, (d.afterOffers offers).answer name s = .error e →
    d.afterOffers (offers ++ [(name, s)]) = d.afterOffers offers
  /-- Once a signature is recorded, its kind, its arguments and a known return type stay. -/
  keeps : ∀ before after name old, (d.afterOffers before).methods.get? name = some old →
    ∃ s, (d.afterOffers (before ++ after)).methods.get? name = some s ∧ s.Fits old
  /-- The first signature that is recorded for a method that is no constructor fits the slot of its name. -/
  first : ∀ offers name s r slot, d.methods.get? name = none →
    (∀ before s' after r', offers = before ++ (name, s') :: after →
      (d.afterOffers before).answer name s' ≠ .ok r') →
    d.slotTypes.get? name = some slot → s.isConstructor = false → (d.afterOffers offers).answer name s = .ok r →
    r.Fits slot
  /-- Offers for one name affect neither what is recorded for another nor the answers about it. -/
  apart : ∀ offers name,
    (d.afterOffers offers).methods.get? name = (d.afterOffers (offers.filter (·.1 = name))).methods.get? name ∧
      ∀ s, (d.afterOffers offers).answer name s = (d.afterOffers (offers.filter (·.1 = name))).answer name s
  /-- An answer that is offered again is answered by itself and changes nothing. -/
  again : ∀ offers name s r, (d.afterOffers offers).answer name s = .ok r →
    (d.afterOffers (offers ++ [(name, s)])).answer name r = .ok r ∧
      d.afterOffers (offers ++ [(name, s), (name, r)]) = d.afterOffers (offers ++ [(name, s)])

/-- **Recorded signatures only become more precise**, whatever is offered. -/
theorem keepsSignatures (d : Draft) : d.KeepsSignatures where
  accepts offers name s hbuilding := by
    obtain ⟨methods, hrest⟩ := d.exists_afterOffers_eq offers
    rw [hrest]
    exact exists_answer_eq_ok_iff hbuilding
  records offers name s r h := by
    obtain ⟨methods, hrest⟩ := d.exists_afterOffers_eq (offers ++ [(name, s)])
    have hget := get?_afterOffers_of_answer h
    rw [← afterOffers_append, hrest] at hget
    exact ⟨(fits_of_answer h).1, methods, hrest, hget⟩
  refuses offers name s e h := by
    rw [afterOffers_append, afterOffers_singleton, h]
  keeps before after name old hold := by
    rw [afterOffers_append]
    exact keeps_afterOffers after hold
  first offers name s r slot hnone hrefused hslot hctor h := by
    obtain ⟨methods, hrest⟩ := d.exists_afterOffers_eq offers
    have hnone' := get?_afterOffers_of_refused hnone hrefused
    have hknown : (d.afterOffers offers).knownSignature? name s = some slot := by
      rw [knownSignature?, hnone', hctor, if_neg Bool.false_ne_true, hrest]
      exact hslot
    exact (fits_of_answer h).2 slot hknown
  apart offers name := by
    have hagrees : AgreesOn name (d.afterOffers offers) (d.afterOffers (offers.filter (·.1 = name))) :=
      agreesOn_afterOffers_filter ⟨rfl, rfl, rfl⟩ offers
    exact ⟨hagrees.recorded, hagrees.answer_eq⟩
  again offers name s r h := by
    have hget := get?_afterOffers_of_answer h
    obtain ⟨methods, hstep⟩ := (d.afterOffers offers).exists_afterOffers_singleton_eq (name, s)
    have hbuilding : ((d.afterOffers offers).afterOffers [(name, s)]).slotTypes.isFrozen = false := by
      have hbefore := building_of_answer h
      rw [hstep]
      exact hbefore
    rw [afterOffers_append]
    have hanswer := answer_recorded hbuilding hget
    refine ⟨hanswer, ?_⟩
    rw [afterOffers_append, afterOffers_cons, afterOffers_recorded hget hanswer]

/-- A return type that has become known stays, also if it is offered as unknown again. -/
example (c : BoundClass) : ((ofClass c).afterOffers
    [("area", { args := [], ret := none }), ("area", { args := [], ret := some .float }),
      ("area", { args := [], ret := none })]).methods.get? "area" = some { args := [], ret := some .float } := by
  rfl

end Draft

end NativeClass
