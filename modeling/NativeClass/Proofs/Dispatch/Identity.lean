import Mathlib.Algebra.Order.Ring.Nat
import Mathlib.Data.List.Basic
import Mathlib.Data.List.Induction
import NativeClass.Dispatch.VTable
import NativeClass.Proofs.Utf8
/-!
# What a digest stands for

The identity of a dispatch table and the address of a method are digests of byte strings. The bytes of a table have no
lengths in them, and the addresses among them may hold any byte, so a reader from the front cannot tell where a name
ends. From the end it can: an address has eight bytes, and the name in front of it goes back to the last NUL byte.

* `eq_of_append_cons_eq`, `eq_of_append_cons_eq_last`: lists that are split at the first or the last separator.
* `VTable.IsNulFree`, **`VTable.key_eq_iff`**: the bytes of a table give its class and its entry points.
* **`EntryPoint.key_eq_iff`**: the bytes of a method give its class, its name and its signature.
* **`EntryPoint.toNat_address_ofSymbol`**: the address of a method is cut out of the digest of its bytes.
* **`digests_tell_apart`**: tables with one identity and methods with one address are alike, or their bytes collide.
-/

namespace NativeClass

section

variable {α : Type} {a : α} {xs ys us vs : List α}

/-- A list is split at the first separator in one way only. -/
theorem eq_of_append_cons_eq (hxs : a ∉ xs) (hys : a ∉ ys) (h : xs ++ a :: us = ys ++ a :: vs) :
    xs = ys ∧ us = vs := by
  induction xs generalizing ys with
  | nil =>
    cases ys with
    | nil => exact ⟨rfl, (List.cons.inj h).2⟩
    | cons y ys => exact absurd ((List.cons.inj h).1 ▸ List.mem_cons_self) hys
  | cons x xs ih =>
    cases ys with
    | nil => exact absurd ((List.cons.inj h).1 ▸ List.mem_cons_self) hxs
    | cons y ys =>
      obtain ⟨hxy, hrest⟩ := List.cons.inj h
      obtain ⟨hxsys, husvs⟩ := ih (fun hm => hxs (List.mem_cons_of_mem x hm))
        (fun hm => hys (List.mem_cons_of_mem y hm)) hrest
      exact ⟨congr (congrArg List.cons hxy) hxsys, husvs⟩

/-- A list is split at the last separator in one way only. -/
theorem eq_of_append_cons_eq_last (hus : a ∉ us) (hvs : a ∉ vs) (h : xs ++ a :: us = ys ++ a :: vs) :
    xs = ys ∧ us = vs := by
  have hreverse := congrArg List.reverse h
  simp only [List.reverse_append, List.reverse_cons, List.append_assoc, List.singleton_append] at hreverse
  obtain ⟨husvs, hxsys⟩ := eq_of_append_cons_eq (fun hm => hus (List.mem_reverse.mp hm))
    (fun hm => hvs (List.mem_reverse.mp hm)) hreverse
  exact ⟨List.reverse_inj.mp hxsys, List.reverse_inj.mp husvs⟩

end

theorem LittleEndian.ofWord_inj {v w : UInt64} : ofWord v = ofWord w ↔ v = w := by
  constructor
  · intro h
    rw [← toWord_ofWord_append v [], h, toWord_ofWord_append]
  · exact congrArg ofWord

/-! ## Dispatch tables -/

namespace VTable

variable {className className' : String} {slots slots' : List VTableSlot}
  {targets targets' : List (String × EntryPoint)} {bytes bytes' : List UInt8}

/-- No name of a table has a NUL byte. -/
structure IsNulFree (className : String) (slots : List VTableSlot) : Prop where
  className : 0 ∉ className.toUTF8.toList
  slots : ∀ s ∈ slots, 0 ∉ s.name.toUTF8.toList

/-- The bytes of a method and its entry point within a table's identity. -/
def targetKey (t : String × EntryPoint) : List UInt8 :=
  0 :: t.1.toUTF8.toList ++ LittleEndian.ofWord t.2.address

theorem key_eq_append (className : String) (slots : List VTableSlot) :
    key className slots = className.toUTF8.toList ++ (ofSlots className slots).entryPoints.flatMap targetKey := by
  rw [key, entryPoints, List.flatMap_map]
  rfl

theorem append_targetKey_concat (bytes : List UInt8) (targets : List (String × EntryPoint))
    (t : String × EntryPoint) :
    bytes ++ (targets ++ [t]).flatMap targetKey =
      ((bytes ++ targets.flatMap targetKey) ++ 0 :: t.1.toUTF8.toList) ++ LittleEndian.ofWord t.2.address := by
  simp [targetKey]

theorem zero_mem_append_targetKey (bytes : List UInt8) (targets : List (String × EntryPoint))
    (t : String × EntryPoint) : 0 ∈ bytes ++ (targets ++ [t]).flatMap targetKey := by
  rw [append_targetKey_concat]
  exact List.mem_append_left _ (List.mem_append_right _ List.mem_cons_self)

/-- **The bytes behind a class give back the methods and their entry points, read from the end.** -/
theorem eq_of_append_targetKey_eq (hbytes : 0 ∉ bytes) (hbytes' : 0 ∉ bytes')
    (htargets : ∀ t ∈ targets, 0 ∉ t.1.toUTF8.toList) (htargets' : ∀ t ∈ targets', 0 ∉ t.1.toUTF8.toList)
    (h : bytes ++ targets.flatMap targetKey = bytes' ++ targets'.flatMap targetKey) :
    bytes = bytes' ∧ targets = targets' := by
  induction targets using List.reverseRecOn generalizing targets' with
  | nil =>
    -- a table has a NUL byte exactly if it has a slot
    rcases List.eq_nil_or_concat' targets' with rfl | ⟨init', t', rfl⟩
    · simpa using h
    · rw [List.flatMap_nil, List.append_nil] at h
      exact absurd (h ▸ zero_mem_append_targetKey bytes' init' t') hbytes
  | append_singleton init t ih =>
    rcases List.eq_nil_or_concat' targets' with rfl | ⟨init', t', rfl⟩
    · rw [List.flatMap_nil, List.append_nil] at h
      exact absurd (h ▸ zero_mem_append_targetKey bytes init t) hbytes'
    · rw [append_targetKey_concat, append_targetKey_concat] at h
      obtain ⟨hnames, hwords⟩ := List.append_inj' h (by simp)
      obtain ⟨hinit, hname⟩ := eq_of_append_cons_eq_last (htargets t List.mem_concat_self)
        (htargets' t' List.mem_concat_self) hnames
      obtain ⟨hclass, rfl⟩ := ih (fun s hs => htargets s (List.mem_append_left _ hs))
        (fun s hs => htargets' s (List.mem_append_left _ hs)) hinit
      have ht : t = t' :=
        Prod.ext (Utf8.toList_toUTF8_inj.mp hname) (congrArg EntryPoint.mk (LittleEndian.ofWord_inj.mp hwords))
      exact ⟨hclass, by rw [ht]⟩

/-- **The bytes of a table determine its class, its methods and their entry points.** -/
theorem key_eq_iff (h : IsNulFree className slots) (h' : IsNulFree className' slots') :
    key className slots = key className' slots' ↔
      className = className' ∧ (ofSlots className slots).entryPoints = (ofSlots className' slots').entryPoints := by
  rw [key_eq_append, key_eq_append]
  constructor
  · intro hkey
    have htargets : ∀ {className : String} {slots : List VTableSlot}, IsNulFree className slots →
        ∀ t ∈ (ofSlots className slots).entryPoints, 0 ∉ t.1.toUTF8.toList := by
      intro className slots h t ht
      obtain ⟨s, hs, rfl⟩ := List.mem_map.mp ht
      exact h.slots s hs
    obtain ⟨hclass, hentries⟩ :=
      eq_of_append_targetKey_eq h.className h'.className (htargets h) (htargets h') hkey
    exact ⟨Utf8.toList_toUTF8_inj.mp hclass, hentries⟩
  · rintro ⟨rfl, hentries⟩
    rw [hentries]

end VTable

/-! ## Methods -/

theorem EntryPoint.key_eq_toUTF8 (className methodName signature : String) :
    key (qualifiedName className methodName) signature =
      (className ++ "." ++ methodName ++ ":" ++ signature).toUTF8.toList := by
  rw [Utf8.toList_toUTF8_append, Utf8.toList_toUTF8_append]
  rfl

/-- **The bytes of a method determine its class, its name and its signature.** -/
theorem EntryPoint.key_eq_iff {className className' methodName methodName' signature signature' : String}
    (hclass : '.' ∉ className.toList) (hclass' : '.' ∉ className'.toList) (hmethod : ':' ∉ methodName.toList)
    (hmethod' : ':' ∉ methodName'.toList) :
    key (qualifiedName className methodName) signature = key (qualifiedName className' methodName') signature' ↔
      className = className' ∧ methodName = methodName' ∧ signature = signature' := by
  constructor
  · intro h
    rw [key_eq_toUTF8, key_eq_toUTF8, Utf8.toList_toUTF8_inj, ← String.toList_inj] at h
    simp only [String.toList_append, List.append_assoc] at h
    obtain ⟨hname, hrest⟩ := eq_of_append_cons_eq hclass hclass' h
    obtain ⟨hmethodName, hsignature⟩ := eq_of_append_cons_eq hmethod hmethod' hrest
    exact ⟨String.toList_inj.mp hname, String.toList_inj.mp hmethodName, String.toList_inj.mp hsignature⟩
  · rintro ⟨rfl, rfl, rfl⟩
    rfl

/-! ## Digests -/

namespace EntryPoint

/-- The address that a digest gives: its low 48 bits without the last four, but not zero. -/
def addressOf (digest : UInt64) : Nat :=
  max (digest.toNat % 2 ^ 48 / 2 ^ 4 * 2 ^ 4) 16

theorem toNat_and_mask (digest : UInt64) : (digest &&& mask).toNat = digest.toNat % 2 ^ 48 / 2 ^ 4 * 2 ^ 4 := by
  have hmask : mask.toNat = (2 ^ 44 - 1) * 2 ^ 4 := by decide
  rw [UInt64.toNat_and, hmask]
  refine Nat.eq_of_testBit_eq fun i => ?_
  rw [Nat.testBit_and, Nat.testBit_mul_two_pow, Nat.testBit_mul_two_pow, Nat.testBit_two_pow_sub_one,
    Nat.testBit_div_two_pow, Nat.testBit_mod_two_pow]
  by_cases hi : 4 ≤ i
  · have hbound : i - 4 < 44 ↔ i < 48 := by omega
    simp [hi, hbound, Bool.and_comm]
  · simp [hi]

/-- **The address of a method is cut out of the digest of its bytes.** -/
theorem toNat_address_ofSymbol (qualifiedName signature : String) :
    (ofSymbol qualifiedName signature).address.toNat = addressOf (Blake3.word64 (key qualifiedName signature)) := by
  have hmask := toNat_and_mask (Blake3.word64 (key qualifiedName signature))
  rw [ofSymbol, addressOf]
  simp only
  split_ifs with hzero
  · rw [hzero] at hmask
    rw [← hmask]
    rfl
  · have hpos : (Blake3.word64 (key qualifiedName signature) &&& mask).toNat ≠ 0 :=
      fun h => hzero (UInt64.toNat_inj.mp h)
    omega

theorem ofSymbol_eq_iff {qualifiedName qualifiedName' signature signature' : String} :
    ofSymbol qualifiedName signature = ofSymbol qualifiedName' signature' ↔
      addressOf (Blake3.word64 (key qualifiedName signature)) =
        addressOf (Blake3.word64 (key qualifiedName' signature')) := by
  rw [← toNat_address_ofSymbol, ← toNat_address_ofSymbol, UInt64.toNat_inj]
  exact ⟨congrArg address, congrArg mk⟩

end EntryPoint

/-- Different bytes whose digests look alike: `shown` is what is seen of a digest. -/
def Collide {α : Type} (shown : UInt64 → α) (bytes bytes' : List UInt8) : Prop :=
  bytes ≠ bytes' ∧ shown (Blake3.word64 bytes) = shown (Blake3.word64 bytes')

theorem shown_eq_iff {α : Type} (shown : UInt64 → α) (bytes bytes' : List UInt8) :
    shown (Blake3.word64 bytes) = shown (Blake3.word64 bytes') ↔ bytes = bytes' ∨ Collide shown bytes bytes' := by
  constructor
  · intro h
    by_cases hbytes : bytes = bytes'
    · exact Or.inl hbytes
    · exact Or.inr ⟨hbytes, h⟩
  · rintro (rfl | hcollide)
    · rfl
    · exact hcollide.2

/-- **The bytes that are digested say what they stand for.** Tables with one identity are the same, or their bytes are
different ones with one digest; methods with one address are the same with the same signature, or their bytes are
different ones whose digests give one address. -/
theorem digests_tell_apart :
    (∀ (className className' : String) (slots slots' : List VTableSlot),
      VTable.IsNulFree className slots → VTable.IsNulFree className' slots' →
      (VTable.key className slots = VTable.key className' slots' ↔ className = className' ∧
        (VTable.ofSlots className slots).entryPoints = (VTable.ofSlots className' slots').entryPoints) ∧
      ((VTable.ofSlots className slots).id = (VTable.ofSlots className' slots').id ↔
        className = className' ∧
          (VTable.ofSlots className slots).entryPoints = (VTable.ofSlots className' slots').entryPoints ∨
        Collide (max · 1) (VTable.key className slots) (VTable.key className' slots'))) ∧
    ∀ className className' methodName methodName' signature signature' : String,
      '.' ∉ className.toList → '.' ∉ className'.toList → ':' ∉ methodName.toList → ':' ∉ methodName'.toList →
      (EntryPoint.key (qualifiedName className methodName) signature =
          EntryPoint.key (qualifiedName className' methodName') signature' ↔
        className = className' ∧ methodName = methodName' ∧ signature = signature') ∧
      (EntryPoint.ofSymbol (qualifiedName className methodName) signature =
          EntryPoint.ofSymbol (qualifiedName className' methodName') signature' ↔
        (className = className' ∧ methodName = methodName' ∧ signature = signature') ∨
        Collide EntryPoint.addressOf (EntryPoint.key (qualifiedName className methodName) signature)
          (EntryPoint.key (qualifiedName className' methodName') signature')) := by
  refine ⟨fun className className' slots slots' h h' => ⟨VTable.key_eq_iff h h', ?_⟩,
    fun className className' methodName methodName' signature signature' hclass hclass' hmethod hmethod' =>
      ⟨EntryPoint.key_eq_iff hclass hclass' hmethod hmethod', ?_⟩⟩
  · rw [← VTable.key_eq_iff h h']
    exact shown_eq_iff (max · 1) _ _
  · rw [EntryPoint.ofSymbol_eq_iff, ← EntryPoint.key_eq_iff hclass hclass' hmethod hmethod']
    exact shown_eq_iff EntryPoint.addressOf _ _

/-- A table whose only method has a one-letter name; the address begins with the byte of another letter. -/
def tableOfA : List VTableSlot :=
  [⟨"a", ⟨0x62⟩, { args := [], ret := some .float }⟩]

/-- A table that begins with the same bytes: the letter belongs to the name here, and the address is zero. -/
def tableOfAB : List VTableSlot :=
  [⟨"ab", ⟨0⟩, { args := [], ret := some .float }⟩]

theorem isNulFree_tableOfA : VTable.IsNulFree "Tag" tableOfA := by
  refine ⟨?_, List.forall_mem_singleton.mpr ?_⟩ <;> rw [Utf8.toList_toUTF8] <;> decide

theorem isNulFree_tableOfAB : VTable.IsNulFree "Tag" tableOfAB := by
  refine ⟨?_, List.forall_mem_singleton.mpr ?_⟩ <;> rw [Utf8.toList_toUTF8] <;> decide

/-- The bytes of the first table are the first bytes of the second, and still the two differ; so do a class and a method
from those that share the letters of the joined name. -/
theorem digests_tell_apart_tables :
    (VTable.IsNulFree "Tag" tableOfA ∧ VTable.IsNulFree "Tag" tableOfAB ∧
      VTable.key "Tag" tableOfA <+: VTable.key "Tag" tableOfAB ∧
      VTable.key "Tag" tableOfA ≠ VTable.key "Tag" tableOfAB ∧
      ((VTable.ofSlots "Tag" tableOfA).id = (VTable.ofSlots "Tag" tableOfAB).id →
        Collide (max · 1) (VTable.key "Tag" tableOfA) (VTable.key "Tag" tableOfAB))) ∧
    '.' ∉ "Tag".toList ∧ '.' ∉ "Ta".toList ∧ ':' ∉ "norm".toList ∧ ':' ∉ "gnorm".toList ∧
    EntryPoint.key (qualifiedName "Tag" "norm") "() -> float" ≠
      EntryPoint.key (qualifiedName "Ta" "gnorm") "() -> float" ∧
    (EntryPoint.ofSymbol (qualifiedName "Tag" "norm") "() -> float" =
        EntryPoint.ofSymbol (qualifiedName "Ta" "gnorm") "() -> float" →
      Collide EntryPoint.addressOf (EntryPoint.key (qualifiedName "Tag" "norm") "() -> float")
        (EntryPoint.key (qualifiedName "Ta" "gnorm") "() -> float")) := by
  have hentries : (VTable.ofSlots "Tag" tableOfA).entryPoints ≠ (VTable.ofSlots "Tag" tableOfAB).entryPoints := by
    decide
  obtain ⟨hkey, hid⟩ := digests_tell_apart.1 "Tag" "Tag" tableOfA tableOfAB isNulFree_tableOfA isNulFree_tableOfAB
  obtain ⟨hmethod, haddress⟩ := digests_tell_apart.2 "Tag" "Ta" "norm" "gnorm" "() -> float" "() -> float"
    (by decide) (by decide) (by decide) (by decide)
  refine ⟨⟨isNulFree_tableOfA, isNulFree_tableOfAB, ?_, fun h => hentries (hkey.mp h).2, fun h => ?_⟩,
    by decide, by decide, by decide, by decide, fun h => absurd (hmethod.mp h).1 (by decide),
    fun h => (haddress.mp h).resolve_left fun heq => absurd heq.1 (by decide)⟩
  · refine ⟨[0], ?_⟩
    simp only [VTable.key, VTable.slotKey, tableOfA, tableOfAB, List.flatMap_cons, List.flatMap_nil, Utf8.toList_toUTF8]
    decide
  · exact (hid.mp h).resolve_left fun heq => hentries heq.2

end NativeClass
