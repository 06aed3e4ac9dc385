import NativeClass.Config.Document
import NativeClass.Proofs.Ensures
/-!
# Keys that a document does not write

A configuration is read key by key: a key that the document writes has the value written, any other one has a default.
There are two defaults, one of a section that is not written at all and one of a key that is left out of a section,
and they differ for three keys.

* `Key`: the keys of a configuration; `Key.written?`: what a document writes for a key.
* `Key.leftOut`: the value of a key that its section leaves out.
* `ofEntries_eq_ok_iff`: how the entries of a document are read.
* **`parse_overlays`**: the configuration that a document spells, and when it is the default one but for what is
  written.
-/

namespace NativeClass.Config

variable {es fs : List (String × Toml.Value)} {v : Toml.Value} {c d : Config}

/-! ## Keys -/

/-- The sections of a configuration. -/
inductive Section where
  | compile
  | validation
  | errors
  | paths
  | logging
  deriving DecidableEq

/-- The name of a section in documents. -/
def Section.name : Section → String
  | .compile => "compile"
  | .validation => "validation"
  | .errors => "errors"
  | .paths => "paths"
  | .logging => "logging"

/-- The keys of a configuration. -/
inductive Key where
  | parallel
  | flags
  | nameCollisions
  | abstractMethods
  | attributeTypes
  | maxErrors
  | color
  | reportFormat
  | included
  | excluded
  | level
  | logFormat
  deriving DecidableEq

namespace Key

/-- The section of a key. -/
def within : Key → Section
  | parallel | flags => .compile
  | nameCollisions | abstractMethods | attributeTypes => .validation
  | maxErrors | color | reportFormat => .errors
  | included | excluded => .paths
  | level | logFormat => .logging

/-- The name of a key in documents. -/
def name : Key → String
  | parallel => "parallel"
  | flags => "flags"
  | nameCollisions => "name_collisions"
  | abstractMethods => "abstract_methods"
  | attributeTypes => "attribute_types"
  | maxErrors => "max_errors"
  | color => "color"
  | reportFormat => "format"
  | included => "include"
  | excluded => "exclude"
  | level => "level"
  | logFormat => "format"

/-- The place of a key in a section that is written as an array. -/
def place : Key → Nat
  | parallel | nameCollisions | maxErrors | included | level => 0
  | flags | abstractMethods | color | excluded | logFormat => 1
  | attributeTypes | reportFormat => 2

/-- The type of a key's values. -/
abbrev Value : Key → Type
  | parallel | nameCollisions | abstractMethods | attributeTypes | color => Bool
  | flags => Flags
  | maxErrors => Nat
  | reportFormat => ReportFormat
  | included | excluded => List String
  | level => String
  | logFormat => LogFormat

/-- The value of a key in a configuration. -/
def get : (k : Key) → Config → k.Value
  | parallel, c => c.compile.parallel
  | flags, c => c.compile.flags
  | nameCollisions, c => c.validation.nameCollisions
  | abstractMethods, c => c.validation.abstractMethods
  | attributeTypes, c => c.validation.attributeTypes
  | maxErrors, c => c.errors.maxErrors
  | color, c => c.errors.color
  | reportFormat, c => c.errors.format
  | included, c => c.paths.included
  | excluded, c => c.paths.excluded
  | level, c => c.logging.level
  | logFormat, c => c.logging.format

/-- A value of a document, read as the value of a key. -/
def read : (k : Key) → Toml.Value → Option k.Value
  | parallel | nameCollisions | abstractMethods | attributeTypes | color => readBool
  | flags => readFlags
  | maxErrors => readNat
  | reportFormat => readName ReportFormat.ofName?
  | included | excluded => readStrs
  | level => readStr
  | logFormat => readName LogFormat.ofName?

/-- The value of a key that a section leaves out. -/
def leftOut : (k : Key) → k.Value
  | included => []
  | excluded => []
  | logFormat => .pretty
  | k => k.get {}

/-- What the value of a section says for a key. -/
def entry? (k : Key) : Toml.Value → Option Toml.Value
  | .table fs => fs.lookup k.name
  | .array vs => vs[k.place]?
  | _ => none

/-- What the entries of a document say for a key. -/
def written? (es : List (String × Toml.Value)) (k : Key) : Option Toml.Value :=
  (es.lookup k.within.name).bind k.entry?

/-- The configuration has what the value of a section says for a key, or the default of a key that is left out. -/
def ReadFrom (k : Key) (v : Toml.Value) (c : Config) : Prop :=
  (∀ w, k.entry? v = some w → k.read w = some (k.get c)) ∧ (k.entry? v = none → k.get c = k.leftOut)

end Key

/-! ## Sections -/

/-- The keys of a section, in their order. -/
def Section.keys : Section → List Key
  | .compile => [.parallel, .flags]
  | .validation => [.nameCollisions, .abstractMethods, .attributeTypes]
  | .errors => [.maxErrors, .color, .reportFormat]
  | .paths => [.included, .excluded]
  | .logging => [.level, .logFormat]

theorem Section.mem_keys_iff {s : Section} {k : Key} : k ∈ s.keys ↔ k.within = s := by
  cases s <;> cases k <;> decide

/-- The fields of a value that stands for a section. -/
def Section.fields? (s : Section) (v : Toml.Value) : Option (List (String × Toml.Value)) :=
  Config.fields? (s.keys.map Key.name) v

/-- The configuration has the section that a value spells. -/
def Section.Spells (v : Toml.Value) (c : Config) : Section → Prop
  | .compile => readCompile v = some c.compile
  | .validation => readValidation v = some c.validation
  | .errors => readErrors v = some c.errors
  | .paths => readPaths v = some c.paths
  | .logging => readLogging v = some c.logging

theorem field_eq_some_iff {α : Type} {key : String} {read : Toml.Value → Option α} {default a : α} :
    field fs key read default = some a ↔
      (∀ w, fs.lookup key = some w → read w = some a) ∧ (fs.lookup key = none → a = default) := by
  rw [field]
  cases fs.lookup key with
  | none => simp [eq_comm]
  | some w => simp

theorem lookup_of_fields (k : Key) (h : k.within.fields? v = some fs) : fs.lookup k.name = k.entry? v := by
  cases v with
  | table es =>
    cases h
    rfl
  | array vs =>
    cases h
    cases k <;> rcases vs with _ | ⟨v₀, _ | ⟨v₁, _ | ⟨v₂, vs⟩⟩⟩ <;> rfl
  | _ => cases h

theorem field_eq_get_iff (k : Key) (h : k.within.fields? v = some fs) :
    field fs k.name k.read k.leftOut = some (k.get c) ↔ k.ReadFrom v c := by
  rw [field_eq_some_iff, lookup_of_fields k h, Key.ReadFrom]

theorem Section.spells_iff (s : Section) :
    s.Spells v c ↔
      ∃ fs, s.fields? v = some fs ∧ ∀ k ∈ s.keys, field fs k.name k.read k.leftOut = some (k.get c) := by
  obtain ⟨⟨_, _⟩, ⟨_, _, _⟩, ⟨_, _, _⟩, ⟨_, _⟩, ⟨_, _⟩⟩ := c
  cases s <;>
    simp [Spells, readCompile, readValidation, readErrors, readPaths, readLogging, Option.bind_eq_some_iff, fields?,
      keys, Key.name, Key.read, Key.leftOut, Key.get, -Bool.exists_bool]

/-! ## Documents -/

/-- The configuration has the values that the entries of a document write, and the given ones elsewhere. -/
structure Overlays (es : List (String × Toml.Value)) (base : (k : Key) → k.Value) (c : Config) : Prop where
  written : ∀ (k : Key) v, k.written? es = some v → k.read v = some (k.get c)
  unwritten : ∀ k : Key, k.written? es = none → k.get c = base k

theorem eq_of_get (h : ∀ k : Key, k.get c = k.get d) : c = d := by
  obtain ⟨⟨_, _⟩, ⟨_, _, _⟩, ⟨_, _, _⟩, ⟨_, _⟩, ⟨_, _⟩⟩ := c
  obtain ⟨⟨_, _⟩, ⟨_, _, _⟩, ⟨_, _, _⟩, ⟨_, _⟩, ⟨_, _⟩⟩ := d
  cases h .parallel
  cases h .flags
  cases h .nameCollisions
  cases h .abstractMethods
  cases h .attributeTypes
  cases h .maxErrors
  cases h .color
  cases h .reportFormat
  cases h .included
  cases h .excluded
  cases h .level
  cases h .logFormat
  rfl

/-- **There is at most one configuration** with the values written and the given ones elsewhere. -/
theorem Overlays.eq {base : (k : Key) → k.Value} (h : Overlays es base c) (h' : Overlays es base d) : c = d := by
  refine eq_of_get fun k => ?_
  cases hw : k.written? es with
  | none => rw [h.unwritten k hw, h'.unwritten k hw]
  | some v => exact Option.some.inj ((h.written k v hw).symm.trans (h'.written k v hw))

/-- The default of a key that a document does not write. -/
def Key.unwritten (es : List (String × Toml.Value)) (k : Key) : k.Value :=
  if (es.lookup k.within.name).isSome then k.leftOut else k.get {}

/-- The sections that a document writes are tables or arrays. -/
def AreSections (es : List (String × Toml.Value)) : Prop :=
  ∀ (s : Section) (v : Toml.Value), es.lookup s.name = some v → (∃ fs, v = .table fs) ∨ ∃ vs, v = .array vs

theorem readSection_eq_ok_iff {α : Type} {key : String} {read : Toml.Value → Option α} {default a : α} :
    readSection es key read default = .ok a ↔ field es key read default = some a := by
  rw [readSection]
  split <;> simp [*]

/-- The configuration has the section that a document writes or, if it does not write it, the default one. -/
def Section.IsRead (es : List (String × Toml.Value)) (c : Config) : Section → Prop
  | .compile => field es "compile" readCompile {} = some c.compile
  | .validation => field es "validation" readValidation {} = some c.validation
  | .errors => field es "errors" readErrors {} = some c.errors
  | .paths => field es "paths" readPaths {} = some c.paths
  | .logging => field es "logging" readLogging {} = some c.logging

/-- A section is the default one if all its keys have the values of the default configuration. -/
theorem Section.isRead_iff (s : Section) :
    s.IsRead es c ↔ (∀ v, es.lookup s.name = some v → s.Spells v c) ∧
      (es.lookup s.name = none → ∀ k ∈ s.keys, k.get c = k.get {}) := by
  obtain ⟨⟨_, _⟩, ⟨_, _, _⟩, ⟨_, _, _⟩, ⟨_, _⟩, ⟨_, _⟩⟩ := c
  cases s <;> simp [IsRead, field_eq_some_iff, name, Spells, keys, Key.get]

theorem ofEntries_eq_ok_iff_isRead : ofEntries es = .ok c ↔ ∀ s : Section, s.IsRead es c := by
  simp only [ofEntries, bind_eq_ok_iff, readSection_eq_ok_iff]
  constructor
  · rintro ⟨_, hcompile, _, hvalidation, _, herrors, _, hpaths, _, hlogging, hc⟩ s
    cases hc
    cases s <;> assumption
  · intro h
    exact ⟨_, h .compile, _, h .validation, _, h .errors, _, h .paths, _, h .logging, rfl⟩

theorem exists_fields?_iff (s : Section) :
    (∃ fs, s.fields? v = some fs) ↔ (∃ fs, v = .table fs) ∨ ∃ vs, v = .array vs := by
  cases v <;> simp [Section.fields?, Config.fields?]

theorem Key.readFrom_of_spells (k : Key) (h : k.within.Spells v c) : k.ReadFrom v c := by
  obtain ⟨fs, hfs, hkeys⟩ := k.within.spells_iff.mp h
  exact (field_eq_get_iff k hfs).mp (hkeys k (Section.mem_keys_iff.mpr rfl))

theorem Section.spells_of_readFrom {s : Section} (hv : (∃ fs, v = .table fs) ∨ ∃ vs, v = .array vs)
    (h : ∀ k ∈ s.keys, k.ReadFrom v c) : s.Spells v c := by
  obtain ⟨fs, hfs⟩ := (exists_fields?_iff s).mpr hv
  refine s.spells_iff.mpr ⟨fs, hfs, fun k hk => (field_eq_get_iff k ?_).mpr (h k hk)⟩
  rwa [mem_keys_iff.mp hk]

/-- **What the entries of a document say**: the sections are tables or arrays, and each key has the value written or
its default. -/
theorem ofEntries_eq_ok_iff : ofEntries es = .ok c ↔ AreSections es ∧ Overlays es (Key.unwritten es) c := by
  rw [ofEntries_eq_ok_iff_isRead]
  simp only [Section.isRead_iff]
  constructor
  · intro h
    refine ⟨fun s v hv => ?_, fun k w hk => ?_, fun k hk => ?_⟩
    · obtain ⟨fs, hfs, -⟩ := s.spells_iff.mp ((h s).1 v hv)
      exact (exists_fields?_iff s).mp ⟨fs, hfs⟩
    · obtain ⟨v, hv, hentry⟩ := Option.bind_eq_some_iff.mp hk
      exact (k.readFrom_of_spells ((h k.within).1 v hv)).1 w hentry
    · rw [Key.unwritten]
      cases hv : es.lookup k.within.name with
      | none => exact (h k.within).2 hv k (Section.mem_keys_iff.mpr rfl)
      | some v =>
        rw [Key.written?, hv] at hk
        exact (k.readFrom_of_spells ((h k.within).1 v hv)).2 hk
  · rintro ⟨hsections, hover⟩ s
    refine ⟨fun v hv => Section.spells_of_readFrom (hsections s v hv) fun k hk => ?_, fun hv k hk => ?_⟩
    all_goals
      obtain rfl := Section.mem_keys_iff.mp hk
      have hwritten := hover.written k
      have hunwritten := hover.unwritten k
      rw [Key.written?, hv] at hwritten hunwritten
    · rw [Key.unwritten, hv] at hunwritten
      exact ⟨hwritten, hunwritten⟩
    · rw [Key.unwritten, hv] at hunwritten
      exact hunwritten rfl

/-! ## The default configuration -/

/-- The keys that have another value in a section that leaves them out than in the default configuration. -/
theorem Key.leftOut_eq_iff (k : Key) :
    k.leftOut = k.get {} ↔ k ≠ included ∧ k ≠ excluded ∧ k ≠ logFormat := by
  cases k <;> simp [leftOut, get]

/-- The document has the section of a key but not the key. -/
def Key.IsLeftOut (es : List (String × Toml.Value)) (k : Key) : Prop :=
  (es.lookup k.within.name).isSome ∧ k.written? es = none

theorem Key.unwritten_eq_iff (k : Key) (hk : k.written? es = none) :
    k.unwritten es = k.get {} ↔ ¬(k.IsLeftOut es ∧ k.leftOut ≠ k.get {}) := by
  rw [unwritten, IsLeftOut]
  split <;> simp [*]

theorem overlays_default_iff (h : Overlays es (Key.unwritten es) c) :
    Overlays es (fun k => k.get {}) c ↔
      ¬Key.included.IsLeftOut es ∧ ¬Key.excluded.IsLeftOut es ∧ ¬Key.logFormat.IsLeftOut es := by
  constructor
  · intro hdefault
    have hkept : ∀ k : Key, k.leftOut ≠ k.get {} → ¬k.IsLeftOut es := fun k hne hleft => by
      have heq := (h.unwritten k hleft.2).symm.trans (hdefault.unwritten k hleft.2)
      exact (k.unwritten_eq_iff hleft.2).mp heq ⟨hleft, hne⟩
    exact ⟨hkept _ (by decide), hkept _ (by decide), hkept _ (by decide)⟩
  · rintro ⟨hincluded, hexcluded, hformat⟩
    refine ⟨h.written, fun k hk => ?_⟩
    rw [h.unwritten k hk, k.unwritten_eq_iff hk, ne_eq, k.leftOut_eq_iff]
    rintro ⟨hleft, hne⟩
    refine hne ⟨?_, ?_, ?_⟩ <;> rintro rfl <;> contradiction

/-- **The configuration that a document spells.** Each key has the value written or its default. It is the default
configuration but for what is written, unless a key is left out whose default in a section is another one. -/
theorem parse_overlays (text : String) (c : Config) :
    parse text = .ok c ↔ ∃ es, Toml.parse text = .ok es ∧ AreSections es ∧ Overlays es (Key.unwritten es) c ∧
      (Overlays es (fun k => k.get {}) c ↔
        ¬Key.included.IsLeftOut es ∧ ¬Key.excluded.IsLeftOut es ∧ ¬Key.logFormat.IsLeftOut es) := by
  rw [parse]
  constructor
  · intro h
    split at h
    next es hes =>
      obtain ⟨hsections, hover⟩ := ofEntries_eq_ok_iff.mp h
      exact ⟨es, hes, hsections, hover, overlays_default_iff hover⟩
    next e he => cases h
  · rintro ⟨es, hes, hsections, hover, -⟩
    rw [hes]
    exact ofEntries_eq_ok_iff.mpr ⟨hsections, hover⟩

end NativeClass.Config

namespace NativeClass.Sample

/-- A document that writes half of a section. -/
def halfSection : String :=
  "[logging]\nlevel = \"info\"\n"

end NativeClass.Sample

namespace NativeClass.Config

open Sample (halfSection)

/-- A key that a section leaves out need not have the default of the whole configuration. -/
theorem not_overlays_halfSection :
    ¬ ∀ (text : String) (es : List (String × Toml.Value)) (c : Config), Toml.parse text = .ok es →
      parse text = .ok c → Overlays es (fun k => k.get {}) c := by
  intro h
  have hconfig : ((parse halfSection).toOption.map fun c => c.logging.format) = some .pretty := by decide +kernel
  have hwritten : ((Toml.parse halfSection).toOption.map fun es => (Key.logFormat.written? es).isNone) = some true := by
    decide +kernel
  cases hes : Toml.parse halfSection with
  | error e =>
    rw [hes] at hwritten
    cases hwritten
  | ok es =>
    cases hc : parse halfSection with
    | error e =>
      rw [hc] at hconfig
      cases hconfig
    | ok c =>
      rw [hes] at hwritten
      rw [hc] at hconfig
      have hformat := (h halfSection es c hes hc).unwritten .logFormat
        (Option.isNone_iff_eq_none.mp (Option.some.inj hwritten))
      exact absurd ((Option.some.inj hconfig).symm.trans hformat) (by decide)

end NativeClass.Config
