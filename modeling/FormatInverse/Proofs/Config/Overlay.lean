import FormatInverse.Config.Load
import FormatInverse.Proofs.Json.Codec
import FormatInverse.Template.Basic

/-!
# Configurations that name only some settings

A record may name any of the settings of a configuration, at both levels and in any order.  What is
read from it is the standard configuration with the named settings, and only those, replaced
(`Config.decode?_selection`).  A text that holds such a record is turned down exactly when one of
the three settings that must not be zero is zero after that (`Config.ofJson_selection`).
-/

namespace FormatInverse

open Json

namespace Json

variable {α β : Type} {names : α → String} {values : α → Json} {keys : List α}

/-! ## records by keys -/

/-- the members of a record that has these keys -/
def membersOf (names : α → String) (values : α → Json) (keys : List α) : List (String × Json) :=
  keys.map fun key => (names key, values key)

theorem nodup_membersOf (hnames : Function.Injective names) (hkeys : keys.Nodup) :
    ((membersOf names values keys).map Prod.fst).Nodup := by
  rw [membersOf, List.map_map]
  exact hkeys.map hnames

theorem lookup_membersOf [DecidableEq α] (hnames : Function.Injective names) (key : α) :
    (membersOf names values keys).lookup (names key)
      = if key ∈ keys then some (values key) else none := by
  induction keys with
  | nil => rfl
  | cons first keys ih =>
    by_cases hkey : key = first
    · subst hkey
      simp [membersOf]
    · rw [membersOf, List.map_cons, ← membersOf, lookup_cons_of_ne (hnames.ne hkey), ih]
      simp [hkey]

/-- A setting is read from the record if its key is there, and has its standard value if not. -/
theorem fieldOr?_membersOf [DecidableEq α] (hnames : Function.Injective names)
    (hkeys : keys.Nodup) (key : α) {read : Json → Option β} {value : β}
    (hread : read (values key) = some value) (place : Nat) (standard : β) :
    (fieldsOf (membersOf names values keys)).fieldOr? place (names key) standard read
      = some (if key ∈ keys then value else standard) := by
  rw [fieldOr?_fieldsOf (nodup_membersOf hnames hkeys), lookup_membersOf hnames]
  split_ifs
  · exact hread
  · rfl

theorem reads_membersOf (h : ∀ key, Reads (values key)) :
    Reads (record (membersOf names values keys)) := by
  refine reads_record fun m hm => ?_
  obtain ⟨key, -, rfl⟩ := List.mem_map.mp hm
  exact h key

end Json

/-! ## limits -/

namespace Limits

inductive Key where
  | maxIndex
  | maxTemplateLength
  | patternSize
  deriving DecidableEq, Repr

def Key.name : Key → String
  | maxIndex => "max_placeholder_index"
  | maxTemplateLength => "max_template_length"
  | patternSize => "regex_size_limit"

def Key.word (l : Limits) : Key → UInt64
  | maxIndex => l.maxIndex
  | maxTemplateLength => l.maxTemplateLength
  | patternSize => l.patternSize

def Key.encode (l : Limits) (key : Key) : Json := Json.ofNat (key.word l).toNat

/-- the limits of these keys, in their order -/
def encodeOnly (keys : List Key) (l : Limits) : Json :=
  record (membersOf Key.name (Key.encode l) keys)

/-- the standard limits with the limits of these keys replaced -/
def overlay (keys : List Key) (l : Limits) : Limits where
  maxIndex := if .maxIndex ∈ keys then l.maxIndex else standard.maxIndex
  maxTemplateLength :=
    if .maxTemplateLength ∈ keys then l.maxTemplateLength else standard.maxTemplateLength
  patternSize := if .patternSize ∈ keys then l.patternSize else standard.patternSize

variable {keys : List Key}

theorem Key.name_injective : Function.Injective Key.name := by
  intro a b h
  cases a <;> cases b <;> simp [name] at h ⊢

theorem decode?_encodeOnly (hkeys : keys.Nodup) (l : Limits) :
    decode? (l.encodeOnly keys) = some (l.overlay keys) := by
  have hword : ∀ key, word? (Key.encode l key) = some (Key.word l key) := fun _ => word?_ofNat _
  have hfield := fun key => fieldOr?_membersOf Key.name_injective hkeys key (hword key)
  have hindex := hfield .maxIndex 0 standard.maxIndex
  have hlength := hfield .maxTemplateLength 1 standard.maxTemplateLength
  have hsize := hfield .patternSize 2 standard.patternSize
  simp only [Key.name, Key.word] at hindex hlength hsize
  simp [decode?, encodeOnly, Source.record?, Source.word?, record?_record, atMost_fieldsOf,
    hindex, hlength, hsize, overlay]

theorem reads_encodeOnly (keys : List Key) (l : Limits) : Reads (l.encodeOnly keys) :=
  reads_membersOf fun _ => reads_ofNat _

end Limits

/-! ## parallel work -/

namespace Parallel

inductive Key where
  | enabled
  | minBatchSize
  deriving DecidableEq, Repr

def Key.name : Key → String
  | enabled => "enabled"
  | minBatchSize => "min_batch_size"

def Key.encode (p : Parallel) : Key → Json
  | enabled => .bool p.enabled
  | minBatchSize => Json.ofNat p.minBatchSize.toNat

/-- the settings of these keys, in their order -/
def encodeOnly (keys : List Key) (p : Parallel) : Json :=
  record (membersOf Key.name (Key.encode p) keys)

/-- the standard settings with those of these keys replaced -/
def overlay (keys : List Key) (p : Parallel) : Parallel where
  enabled := if .enabled ∈ keys then p.enabled else standard.enabled
  minBatchSize := if .minBatchSize ∈ keys then p.minBatchSize else standard.minBatchSize

variable {keys : List Key}

theorem Key.name_injective : Function.Injective Key.name := by
  intro a b h
  cases a <;> cases b <;> simp [name] at h ⊢

theorem decode?_encodeOnly (hkeys : keys.Nodup) (p : Parallel) :
    decode? (p.encodeOnly keys) = some (p.overlay keys) := by
  have htruth : truth? (Key.encode p .enabled) = some p.enabled := rfl
  have hword : word? (Key.encode p .minBatchSize) = some p.minBatchSize := word?_ofNat _
  have henabled := fieldOr?_membersOf Key.name_injective hkeys .enabled htruth 0 standard.enabled
  have hsize := fieldOr?_membersOf Key.name_injective hkeys .minBatchSize hword 1
    standard.minBatchSize
  simp only [Key.name] at henabled hsize
  simp [decode?, encodeOnly, Source.record?, Source.truth?, Source.word?, record?_record,
    atMost_fieldsOf, henabled, hsize, overlay]

theorem reads_encodeOnly (keys : List Key) (p : Parallel) : Reads (p.encodeOnly keys) :=
  reads_membersOf fun key => by
    cases key
    · exact reads_bool _
    · exact reads_ofNat _

end Parallel

/-! ## configurations -/

namespace Config

inductive Key where
  | strategy
  | capture
  | duplicates
  | limits
  | parallel
  deriving DecidableEq, Repr

def Key.name : Key → String
  | strategy => "strategy"
  | capture => "capture"
  | duplicates => "duplicates"
  | limits => "limits"
  | parallel => "parallel"

/-- The settings that a record names, in its order and none of them twice: the keys of the record
itself, and the keys of the two records that may stand in it. -/
structure Selection where
  keys : List Key
  limits : List Limits.Key
  parallel : List Parallel.Key
  keys_nodup : keys.Nodup
  limits_nodup : limits.Nodup
  parallel_nodup : parallel.Nodup

namespace Selection

variable (s : Selection) (c : Config)

def encodeKey : Key → Json
  | .strategy => ofString c.strategy.name
  | .capture => ofString c.capture.name
  | .duplicates => ofString c.duplicates.name
  | .limits => c.limits.encodeOnly s.limits
  | .parallel => c.parallel.encodeOnly s.parallel

/-- the record that names just these settings, each as it is in the configuration -/
def encode : Json := record (membersOf Key.name (s.encodeKey c) s.keys)

/-- the standard configuration with these settings, and only these, replaced -/
def overlay : Config where
  strategy := if .strategy ∈ s.keys then c.strategy else standard.strategy
  capture := if .capture ∈ s.keys then c.capture else standard.capture
  duplicates := if .duplicates ∈ s.keys then c.duplicates else standard.duplicates
  limits := if .limits ∈ s.keys then c.limits.overlay s.limits else standard.limits
  parallel := if .parallel ∈ s.keys then c.parallel.overlay s.parallel else standard.parallel

end Selection

variable {c : Config}

theorem Key.name_injective : Function.Injective Key.name := by
  intro a b h
  cases a <;> cases b <;> simp [name] at h ⊢

/-! ### choices -/

theorem choice?_strategy (s : Strategy) :
    Source.choice? Strategy.ofName? (ofString s.name) = some s := by
  cases s <;> rfl

theorem choice?_capture (m : Capture) :
    Source.choice? Capture.ofName? (ofString m.name) = some m := by
  cases m <;> rfl

theorem choice?_duplicates (d : Duplicates) :
    Source.choice? Duplicates.ofName? (ofString d.name) = some d := by
  cases d <;> rfl

/-! ### reading -/

theorem decode?_selection (s : Selection) (c : Config) :
    decode? (s.encode c) = some (s.overlay c) := by
  have hnames := Key.name_injective
  have hkeys := s.keys_nodup
  -- what stands in the record at each key is read as the setting itself
  have hstrategy : Source.choice? Strategy.ofName? (s.encodeKey c .strategy) = some c.strategy :=
    choice?_strategy _
  have hcapture : Source.choice? Capture.ofName? (s.encodeKey c .capture) = some c.capture :=
    choice?_capture _
  have hduplicates : Source.choice? Duplicates.ofName? (s.encodeKey c .duplicates)
      = some c.duplicates := choice?_duplicates _
  have hlimits : Limits.decode? (s.encodeKey c .limits) = some (c.limits.overlay s.limits) :=
    Limits.decode?_encodeOnly s.limits_nodup _
  have hparallel : Parallel.decode? (s.encodeKey c .parallel)
      = some (c.parallel.overlay s.parallel) := Parallel.decode?_encodeOnly s.parallel_nodup _
  -- so the field of the key is the setting, or the standard one where the key is not given
  replace hstrategy := fieldOr?_membersOf hnames hkeys _ hstrategy 0 standard.strategy
  replace hcapture := fieldOr?_membersOf hnames hkeys _ hcapture 1 standard.capture
  replace hduplicates := fieldOr?_membersOf hnames hkeys _ hduplicates 2 standard.duplicates
  replace hlimits := fieldOr?_membersOf hnames hkeys _ hlimits 3 standard.limits
  replace hparallel := fieldOr?_membersOf hnames hkeys _ hparallel 4 standard.parallel
  simp only [Key.name] at hstrategy hcapture hduplicates hlimits hparallel
  simp [decode?, Selection.encode, Source.record?, record?_record, atMost_fieldsOf, hstrategy,
    hcapture, hduplicates, hlimits, hparallel, Selection.overlay]

theorem reads_selection (s : Selection) (c : Config) : Reads (s.encode c) :=
  reads_membersOf fun key => by
    cases key
    · exact reads_ofText _
    · exact reads_ofText _
    · exact reads_ofText _
    · exact Limits.reads_encodeOnly _ _
    · exact Parallel.reads_encodeOnly _ _

/-! ### all settings -/

/-- every setting, in the order of the types -/
def Selection.all : Selection where
  keys := [.strategy, .capture, .duplicates, .limits, .parallel]
  limits := [.maxIndex, .maxTemplateLength, .patternSize]
  parallel := [.enabled, .minBatchSize]
  keys_nodup := by decide
  limits_nodup := by decide
  parallel_nodup := by decide

/-- A configuration is what is read from its own record. -/
theorem decode?_encode (c : Config) : decode? c.encode = some c :=
  decode?_selection .all c

/-! ### use -/

/-- None of the settings is zero that must not be. -/
def Usable (c : Config) : Prop :=
  c.limits.maxTemplateLength ≠ 0 ∧ c.limits.patternSize ≠ 0 ∧ c.parallel.minBatchSize ≠ 0

instance (c : Config) : Decidable c.Usable := inferInstanceAs (Decidable (_ ∧ _))

theorem fault?_of_usable (h : c.Usable) : c.fault? = none := by
  obtain ⟨hlength, hsize, hbatch⟩ := h
  rw [fault?, if_neg hlength, if_neg hsize, if_neg hbatch]

theorem exists_fault?_of_not_usable (h : ¬ c.Usable) :
    ∃ setting, c.fault? = some (.zero setting) := by
  rw [fault?]
  split_ifs with hlength hsize hbatch
  · exact ⟨_, rfl⟩
  · exact ⟨_, rfl⟩
  · exact ⟨_, rfl⟩
  · exact absurd ⟨hlength, hsize, hbatch⟩ h

theorem fault?_of_validate {d : Config} (h : d.validate = .ok c) : c.fault? = none := by
  unfold validate at h
  split at h
  · cases h
  · next hfault =>
    cases h
    exact hfault

/-- Only a configuration that can be used is loaded. -/
theorem fault?_of_load {α : Type} [Source α] {v : Option α} (h : load v = .ok c) :
    c.fault? = none := by
  unfold load at h
  split at h
  · cases h
  · exact fault?_of_validate h

theorem eq_patternTooLarge {f : CompileError} (h : Layout.patternFault? c = some f) :
    f = .patternTooLarge c.limits.patternSize := by
  unfold Layout.patternFault? at h
  split at h
  · split_ifs at h
    exact (Option.some.inj h).symm
  · cases h

/-- A configuration without fault is never why a template is turned down. -/
theorem compile_ne_invalidConfig (h : c.fault? = none) (text : Text) (e : ConfigError) :
    Template.compile c text ≠ .error (.invalidConfig e) := by
  intro hcompile
  simp only [Template.compile, bind, Except.bind, h] at hcompile
  split at hcompile
  · cases hcompile
  · cases htoks : tokens c.limits.maxIndex text with
    | error e' =>
      rw [htoks] at hcompile
      cases hcompile
    | ok toks =>
      rw [htoks] at hcompile
      cases hpattern : Layout.patternFault? c with
      | none =>
        rw [hpattern] at hcompile
        cases hcompile
      | some f =>
        rw [hpattern] at hcompile
        rw [eq_patternTooLarge hpattern] at hcompile
        cases hcompile

/-- A text that holds a record of some settings of a configuration, whichever they are and however
they are ordered, stands for the standard configuration with these settings replaced.  If that can
be used it is what is loaded, and otherwise the fault is a setting that is zero; and no template is
turned down because of the configuration that is loaded. -/
theorem ofJson_selection (s : Selection) (c : Config) :
    Json.read? (s.encode c).write = some (s.encode c) ∧
      ∀ text, Json.read? text = some (s.encode c) →
        ((s.overlay c).Usable → ofJson text = .ok (s.overlay c)) ∧
          (¬ (s.overlay c).Usable → ∃ setting, ofJson text = .error (.zero setting)) ∧
          ∀ d, ofJson text = .ok d → ∀ template e,
            Template.compile d template ≠ .error (.invalidConfig e) := by
  refine ⟨read?_write (reads_selection s c), fun text hread => ?_⟩
  have hload : ofJson text = (s.overlay c).validate := by
    rw [ofJson, hread, load, Option.bind_some, decode?_selection]
  refine ⟨fun h => ?_, fun h => ?_, fun d hd template e =>
    compile_ne_invalidConfig (fault?_of_load hd) template e⟩
  · rw [hload, validate, fault?_of_usable h]
  · obtain ⟨setting, hfault⟩ := exists_fault?_of_not_usable h
    exact ⟨setting, by rw [hload, validate, hfault]⟩

/-- two of the settings, the one of the inner record first -/
def Selection.sample : Selection where
  keys := [.limits, .strategy]
  limits := [.patternSize]
  parallel := []
  keys_nodup := by decide
  limits_nodup := by decide
  parallel_nodup := by decide

/-- Each setting differs from its standard value, and some are zero that must not be. -/
def sample (patternSize : UInt64) : Config :=
  ⟨.delimited, .lazy, .lastWins, ⟨5, 0, patternSize⟩, ⟨false, 0⟩⟩

/-- The two settings of the sample, written with blanks. -/
def sampleText : Text :=
  ("\x7b \x22limits\x22: \x7b\x22regex_size_limit\x22: 4096\x7d, "
    ++ "\x22strategy\x22: \x22delimited\x22 \x7d").toList

theorem ofJson_selection_sample :
    ofJson sampleText
        = .ok { linearTime with limits := { Limits.standard with patternSize := 4096 } } ∧
      (∀ template e, Template.compile (Selection.sample.overlay (sample 4096)) template
        ≠ .error (.invalidConfig e)) ∧
      ∃ setting, ofJson (Selection.sample.encode (sample 0)).write = .error (.zero setting) := by
  have hread : Json.read? sampleText = some (Selection.sample.encode (sample 4096)) := by cbv
  obtain ⟨-, hload⟩ := ofJson_selection .sample (sample 4096)
  obtain ⟨hok, -, hcompile⟩ := hload sampleText hread
  have husable : (Selection.sample.overlay (sample 4096)).Usable := by decide
  obtain ⟨hwritten, hzero⟩ := ofJson_selection .sample (sample 0)
  have hunusable : ¬ (Selection.sample.overlay (sample 0)).Usable := by decide
  exact ⟨hok husable, hcompile _ (hok husable), (hzero _ hwritten).2.1 hunusable⟩

end Config

end FormatInverse
