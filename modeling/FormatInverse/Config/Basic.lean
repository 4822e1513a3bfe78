import FormatInverse.Text.Basic

/-!
# Configurations

How a template is matched, and the limits it is held to.  `Config.fault?` tells what keeps a
configuration from being used.
-/

namespace FormatInverse

/-- how the slots of a template are found in an input: by the pattern of the whole template, or by
looking for the literals between the slots -/
inductive Strategy where
  | regex
  | delimited
  deriving DecidableEq, Repr

/-- which of several splits is meant: each slot, from the left, takes the longest or the shortest
text that lets the rest match -/
inductive Capture where
  | greedy
  | lazy
  deriving DecidableEq, Repr

/-- what becomes of an anchor that is placed several times -/
inductive Duplicates where
  /-- all its slots have to capture the same text -/
  | requireEqual
  | lastWins
  | firstWins
  deriving DecidableEq, Repr

structure Limits where
  maxIndex : UInt64
  /-- in bytes -/
  maxTemplateLength : UInt64
  /-- the bytes that the program of a pattern may take -/
  patternSize : UInt64
  deriving DecidableEq, Repr

def Limits.standard : Limits := ⟨999999, 1048576, 10485760⟩

/-- whether, and from how many inputs on, a batch is worked on in parallel -/
structure Parallel where
  enabled : Bool
  minBatchSize : UInt64
  deriving DecidableEq, Repr

def Parallel.standard : Parallel := ⟨true, 256⟩

structure Config where
  strategy : Strategy
  capture : Capture
  duplicates : Duplicates
  limits : Limits
  parallel : Parallel
  deriving DecidableEq, Repr

/-- the settings of a configuration that must not be zero -/
inductive Setting where
  | maxTemplateLength
  | patternSize
  | minBatchSize
  deriving DecidableEq, Repr

def Setting.name : Setting → String
  | maxTemplateLength => "max_template_length"
  | patternSize => "regex_size_limit"
  | minBatchSize => "min_batch_size"

inductive ConfigError where
  /-- the text is no configuration -/
  | unreadable
  | zero (setting : Setting)
  deriving DecidableEq, Repr

/-- The wording of the fault, but for a text that cannot be read. -/
def ConfigError.message? : ConfigError → Option String
  | unreadable => none
  | zero setting =>
    let name := setting.name
    some s!"Invalid configuration: {name} must be greater than 0"

namespace Config

/-! ## presets -/

def standard : Config := ⟨.regex, .greedy, .requireEqual, .standard, .standard⟩

/-- all slots of an anchor have to agree -/
def strict : Config := { standard with duplicates := .requireEqual }

/-- one scan of the input per template -/
def linearTime : Config := { standard with strategy := .delimited }

def legacy : Config :=
  { standard with strategy := .regex, capture := .greedy, duplicates := .lastWins }

/-! ## replacing one part -/

def withStrategy (c : Config) (s : Strategy) : Config := { c with strategy := s }

def withCapture (c : Config) (m : Capture) : Config := { c with capture := m }

def withDuplicates (c : Config) (d : Duplicates) : Config := { c with duplicates := d }

def withLimits (c : Config) (l : Limits) : Config := { c with limits := l }

def withParallel (c : Config) (enabled : Bool) : Config :=
  { c with parallel := { c.parallel with enabled := enabled } }

def withMinBatchSize (c : Config) (n : UInt64) : Config :=
  { c with parallel := { c.parallel with minBatchSize := n } }

/-! ## validity -/

/-- The first setting that is zero and must not be. -/
def fault? (c : Config) : Option ConfigError :=
  if c.limits.maxTemplateLength = 0 then some (.zero .maxTemplateLength)
  else if c.limits.patternSize = 0 then some (.zero .patternSize)
  else if c.parallel.minBatchSize = 0 then some (.zero .minBatchSize)
  else none

/-- The configuration itself, if it can be used. -/
def validate (c : Config) : Except ConfigError Config :=
  match c.fault? with
  | some e => .error e
  | none => .ok c

end Config

end FormatInverse
