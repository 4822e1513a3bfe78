import FormatInverse.Config.Basic
import FormatInverse.Config.Source

/-!
# Reading configurations

A configuration is a record of strategy, capture, duplicates, limits and parallel; limits and
parallel are records themselves.  A field that is not given keeps its standard value, fields of
other names are passed over, and a name written twice is a fault.
-/

namespace FormatInverse

namespace Strategy

def name : Strategy → String
  | regex => "regex"
  | delimited => "delimited"

def ofName? (t : Text) : Option Strategy := [regex, delimited].find? fun s => s.name.toList == t

end Strategy

namespace Capture

def name : Capture → String
  | greedy => "greedy"
  | lazy => "lazy"

def ofName? (t : Text) : Option Capture := [greedy, lazy].find? fun m => m.name.toList == t

end Capture

namespace Duplicates

def name : Duplicates → String
  | requireEqual => "require_equal"
  | lastWins => "last_wins"
  | firstWins => "first_wins"

def ofName? (t : Text) : Option Duplicates :=
  [requireEqual, lastWins, firstWins].find? fun d => d.name.toList == t

end Duplicates

namespace Source

variable {α : Type} [Source α]

/-- A choice by its name. -/
def choice? (ofName? : Text → Option β) (v : α) : Option β := (name? v).bind ofName?

end Source

variable {α : Type} [Source α]

def Limits.decode? (v : α) : Option Limits := do
  let r ← Source.record? v
  guard (r.atMost 3)
  let maxIndex ← r.fieldOr? 0 "max_placeholder_index" Limits.standard.maxIndex Source.word?
  let length ← r.fieldOr? 1 "max_template_length" Limits.standard.maxTemplateLength Source.word?
  let size ← r.fieldOr? 2 "regex_size_limit" Limits.standard.patternSize Source.word?
  return ⟨maxIndex, length, size⟩

def Parallel.decode? (v : α) : Option Parallel := do
  let r ← Source.record? v
  guard (r.atMost 2)
  let enabled ← r.fieldOr? 0 "enabled" Parallel.standard.enabled Source.truth?
  let size ← r.fieldOr? 1 "min_batch_size" Parallel.standard.minBatchSize Source.word?
  return ⟨enabled, size⟩

/-- The configuration that a value holds, usable or not. -/
def Config.decode? (v : α) : Option Config := do
  let r ← Source.record? v
  guard (r.atMost 5)
  let standard := Config.standard
  let strategy ← r.fieldOr? 0 "strategy" standard.strategy (Source.choice? Strategy.ofName?)
  let capture ← r.fieldOr? 1 "capture" standard.capture (Source.choice? Capture.ofName?)
  let duplicates ← r.fieldOr? 2 "duplicates" standard.duplicates
    (Source.choice? Duplicates.ofName?)
  let limits ← r.fieldOr? 3 "limits" standard.limits Limits.decode?
  let parallel ← r.fieldOr? 4 "parallel" standard.parallel Parallel.decode?
  return ⟨strategy, capture, duplicates, limits, parallel⟩

/-- The configuration that a value holds, if it can be used. -/
def Config.load (v : Option α) : Except ConfigError Config :=
  match v.bind Config.decode? with
  | none => .error .unreadable
  | some c => c.validate

end FormatInverse
