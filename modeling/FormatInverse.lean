import FormatInverse.Calendar.Parse
import FormatInverse.Config.Load
import FormatInverse.Log
import FormatInverse.Number.Parse
import FormatInverse.Proofs.Calendar.Clause
import FormatInverse.Proofs.Calendar.Fallback
import FormatInverse.Proofs.Calendar.Hint
import FormatInverse.Proofs.Calendar.ShortDate
import FormatInverse.Proofs.Calendar.Standard
import FormatInverse.Proofs.Config.Overlay
import FormatInverse.Proofs.Json.Codec
import FormatInverse.Proofs.Layout.Ambiguity
import FormatInverse.Proofs.Layout.Slicing
import FormatInverse.Proofs.Layout.Source
import FormatInverse.Proofs.Number.Agreement
import FormatInverse.Proofs.Number.Canonical
import FormatInverse.Proofs.Number.Integer
import FormatInverse.Proofs.Number.Separator
import FormatInverse.Proofs.Template.Acceptance
import FormatInverse.Proofs.Template.Buckets
import FormatInverse.Proofs.Template.Duplicates
import FormatInverse.Proofs.Template.Fault
import FormatInverse.Proofs.Template.Rejection
import FormatInverse.Proofs.Template.RoundTrip
import FormatInverse.Proofs.Template.Shape
import FormatInverse.Proofs.Template.Strategy
