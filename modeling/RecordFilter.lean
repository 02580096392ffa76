import RecordFilter.Main
import RecordFilter.Proofs.Expression.RoundTrip
import RecordFilter.Proofs.Query.Comparison
import RecordFilter.Proofs.Query.Selection
import RecordFilter.Query.Trace
import RecordFilter.Proofs.Calendar.Date
import RecordFilter.Proofs.Calendar.DateTime
import RecordFilter.Proofs.Calendar.Reading
import RecordFilter.Proofs.Number.Double
import RecordFilter.Proofs.Number.Numeral
import RecordFilter.Proofs.Query.Literal
import RecordFilter.Proofs.Query.Refusal
import RecordFilter.Proofs.Query.Matching
import RecordFilter.Proofs.Query.Session
import RecordFilter.Proofs.Query.Reflexivity
import RecordFilter.Proofs.Query.Successive
import RecordFilter.Proofs.Query.Trichotomy
import RecordFilter.Proofs.Query.Repeated
import RecordFilter.Proofs.Query.SameInstant
import RecordFilter.Proofs.Query.Typed
import RecordFilter.Proofs.Query.Precedence
import RecordFilter.Proofs.Query.Shape
import RecordFilter.Proofs.Settings.Fields
import RecordFilter.Proofs.Settings.Run
import RecordFilter.Proofs.Settings.Written
import RecordFilter.Proofs.Query.Batch
import RecordFilter.Proofs.Query.Integer
import RecordFilter.Proofs.Query.RecordText
import RecordFilter.Proofs.Query.Kind
import RecordFilter.Proofs.Query.Exactness
import RecordFilter.Proofs.Query.Shown
import RecordFilter.Proofs.Settings.Unread
import RecordFilter.Proofs.Command.Start
import RecordFilter.Proofs.Command.Alias
import RecordFilter.Proofs.Query.Path
import RecordFilter.Proofs.Query.Emptiness
import RecordFilter.Proofs.Command.Restart
import RecordFilter.Proofs.Value.Key
import RecordFilter.Proofs.Page.Columns
