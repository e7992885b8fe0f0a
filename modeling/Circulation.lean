import Circulation.Cache.Timeline
import Circulation.Command.Watch
import Circulation.Http.Message
import Circulation.Main
import Circulation.Proofs.Cache.Height
import Circulation.Proofs.Cache.Timeline
import Circulation.Proofs.Lock.Opening
import Circulation.Proofs.Lock.Overdue
import Circulation.Proofs.Text.Order
import Circulation.Proofs.Text.Percent
import Circulation.Proofs.Json.Reordering
import Circulation.Proofs.Json.Density
import Circulation.Proofs.Json.Canonical
import Circulation.Proofs.Policy.Fingerprint
import Circulation.Proofs.Json.Envelope
import Circulation.Proofs.Lcd.Target
import Circulation.Proofs.Lcd.State
import Circulation.Proofs.Lcd.Answer
import Circulation.Proofs.Snapshot.Balance
import Circulation.Proofs.Snapshot.Coverage
import Circulation.Proofs.Snapshot.Isolation
import Circulation.Proofs.Snapshot.Passing
import Circulation.Snapshot.Json
import Circulation.Proofs.Program.Given
import Circulation.Proofs.Snapshot.Named
import Circulation.Proofs.Snapshot.Order
import Circulation.Proofs.Snapshot.Places
import Circulation.Proofs.Instant.Clock
import Circulation.Proofs.Instant.Reading
import Circulation.Proofs.Json.Decoding
import Circulation.Proofs.Lock.Times
import Circulation.Proofs.Snapshot.EndDates
import Circulation.Proofs.Snapshot.Writing
import Circulation.Proofs.Json.Grammar
import Circulation.Proofs.Json.Literals
import Circulation.Proofs.Json.Reading
import Circulation.Proofs.Json.Acceptance
import Circulation.Proofs.Json.Members
import Circulation.Proofs.Json.Editions
import Circulation.Proofs.Json.Outline
import Circulation.Proofs.Json.Writing
import Circulation.Proofs.Instant.Rendering
import Circulation.Proofs.Json.Stability
import Circulation.Proofs.Json.Written
import Circulation.Proofs.Policy.RoundTrip
import Circulation.Proofs.Policy.Editions
import Circulation.Proofs.Snapshot.RoundTrip
import Circulation.Proofs.Instant.Forms
import Circulation.Proofs.Lock.Forms
import Circulation.Proofs.Claim.Forms
import Circulation.Proofs.Lock.Cumulative
import Circulation.Proofs.Claim.Shadows
import Circulation.Proofs.Snapshot.Incomplete
import Circulation.Proofs.Snapshot.Bootstraps
import Circulation.Proofs.Instant.CalendarMonths
import Circulation.Proofs.Lock.Linear
import Circulation.Proofs.Snapshot.Tag
import Circulation.Proofs.Snapshot.Claims
import Circulation.Proofs.Instant.Chronology
import Circulation.Proofs.Claim.Times
import Circulation.Proofs.Double
import Circulation.Proofs.Json.Integers
import Circulation.Proofs.Claim.Seconds
import Circulation.Proofs.Lcd.Retries
import Circulation.Proofs.Decimal
import Circulation.Proofs.Lcd.Slots
import Circulation.Proofs.Lock.OtherCoins
import Circulation.Proofs.Json.Agreement
import Circulation.Proofs.Claim.OtherCoins
import Circulation.Proofs.Lcd.OtherCoins
import Circulation.Proofs.Cache.Attempts
import Circulation.Proofs.Cache.Refresher
import Circulation.Proofs.Policy.Flaws
import Circulation.Proofs.Lcd.Backoff
import Circulation.Proofs.Positional
