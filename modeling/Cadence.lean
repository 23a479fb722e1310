import Cadence.Main
import Cadence.Mask.Portable
import Cadence.Zone.Rules
import Cadence.Proofs.Search.LeastDue
import Cadence.Proofs.Occurrence.NextFiring
import Cadence.Proofs.Occurrence.Upcoming
import Cadence.Proofs.Occurrence.Progress
import Cadence.Proofs.Canonical.RoundTrip
import Cadence.Proofs.Canonical.Spread
import Cadence.Proofs.Occurrence.SameMasks
import Cadence.Proofs.Settings.StoredJob
import Cadence.Proofs.Settings.StoredSettings
import Cadence.Proofs.Zone.YearlyChanges
import Cadence.Proofs.Zone.SettledYears
import Cadence.Proofs.Search.Recurrence
import Cadence.Proofs.Record.Texts
import Cadence.Proofs.Checked.Constructors
import Cadence.Proofs.Zone.DistantRules
import Cadence.Proofs.Zone.FloatingTimes
import Cadence.Proofs.Canonical.GreedyCuts
import Cadence.Proofs.Canonical.Neighbours
import Cadence.Proofs.Grammar.Intervals
import Cadence.Proofs.Occurrence.Rounds
import Cadence.Proofs.Settings.Complaints
import Cadence.Proofs.Mask.Windows
import Cadence.Proofs.Mask.Iteration
import Cadence.Proofs.Occurrence.Exhaustion
import Cadence.Proofs.Listing.WrittenTimes
import Cadence.Proofs.Listing.Resumption
