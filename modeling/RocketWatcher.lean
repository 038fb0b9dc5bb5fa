import RocketWatcher.Library.Mealy
import RocketWatcher.Core
import RocketWatcher.Decisions
import RocketWatcher.CycleSpec
import RocketWatcher.Bookkeeping
import RocketWatcher.CurrentFacts
import RocketWatcher.AlertHistory
import RocketWatcher.Retractions
import RocketWatcher.ToldTime
import RocketWatcher.Repetition
import RocketWatcher.Library.Traced
import RocketWatcher.SkipSave
import RocketWatcher.Delivery
import RocketWatcher.Independence
import RocketWatcher.LoadConfig
import RocketWatcher.CountdownText
import RocketWatcher.DuplicateCountdowns
import RocketWatcher.Atomicity
import RocketWatcher.Library.Scan
import RocketWatcher.TimestampFormat
import RocketWatcher.TimestampRoundTrip
import RocketWatcher.TimestampSpelling
import RocketWatcher.Storage
import RocketWatcher.RecordFile
import RocketWatcher.Pushover
import RocketWatcher.DryRun
import RocketWatcher.Library.Folded
import RocketWatcher.RelevanceSpec
import RocketWatcher.MappedLaunches
import RocketWatcher.SilentMapping
import RocketWatcher.RecipientKeys
import RocketWatcher.Library.FirstWins
import RocketWatcher.Dotenv
import RocketWatcher.Library.Disk
import RocketWatcher.DiskStore
import RocketWatcher.DiskWatcher
import RocketWatcher.Library.PercentEncoding
import RocketWatcher.CurlHttp
import RocketWatcher.Ledger
import RocketWatcher.Announced
import RocketWatcher.Inboxes
import RocketWatcher.Library.Sampled
import RocketWatcher.Timely
import RocketWatcher.Library.Changes
import RocketWatcher.Volume
import RocketWatcher.TimeShift
import RocketWatcher.ShownTimes
import RocketWatcher.CommandLine
import RocketWatcher.Preview
import RocketWatcher.Provenance
import RocketWatcher.Evaluations
import RocketWatcher.Program
import RocketWatcher.Watch
import RocketWatcher.Library.Checked
import RocketWatcher.ConfigProblems
import RocketWatcher.ExitCodes
import RocketWatcher.OnceWatch
