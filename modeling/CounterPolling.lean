import CounterPolling.Chunking.PrefixConfig
import CounterPolling.Chunking.Split
import CounterPolling.ConfigError
import CounterPolling.Counter.Catalog
import CounterPolling.Counter.Family
import CounterPolling.Counter.Id
import CounterPolling.Data.SortedMap
import CounterPolling.Data.SortedMap.Lookup
import CounterPolling.Data.SortedSet
import CounterPolling.Dialogue
import CounterPolling.Fleet.Basic
import CounterPolling.Group.Attributes
import CounterPolling.Group.Basic
import CounterPolling.Group.Discovery
import CounterPolling.Group.MeterBuckets
import CounterPolling.Group.Registry
import CounterPolling.Group.Settings
import CounterPolling.Group.Spec
import CounterPolling.Group.Stats
import CounterPolling.Instance.Basic
import CounterPolling.Instance.Configure
import CounterPolling.Instance.Profile
import CounterPolling.Instance.Register
import CounterPolling.Notice
import CounterPolling.Object.Id
import CounterPolling.Object.Kind
import CounterPolling.Partition.Basic
import CounterPolling.Partition.Columns
import CounterPolling.Partition.Merge
import CounterPolling.Partition.Slots
import CounterPolling.Partition.Sweep
import CounterPolling.Partition.Table
import CounterPolling.Proofs.Chunking.Canonical
import CounterPolling.Proofs.Chunking.Classes
import CounterPolling.Proofs.Chunking.Division
import CounterPolling.Proofs.Chunking.Items
import CounterPolling.Proofs.Counter.Names
import CounterPolling.Proofs.Counter.Rewording
import CounterPolling.Proofs.Data.Exchange
import CounterPolling.Proofs.Data.Membership
import CounterPolling.Proofs.Dialogue.Branches
import CounterPolling.Proofs.Dialogue.Questions
import CounterPolling.Proofs.Dialogue.Transcript
import CounterPolling.Proofs.Fleet.Endings
import CounterPolling.Proofs.Fleet.Interleaving
import CounterPolling.Proofs.Fleet.Isolation
import CounterPolling.Proofs.Fleet.Moves
import CounterPolling.Proofs.Fleet.Steps
import CounterPolling.Proofs.Group.Alike
import CounterPolling.Proofs.Group.Batches
import CounterPolling.Proofs.Group.Buckets
import CounterPolling.Proofs.Group.Calls
import CounterPolling.Proofs.Group.Changes
import CounterPolling.Proofs.Group.Command
import CounterPolling.Proofs.Group.Decision
import CounterPolling.Proofs.Group.Discovery
import CounterPolling.Proofs.Group.Exclusive
import CounterPolling.Proofs.Group.Findings
import CounterPolling.Proofs.Group.Growth
import CounterPolling.Proofs.Group.Independence
import CounterPolling.Proofs.Group.Interfaces
import CounterPolling.Proofs.Group.Metering
import CounterPolling.Proofs.Group.Modes
import CounterPolling.Proofs.Group.Order
import CounterPolling.Proofs.Group.Others
import CounterPolling.Proofs.Group.Pass
import CounterPolling.Proofs.Group.Prefixes
import CounterPolling.Proofs.Group.Published
import CounterPolling.Proofs.Group.Reading
import CounterPolling.Proofs.Group.Registrations
import CounterPolling.Proofs.Group.Regrouping
import CounterPolling.Proofs.Group.Removal
import CounterPolling.Proofs.Group.Repetition
import CounterPolling.Proofs.Group.Replacement
import CounterPolling.Proofs.Group.RoundTrip
import CounterPolling.Proofs.Group.Search
import CounterPolling.Proofs.Group.Searches
import CounterPolling.Proofs.Group.Sizes
import CounterPolling.Proofs.Group.Soundness
import CounterPolling.Proofs.Group.Subjects
import CounterPolling.Proofs.Group.Trials
import CounterPolling.Proofs.Group.Verdicts
import CounterPolling.Proofs.Instance.Calls
import CounterPolling.Proofs.Instance.Configuration
import CounterPolling.Proofs.Instance.Emptiness
import CounterPolling.Proofs.Instance.Housing
import CounterPolling.Proofs.Instance.Inheritance
import CounterPolling.Proofs.Instance.Listing
import CounterPolling.Proofs.Instance.Removal
import CounterPolling.Proofs.Instance.Table
import CounterPolling.Proofs.Instance.Untimed
import CounterPolling.Proofs.Object.Text
import CounterPolling.Proofs.Partition.Apart
import CounterPolling.Proofs.Partition.Chunks
import CounterPolling.Proofs.Partition.Columns
import CounterPolling.Proofs.Partition.Regrouping
import CounterPolling.Proofs.Partition.Rows
import CounterPolling.Proofs.Partition.Sizes
import CounterPolling.Proofs.Partition.Soundness
import CounterPolling.Proofs.Partition.Sweeps
import CounterPolling.Proofs.Partition.Verdicts
import CounterPolling.Proofs.Scheduler.Passes
import CounterPolling.Proofs.Scheduler.Roster
import CounterPolling.Proofs.Text.Rereading
import CounterPolling.Scheduler.Control
import CounterPolling.Scheduler.Poller
import CounterPolling.Scheduler.Thread
import CounterPolling.Switch.Driver
import CounterPolling.Switch.ReadMode
import CounterPolling.Switch.Status
import CounterPolling.Text.Blank
import CounterPolling.Text.Document
import CounterPolling.Text.Pieces
import CounterPolling.Text.Unsigned
