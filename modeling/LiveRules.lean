import LiveRules.Main
import LiveRules.Proofs.Collect.Ledger
import LiveRules.Proofs.Collect.Step
import LiveRules.Proofs.Collect.Pipeline
import LiveRules.Proofs.Collect.Delivery
import LiveRules.Proofs.Text.Lines
import LiveRules.Proofs.Collect.Contents
import LiveRules.Proofs.Collect.Outstanding
import LiveRules.Proofs.Files.Walk
import LiveRules.Proofs.Collect.Mirror
import LiveRules.Proofs.Collect.Reopen
import LiveRules.Proofs.Rules.Recipes
import LiveRules.Proofs.Rules.Groups
import LiveRules.Proofs.Rules.Composite
import LiveRules.Proofs.Rules.Lookups
import LiveRules.Proofs.Engine.Sets
import LiveRules.Proofs.Engine.Generations
import LiveRules.Proofs.Engine.Attempts
import LiveRules.Proofs.Rules.Cycles
import LiveRules.Proofs.Engine.Providers
import LiveRules.Proofs.Engine.References
import LiveRules.Proofs.Engine.Termination
import LiveRules.Proofs.Intel.Callbacks
import LiveRules.Proofs.Intel.Reloads
import LiveRules.Proofs.Rules.Rebuilding
import LiveRules.Proofs.Rules.Handing
import LiveRules.Proofs.Rules.Freshness
import LiveRules.Proofs.Rules.Progress
import LiveRules.Proofs.Rules.Snapshots
import LiveRules.Proofs.Lists
import LiveRules.Proofs.Files.History
import LiveRules.Proofs.Watch.Debouncing
import LiveRules.Proofs.Watch.Events
import LiveRules.Proofs.Watch.EventLoop
import LiveRules.Proofs.Watch.Timers
import LiveRules.Proofs.Collect.Sharing
import LiveRules.Proofs.Collect.Ownership
import LiveRules.Proofs.Files.Places
import LiveRules.Proofs.Collect.SamePath
import LiveRules.Proofs.Rules.Refusals
import LiveRules.Proofs.Watch.Upkeep
import LiveRules.Proofs.Rules.Current
import LiveRules.Proofs.Watch.Following
import LiveRules.Proofs.Watch.LostChanges
import LiveRules.Proofs.Files.Spelling
import LiveRules.Proofs.Watch.Hearing
import LiveRules.Proofs.Net.Aggregation
import LiveRules.Proofs.Text.Trim
import LiveRules.Proofs.Text.Search
import LiveRules.Proofs.Rules.Records
import LiveRules.Proofs.Rules.DomainRules
import LiveRules.Proofs.Rules.AddressRules
import LiveRules.Proofs.Collect.EntryRules
import LiveRules.Proofs.Collect.Rewriting
import LiveRules.Proofs.Collect.Acting
import LiveRules.Proofs.Collect.Aftermath
import LiveRules.Proofs.Collect.Shutdown
import LiveRules.Proofs.Collect.Executing
import LiveRules.Proofs.Collect.Collecting
import LiveRules.Proofs.Rules.NameLookup
import LiveRules.Proofs.Host.Blueprints
import LiveRules.Proofs.Host.Shelves
import LiveRules.Proofs.Host.Building
import LiveRules.Proofs.Host.Judging
import LiveRules.Proofs.Host.Standing
import LiveRules.Proofs.Host.Acceptance
import LiveRules.Proofs.Host.Turns
import LiveRules.Proofs.Host.Links
import LiveRules.Proofs.Host.Life
import LiveRules.Proofs.Collect.Accounts
import LiveRules.Proofs.Host.Closing
import LiveRules.Proofs.Host.Bookkeeping
import LiveRules.Proofs.Host.Leftovers
import LiveRules.Proofs.Net.Halving
import LiveRules.Proofs.Rules.AddressMatching
import LiveRules.Proofs.Text.Bytes
import LiveRules.Proofs.Intel.Remembering
import LiveRules.Proofs.Intel.Deciding
import LiveRules.Proofs.Rules.NormalForms
import LiveRules.Proofs.Intel.Names
import LiveRules.Proofs.Intel.Eviction
import LiveRules.Proofs.Intel.Sweeping
import LiveRules.Proofs.Intel.Spellings
import LiveRules.Proofs.Collect.Membership
import LiveRules.Proofs.Rules.Styles
import LiveRules.Proofs.Rules.Loading
import LiveRules.Proofs.Rules.Flattening
import LiveRules.Proofs.Rules.RootRules
import LiveRules.Proofs.Intel.InForce
import LiveRules.Proofs.Files.Canonical
import LiveRules.Proofs.Clock
import LiveRules.Proofs.Intel.Expiring
import LiveRules.Proofs.Watch.Deadlines
import LiveRules.Proofs.Settings.Words
import LiveRules.Proofs.Engine.Background
import LiveRules.Proofs.Engine.Timing
import LiveRules.Proofs.Host.Deadlines
