import Directory.Agent.Answer
import Directory.Agent.Basic
import Directory.Agent.Move
import Directory.Agent.Search
import Directory.Agent.Write
import Directory.Config.Basic
import Directory.Config.Format
import Directory.Entry.Basic
import Directory.Entry.Format
import Directory.Entry.Modification
import Directory.Error
import Directory.Filter.Basic
import Directory.Filter.Parser
import Directory.Filter.Printer
import Directory.Instant
import Directory.Json.Basic
import Directory.Json.Printer
import Directory.Json.Reader
import Directory.KeyTable
import Directory.Main
import Directory.Mode
import Directory.Name.Basic
import Directory.Name.Rdn
import Directory.NameLocks
import Directory.Node
import Directory.OperationKind
import Directory.Partition.Basic
import Directory.Partition.NamingContexts
import Directory.Partition.Store
import Directory.Proofs.Name.StorageKey
import Directory.Proofs.Name.Tree
import Directory.Proofs.Name.Written
import Directory.Proofs.Partition.Contents
import Directory.Proofs.Partition.Tree
import Directory.Proofs.Partition.Writes
import Directory.Proofs.Text.Characters
import Directory.Referral.Outcome
import Directory.Referral.Policy
import Directory.Referral.Walk
import Directory.Refusal
import Directory.Request
import Directory.Schema.Basic
import Directory.Schema.Canonical
import Directory.Schema.Conformance
import Directory.Schema.Core
import Directory.Schema.Definition
import Directory.Schema.ValueSyntax
import Directory.Service.Basic
import Directory.Service.Command
import Directory.Service.History
import Directory.Service.Stage
import Directory.Text.Basic
import Directory.Text.Blank
import Directory.Text.Digits
import Directory.Text.Escape
import Directory.Text.Lowercase
import Directory.Text.Quoted
import Directory.Text.Split
import Directory.Text.Utf8
import Directory.Url
import Directory.Proofs.Referral.AncestorWalks
import Directory.Proofs.Referral.NearestDelegation
import Directory.Proofs.Schema.ClassClosure
import Directory.Proofs.Schema.DeclaredClasses
import Directory.Proofs.Schema.Normalization
import Directory.Proofs.Schema.DelegationClass
import Directory.Proofs.Partition.Origins
import Directory.Proofs.Partition.Contexts
import Directory.Proofs.Agent.Writes
import Directory.Proofs.Service.Runs
import Directory.Proofs.Service.Conformance
import Directory.Proofs.Entry.ValueSets
import Directory.Proofs.Service.StoredAttributes
import Directory.Proofs.Service.Trees
import Directory.Proofs.Agent.Search
import Directory.Proofs.Service.Searches
import Directory.Proofs.Referral.HiddenTrees
import Directory.Proofs.Service.Opacity
import Directory.Proofs.Name.Blanks
import Directory.Proofs.Name.RoundTrip
import Directory.Proofs.Referral.Urls
import Directory.Proofs.Service.Frames
import Directory.Proofs.Schema.TypeNames
import Directory.Proofs.Entry.Identifiers
import Directory.Proofs.Schema.Requirements
import Directory.Proofs.Agent.Refusals
import Directory.Proofs.Service.Refusals
import Directory.Proofs.Service.Referrals
import Directory.Proofs.Text.Pieces
import Directory.Proofs.Filter.RoundTrip
import Directory.Proofs.Agent.Modes
import Directory.Proofs.Service.Modes
import Directory.Proofs.Agent.Moves
import Directory.Proofs.Service.Moves
import Directory.Proofs.Partition.Independence
import Directory.Proofs.Service.Independence
import Directory.Proofs.Agent.Spellings
import Directory.Proofs.Service.Spellings
import Directory.Proofs.Partition.Registration
import Directory.Proofs.Service.Access
import Directory.Proofs.Service.Administrators
import Directory.Proofs.Text.LetterCase
import Directory.Proofs.Entry.Values
import Directory.Proofs.Name.Canonical
import Directory.Proofs.Name.LetterCase
import Directory.Proofs.Schema.StoredTypes
import Directory.Proofs.Schema.Matching
import Directory.Proofs.Agent.Renames
import Directory.Proofs.Agent.Managed
import Directory.Proofs.Service.Identifiers
import Directory.Proofs.Service.Start
import Directory.Proofs.Service.Stored
import Directory.Proofs.Service.ValueIdentity
import Directory.Proofs.Partition.Relocation
import Directory.Proofs.Service.Renames
import Directory.Proofs.Partition.TreeMoves
import Directory.Proofs.Partition.MovesBack
import Directory.Proofs.Agent.PlainMoves
import Directory.Proofs.Service.MovesBack
import Directory.Proofs.Agent.MovedSpellings
import Directory.Proofs.Service.MovedSpellings
import Directory.Proofs.Schema.MergedValues
import Directory.Proofs.Partition.Reads
import Directory.Proofs.Service.AddedValues
import Directory.Proofs.Schema.References
import Directory.Proofs.Schema.Acceptance
import Directory.Proofs.Text.Decimal
import Directory.Proofs.Schema.Equality
import Directory.Proofs.Schema.Syntaxes
import Directory.Proofs.Service.Comparisons
import Directory.Proofs.Schema.SingleValues
import Directory.Proofs.Service.Stamps
import Directory.Proofs.Partition.Superiors
import Directory.Proofs.Entry.Undo
