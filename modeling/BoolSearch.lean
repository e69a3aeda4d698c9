import BoolSearch.Main
import BoolSearch.Query.Advance
import BoolSearch.Query.TokenStream
import BoolSearch.Proofs.Grammar
import BoolSearch.Proofs.Lookahead
import BoolSearch.Proofs.Partition
import BoolSearch.Proofs.Offsets
import BoolSearch.Proofs.Backslashes
import BoolSearch.Proofs.Recognition
import BoolSearch.Proofs.Scans
import BoolSearch.Proofs.Stages
import BoolSearch.Proofs.Lockstep
import BoolSearch.Proofs.Overlap
import BoolSearch.Proofs.Connectives
import BoolSearch.Proofs.Steps
import BoolSearch.Proofs.DepthLimit
import BoolSearch.Proofs.Context
import BoolSearch.Proofs.Composition
import BoolSearch.Proofs.Completion
import BoolSearch.Proofs.Walk
import BoolSearch.Proofs.Words
import BoolSearch.Proofs.ParseState
import BoolSearch.Proofs.Advancing
import BoolSearch.Proofs.Classes
import BoolSearch.Proofs.Invariance
import BoolSearch.Proofs.Normalization
import BoolSearch.Proofs.Rendering
import BoolSearch.Proofs.QuotedValues
import BoolSearch.Proofs.TokenKinds
import BoolSearch.Proofs.Quoting
import BoolSearch.Proofs.History
import BoolSearch.Proofs.Refusals
import BoolSearch.Proofs.JsonTexts
import BoolSearch.Proofs.Decoders
import BoolSearch.Proofs.Encodings
import BoolSearch.Proofs.Lines
import BoolSearch.Proofs.Runs
import BoolSearch.Proofs.Records
import BoolSearch.Proofs.Streaming
import BoolSearch.Proofs.Skipping
import BoolSearch.Proofs.SettingsTexts
import BoolSearch.Proofs.EffectiveSettings
import BoolSearch.Proofs.Padding
import BoolSearch.Proofs.Spacing
