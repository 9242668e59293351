import LdpScore.Analysis
import LdpScore.CommandLine
import LdpScore.Grammar
import LdpScore.Main
import LdpScore.Score.Listing
import LdpScore.Proofs.Score.Growth
import LdpScore.Proofs.Score.Frame
import LdpScore.Proofs.Relation.Linking
import LdpScore.Proofs.Relation.Chord
import LdpScore.Proofs.Analysis.Quiet
import LdpScore.Proofs.Analysis.Reading
import LdpScore.Proofs.Analysis.Step
import LdpScore.Proofs.Analysis.Editing
import LdpScore.Proofs.Analysis.Attachment
import LdpScore.Proofs.Analysis.NoteRest
import LdpScore.Proofs.Analysis.Settling
import LdpScore.Proofs.Analysis.Playing
import LdpScore.Proofs.Analysis.Document
import LdpScore.Proofs.Invariant.Coherence
import LdpScore.Proofs.Invariant.MemberOrder
import LdpScore.Proofs.Invariant.Instrument
import LdpScore.Proofs.Invariant.Identity
import LdpScore.Proofs.Analysis.Amending
import LdpScore.Proofs.Analysis.Sparing
import LdpScore.Proofs.Invariant.Record
import LdpScore.Proofs.Analysis.Tupling
import LdpScore.Proofs.Invariant.Timing
import LdpScore.Proofs.Invariant.Span
import LdpScore.Proofs.Analysis.Element
import LdpScore.Proofs.Relation.Ledger
import LdpScore.Proofs.Relation.Making
import LdpScore.Proofs.Analysis.Handing
import LdpScore.Proofs.Invariant.Account
import LdpScore.Proofs.Relation.Echo
import LdpScore.Proofs.Relation.Repetition
import LdpScore.Proofs.Analysis.Matching
import LdpScore.Proofs.Analysis.Repeating
import LdpScore.Proofs.Analysis.Replaying
import LdpScore.Proofs.Invariant.Isolation
import LdpScore.Proofs.Invariant.Slurring
import LdpScore.Proofs.Invariant.Telling
import LdpScore.Proofs.Layout.NoteRest
import LdpScore.Proofs.Analysis.Asking
import LdpScore.Proofs.Analysis.Stopping
import LdpScore.Proofs.Invariant.Ending
import LdpScore.Proofs.Layout.Document
import LdpScore.Proofs.Layout.Source
import LdpScore.Proofs.Reader.Symbol
import LdpScore.Proofs.Reader.Acceptance
import LdpScore.Proofs.Reader.Completion
import LdpScore.Proofs.Reader.Spelling
import LdpScore.Proofs.Reader.RoundTrip
import LdpScore.Proofs.Reader.Quotation
import LdpScore.Proofs.Relation.Conservation
import LdpScore.Proofs.Relation.Independence
import LdpScore.Proofs.Analysis.Branching
import LdpScore.Proofs.Invariant.Tree
import LdpScore.Proofs.Relation.LegacyTie
import LdpScore.Proofs.Analysis.Barren
import LdpScore.Proofs.Reader.Extent
import LdpScore.Proofs.Invariant.Chording
import LdpScore.Proofs.Invariant.Counting
import LdpScore.Proofs.Reader.Line
import LdpScore.Proofs.Relation.Beaming
import LdpScore.Proofs.Report.Source
import LdpScore.Proofs.Report.Leftover
import LdpScore.Proofs.Reader.LineBreak
import LdpScore.Proofs.Reader.Compact
import LdpScore.Proofs.Relation.Verdict
import LdpScore.Proofs.Analysis.Beaming
import LdpScore.Proofs.Invariant.Beaming
import LdpScore.Proofs.Score.Grants
import LdpScore.Proofs.Reader.Nesting
import LdpScore.Proofs.Analysis.Overlooking
import LdpScore.Proofs.Invariant.Lyrics
import LdpScore.Proofs.Invariant.Options
import LdpScore.Proofs.Invariant.Listing
import LdpScore.Proofs.Invariant.Misplacing
import LdpScore.Proofs.Invariant.Cursor
import LdpScore.Proofs.Notation.Spelling
import LdpScore.Proofs.Reader.Numeral
import LdpScore.Proofs.Analysis.Integer
