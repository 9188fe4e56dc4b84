import StackVerdict.Text.Blank
import StackVerdict.Text.Cut
import StackVerdict.Text.Numeral
import StackVerdict.TypeName.Order
import StackVerdict.Snapshot.Layout
import StackVerdict.Verdict.Draft
import StackVerdict.Verdict.Message
import StackVerdict.Verdict.Remark
import StackVerdict.Finding.Dump
import StackVerdict.Finding.Event
import StackVerdict.Emission
import StackVerdict.CommandLine.Run
import StackVerdict.Session.Stack
import StackVerdict.Session.Finding
import StackVerdict.Main
import StackVerdict.Proofs.Except
import StackVerdict.Proofs.Text
import StackVerdict.Proofs.Exhibit
import StackVerdict.Proofs.Reachable
import StackVerdict.Proofs.Dump
import StackVerdict.Proofs.Notes
import StackVerdict.Proofs.Emission
import StackVerdict.Proofs.Message
import StackVerdict.Proofs.Reports
import StackVerdict.Proofs.Words
import StackVerdict.Proofs.Items
import StackVerdict.Proofs.Run
import StackVerdict.Proofs.Grammar
import StackVerdict.Proofs.RoundTrip
import StackVerdict.Proofs.Drafts
import StackVerdict.Proofs.Faults
import StackVerdict.Proofs.Modes
import StackVerdict.Proofs.Divergence
import StackVerdict.Proofs.IdealStack
import StackVerdict.Proofs.Rows
import StackVerdict.Proofs.Agreement
import StackVerdict.Proofs.Headings
import StackVerdict.Proofs.Appearance
import StackVerdict.Proofs.Rewording
import StackVerdict.Proofs.Growth
import StackVerdict.Proofs.Attaching
import StackVerdict.Proofs.Guards
import StackVerdict.Proofs.Orientation
import StackVerdict.Proofs.CodePoints
import StackVerdict.Proofs.Collections
import StackVerdict.Proofs.Layout
