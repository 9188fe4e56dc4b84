import StackVerdict.Finding
import StackVerdict.Verdict.Draft

/-!
# Findings from drafts

A finding is made of a failed check as it comes in, and stacks as they come in are attached to it.
The input is read before anything is explained, so an invalid name is reported before a check that
cannot be explained.
-/

namespace StackVerdict

namespace Finding

/-- The finding that explains a failed check as it comes in. -/
def ofDraft (label : String) (d : Draft) : Except Fault Finding := do
  let v ← liftInput d.read
  liftMisuse (ofVerdict label v)

/-- The finding with more stacks, as they come in. -/
def attachListings (f : Finding) (l : List Listing) : Except Fault Finding := do
  let snapshots ← liftInput (l.mapM Listing.read)
  return f.attach (.snapshots snapshots)

end Finding

end StackVerdict
