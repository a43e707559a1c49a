import CrossChain.Bitmap
import CrossChain.Chain
import CrossChain.Release

/-!
# Inbound transfers

An inbound transfer is remembered under the digest of its message, together with the
transceivers that vouch for it. Once enough of them do it is approved, and stays so whatever
happens to the transceivers afterwards. It is never forgotten: a transfer that was released
is what makes a second delivery of its message do nothing.
-/

namespace CrossChain

/-- An inbound transfer. -/
structure InboxItem where
  sourceChain : ChainId
  amount : TrimmedAmount
  recipient : Address
  /-- The transceivers that vouch for it. -/
  votes : Bitmap
  /-- Whether enough of them did at some time. -/
  approved : Bool
  /-- How far the transfer has come. -/
  status : ReleaseStatus
deriving DecidableEq, Inhabited

namespace InboxItem

/-- A transfer that nobody vouches for yet. -/
def new (sourceChain : ChainId) (amount : TrimmedAmount) (recipient : Address) : InboxItem :=
  ⟨sourceChain, amount, recipient, .empty, false, .notApproved⟩

/-- Adds the vote of a transceiver. -/
def attest (item : InboxItem) (id : UInt8) : Except CallError InboxItem :=
  match item.votes.get? id, item.votes.set? id true with
  | some true, _ => .error .alreadyAttested
  | some false, some votes => .ok { item with votes }
  | _, _ => .error .idOutOfBounds

/-- The number of votes, whether the transceivers are enabled or not. -/
def voteCount (item : InboxItem) : Nat :=
  item.votes.count

/-- Approves a transfer when the votes of enabled transceivers reach the threshold. -/
def tryApprove (item : InboxItem) (threshold : UInt8) (enabled : Bitmap) : InboxItem :=
  -- A threshold of zero approves nothing: there are no transceivers then.
  if !item.approved && 0 < threshold && threshold.toNat ≤ item.votes.countCommon enabled then
    { item with approved := true, status := .initiated }
  else item

end InboxItem

end CrossChain
