import CrossChain.Bridge.Endpoint
import CrossChain.Manager.Transfer
import CrossChain.Proofs.Basic

/-!
# What a call comes to

A call that moves a transfer on works out its plan, has the token pay and writes the plan down. Here
each of these calls is computed as a whole: its result is told by the plan and by the ledger, with
the book that it leaves in every case.

## Main statements

* `Call.redeem_eq`, `Call.releaseInbound_eq`: the calls for an inbound transfer, which pay by
  `Call.pay_eq`.
* `Call.transfer_eq`, `Call.releaseOutbound_eq`, `Call.cancelOutbound_eq`: the calls for an outbound
  transfer.
* `Endpoint.receive_eq`, `Endpoint.release_eq`: the calls that come through a bridge.
-/

namespace CrossChain

namespace Call

/-! ## Inbound transfers -/

theorem pay_eq (b : Book) (s : Settlement) :
    pay b.manager s b =
      match s.payout with
      | none => .ok () b
      | some amount =>
        match Token.credit b.manager.config.mode s.item.recipient amount b.token with
        | .error e token => .error (.token e) { b with token }
        | .ok _ token => .ok () { b with token } := by
  unfold pay
  cases s.payout with
  | none => rfl
  | some amount =>
    simp only [onToken, within]
    cases Token.credit b.manager.config.mode s.item.recipient amount b.token <;> rfl

theorem settle_eq (b : Book) (digest : Digest) (s : Settlement) :
    settle b.manager digest s b =
      match pay b.manager s b with
      | .error e after => .error e after
      | .ok _ after => .ok () { after with manager := b.manager.recordSettlement digest s } := by
  simp only [settle, run_bind]
  cases pay b.manager s b <;> rfl

theorem redeem_eq (b : Book) (transceiver : Address) (now : Timestamp) (source : ChainId)
    (delivery : Delivery TokenTransfer) :
    redeem transceiver now source delivery b =
      match b.manager.planRedeem transceiver now source delivery with
      | .error e => .error e b
      | .ok (digest, .done votes) => .ok ⟨digest, votes, .alreadyReleased⟩ b
      | .ok (digest, .voted item) =>
        .ok ⟨digest, item.voteCount, .notApproved⟩
          { b with manager := b.manager.recordInbound digest item }
      | .ok (digest, .settled s) =>
        match settle b.manager digest s b with
        | .error e after => .error e after
        | .ok _ after => .ok ⟨digest, s.item.voteCount, .ofAdvance s.advance⟩ after := by
  simp only [redeem, run_bind, manager, run_get, run_pure]
  cases b.manager.planRedeem transceiver now source delivery with
  | error e => rfl
  | ok planned =>
    obtain ⟨digest, plan⟩ := planned
    cases plan with
    | done | voted => rfl
    | settled s =>
      simp only [require, run_pure, run_bind]
      cases settle b.manager digest s b <;> rfl

theorem releaseInbound_eq (b : Book) (now : Timestamp) (digest : Digest) (strict : Bool) :
    releaseInbound now digest strict b =
      match b.manager.planReleaseInbound now digest with
      | .error e => .error e b
      | .ok none => .ok .alreadyReleased b
      | .ok (some s) =>
        match pay b.manager s b with
        | .error e after => .error e after
        | .ok _ after =>
          if strict && s.waits then .error .cantReleaseYet after
          else .ok (.ofAdvance s.advance)
            { after with manager := b.manager.recordSettlement digest s } := by
  simp only [releaseInbound, run_bind, manager, run_get, run_pure]
  cases b.manager.planReleaseInbound now digest with
  | error e => rfl
  | ok plan =>
    cases plan with
    | none => rfl
    | some s =>
      simp only [require, run_pure, run_bind]
      cases pay b.manager s b with
      | error e after => rfl
      | ok _ after => cases strict && s.waits <;> rfl

/-! ## Outbound transfers -/

theorem transfer_eq (b : Book) (sender : Address) (now : Timestamp) (request : TransferRequest) :
    transfer sender now request b =
      match b.manager.planTransfer sender now request with
      | .error e => .error e b
      | .ok plan =>
        match Token.debit b.manager.config.mode sender plan.receipt.debited b.token with
        | .error e token => .error (.token e) { b with token }
        | .ok _ token => .ok plan.receipt ⟨b.manager.recordTransfer plan, token⟩ := by
  simp only [transfer, run_bind, manager, run_get, run_pure]
  cases b.manager.planTransfer sender now request with
  | error e => rfl
  | ok plan =>
    simp only [require, run_pure, onToken, within]
    cases Token.debit b.manager.config.mode sender plan.receipt.debited b.token <;> rfl

theorem releaseOutbound_eq (b : Book) (transceiver : Address) (now : Timestamp) (sequence : UInt64)
    (strict : Bool) :
    releaseOutbound transceiver now sequence strict b =
      match b.manager.planPickUp transceiver now sequence strict with
      | .error e => .error e b
      | .ok (.waiting item) =>
        .ok none { b with manager := b.manager.recordOutbound sequence item }
      | .ok (.released item outboundLimit inboundLimit release) =>
        .ok (some release) { b with
          manager := b.manager.recordPickUp sequence item outboundLimit inboundLimit } := by
  simp only [releaseOutbound, run_bind, manager, run_get, run_pure]
  cases b.manager.planPickUp transceiver now sequence strict with
  | error e => rfl
  | ok plan => cases plan <;> rfl

theorem cancelOutbound_eq (b : Book) (caller : Address) (sequence : UInt64) :
    cancelOutbound caller sequence b =
      match b.manager.planCancel caller sequence with
      | .error e => .error e b
      | .ok (item, refund) =>
        match Token.credit b.manager.config.mode item.sender refund b.token with
        | .error e token => .error (.token e) { b with token }
        | .ok _ token => .ok refund
            ⟨b.manager.recordOutbound sequence { item with cancelled := true }, token⟩ := by
  simp only [cancelOutbound, run_bind, manager, run_get, run_pure]
  cases b.manager.planCancel caller sequence with
  | error e => rfl
  | ok plan =>
    obtain ⟨item, refund⟩ := plan
    simp only [require, run_pure, onToken, within]
    cases Token.credit b.manager.config.mode item.sender refund b.token <;> rfl

end Call

/-! ## Calls through a bridge -/

namespace Endpoint

theorem receive_eq (e : Endpoint) (now : Timestamp) (post : SignedPost) (b : Book) :
    e.receive now post b =
      match e.unwrap b.manager.config post with
      | .error error => .error error b
      | .ok delivery => Call.redeem e.address now post.emitterChain delivery b := by
  simp only [receive, run_bind, Call.manager, run_get, run_pure]
  cases e.unwrap b.manager.config post <;> rfl

/-- The manager that a pick-up leaves is dropped when the bridge does not take the post. The token
is not, but a pick-up has nothing to do with it. -/
theorem release_eq (e : Endpoint) (bridge : Publisher) (now : Timestamp) (sequence : UInt64)
    (strict : Bool) (b : Book) :
    e.release bridge now sequence strict b =
      match Call.releaseOutbound e.address now sequence strict b with
      | .error error _ => .error error b
      | .ok none staged => .ok none staged
      | .ok (some release) staged =>
        match publishRelease bridge staged.manager release with
        | .error error => .error error b
        | .ok publication => .ok (some publication) staged := by
  simp only [release, run_bind, run_get, Call.releaseOutbound_eq]
  cases b.manager.planPickUp e.address now sequence strict with
  | error error => rfl
  | ok plan =>
    cases plan with
    | waiting item => rfl
    | released item outboundLimit inboundLimit release =>
      simp only [run_bind, run_modify]
      cases publishRelease bridge (b.manager.recordPickUp sequence item outboundLimit inboundLimit)
        release <;> rfl

end Endpoint

end CrossChain
