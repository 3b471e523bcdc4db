import CrossChainPingPong.Library.Failure
import CrossChainPingPong.Evm.Delivery

namespace CrossChainPingPong.Evm
open Guard

inductive Function where
  | quote | serve | fund | pauseGame | lzReceive | sendBackWithValue | receive | fallback | setPeer
  | withdraw | setEnforcedOptions | setDelegate | transferOwnership | renounceOwnership
  deriving DecidableEq, Repr

inductive Request (I : Immutables) where
  | quote (lz : OApp) (ballValue rallyCount : Uint256) (options : Bytes) (payInLzToken : Bool)
  | call (tx : Tx I)

variable {I : Immutables}

def Tx.function : Tx I → Function
  | .serve .. => .serve
  | .fund _ => .fund
  | .receive _ => .receive
  | .fallback _ => .fallback
  | .pauseGame _ => .pauseGame
  | .sendBackWithValue .. => .sendBackWithValue
  | .setPeer .. => .setPeer
  | .setEnforcedOptions .. => .setEnforcedOptions
  | .setDelegate .. => .setDelegate
  | .transferOwnership .. => .transferOwnership
  | .renounceOwnership _ => .renounceOwnership
  | .withdraw .. => .withdraw
  | .lzReceive .. => .lzReceive

namespace Request

def function : Request I → Function
  | .quote .. => .quote
  | .call tx => tx.function

def run : Request I → Storage → Except Revert Unit
  | .quote lz ballValue rallyCount options payInLzToken, _ =>
      (Evm.quote I lz ballValue rallyCount options payInLzToken).map fun _ => ()
  | .call tx, s => (apply tx s).map fun _ => ()

end Request

def Function.reverts : Function → List Revert
  | .quote => [.oapp]
  | .serve => [.gameAlreadyActive, .invalidMaxRallies, .oapp, .insufficientFee]
  | .fund => [.insufficientFee]
  | .receive | .fallback => []
  | .pauseGame => [.ownableUnauthorizedAccount, .gameNotActive]
  | .sendBackWithValue => [.onlySelfCall]
  | .setPeer | .renounceOwnership => [.ownableUnauthorizedAccount]
  | .setEnforcedOptions | .setDelegate => [.ownableUnauthorizedAccount, .oapp]
  | .transferOwnership => [.ownableUnauthorizedAccount, .ownableInvalidOwner]
  | .withdraw => [.ownableUnauthorizedAccount, .invalidAddress, .withdrawFailed]
  | .lzReceive =>
      [.oapp, .invalidPeer, .malformedCalldata, .alreadyHasBall, .arithmeticPanic,
        .insufficientContractBalance, .selfCallFailed]

variable {lz : OApp} {s : Storage}

theorem deliver_failsIn (guid : Bytes32) (v r : Uint256) (s : Storage) :
    FailsIn Function.lzReceive.reverts (deliver I lz guid v r s) := by
  unfold deliver
  split
  · exact failsIn_error (by decide)
  cases checkedAdd r 1 with
  | none => exact failsIn_error (by decide)
  | some count =>
    dsimp only
    split
    · exact failsIn_pure _
    case isFalse hlast =>
      have hlt : count.toNat < s.cap.toNat := Nat.not_le.mp (not_or.mp hlast).2
      have hsend : sendBack I lz (s.received guid (v - 1) count ⟨s.cap, true, true⟩ s.balance) = _ :=
        sendBack_eq rfl rfl hlt
      rw [hsend]
      split
      · exact failsIn_error (by decide)
      split
      · exact failsIn_error (by decide)
      split
      · exact failsIn_error (by decide)
      · exact failsIn_pure _

theorem lzReceive_error {origin : Origin} {guid : Bytes32} {message : Bytes} {e : Revert}
    (h : lzReceive I lz origin guid message s = .error e) :
    e = .invalidPeer ∨ e = .malformedCalldata ∨
      ∃ v r, abiDecode message = some (v, r) ∧ deliver I lz guid v r s = .error e := by
  by_cases hpeer : origin.srcEid = I.peerEid
  · by_cases hdone : s.processedGuid guid = true
    · simp only [lzReceive, revertIf_bind, hpeer, ne_eq, not_true, if_false, hdone, if_true] at h
      cases h
    · have hfresh : s.processedGuid guid = false := Bool.eq_false_of_not_eq_true hdone
      cases hdec : abiDecode message with
      | none =>
        simp only [lzReceive, revertIf_bind, hpeer, ne_eq, not_true, if_false, hdone, hdec] at h
        exact .inr (.inl (Except.error.inj h).symm)
      | some m =>
        rw [lzReceive_eq hpeer hfresh hdec] at h
        exact .inr (.inr ⟨m.1, m.2, rfl, h⟩)
  · simp only [lzReceive, revertIf_bind, ne_eq, hpeer, not_false_iff, if_true] at h
    exact .inl (Except.error.inj h).symm

theorem lzReceive_failsIn (origin : Origin) (guid : Bytes32) (message : Bytes) (s : Storage) :
    FailsIn Function.lzReceive.reverts (lzReceive I lz origin guid message s) := by
  intro e h
  rcases lzReceive_error h with rfl | rfl | ⟨v, r, -, hdeliver⟩
  · decide
  · decide
  · exact deliver_failsIn guid v r s e hdeliver

theorem onlyOwner_failsIn {es : List Revert} (sender : Address) (s : Storage)
    (mem : .ownableUnauthorizedAccount ∈ es) : FailsIn es (onlyOwner sender s) :=
  failsIn_require fun _ => mem

theorem serve_failsIn (msg : Msg I) (maxRallies : Uint256) (options : Bytes) (s : Storage) :
    FailsIn Function.serve.reverts (serve I lz msg.sender msg.value maxRallies options s) := by
  refine failsIn_bind ?_ fun opened _ => ?_
  · refine failsIn_bind (failsIn_revertIf fun _ => by decide) fun _ _ => ?_
    refine failsIn_bind (failsIn_revertIf fun _ => by decide) fun _ _ => ?_
    refine failsIn_bind (failsIn_okOr fun _ => by decide) fun _ _ => ?_
    refine failsIn_bind (failsIn_okOr fun _ => by decide) fun _ _ => ?_
    exact failsIn_bind (failsIn_revertIf fun _ => by decide) fun _ _ => failsIn_pure _
  · refine failsIn_bind ?_ fun _ _ => failsIn_pure _
    exact failsIn_bind (failsIn_okOr fun _ => by decide) fun _ _ => failsIn_pure _

theorem apply_failsIn (tx : Tx I) (s : Storage) : FailsIn tx.function.reverts (apply tx s) := by
  cases tx with
  | serve lz msg maxRallies options => exact serve_failsIn msg maxRallies options s
  | fund msg =>
    show FailsIn Function.fund.reverts _
    exact failsIn_bind (failsIn_revertIf fun _ => by decide) fun _ _ => failsIn_pure _
  | receive msg | fallback msg => exact failsIn_pure _
  | pauseGame sender =>
    show FailsIn Function.pauseGame.reverts _
    refine failsIn_bind (onlyOwner_failsIn sender s (by decide)) fun _ _ => ?_
    exact failsIn_bind (failsIn_revertIf fun _ => by decide) fun _ _ => failsIn_pure _
  | sendBackWithValue lz msg message options =>
    show FailsIn Function.sendBackWithValue.reverts _
    rw [apply, sendBackWithValue_external msg.external]
    exact failsIn_error (by decide)
  | setPeer sender eid peer =>
    show FailsIn Function.setPeer.reverts _
    exact failsIn_bind (onlyOwner_failsIn sender s (by decide)) fun _ _ => failsIn_pure _
  | setEnforcedOptions sender result =>
    show FailsIn Function.setEnforcedOptions.reverts _
    refine failsIn_bind (onlyOwner_failsIn sender s (by decide)) fun _ _ => ?_
    exact failsIn_bind (failsIn_okOr fun _ => by decide) fun _ _ => failsIn_pure _
  | setDelegate sender delegate accepts =>
    show FailsIn Function.setDelegate.reverts _
    refine failsIn_bind (onlyOwner_failsIn sender s (by decide)) fun _ _ => ?_
    exact failsIn_bind (failsIn_require fun _ => by decide) fun _ _ => failsIn_pure _
  | transferOwnership sender newOwner =>
    show FailsIn Function.transferOwnership.reverts _
    refine failsIn_bind (onlyOwner_failsIn sender s (by decide)) fun _ _ => ?_
    exact failsIn_bind (failsIn_revertIf fun _ => by decide) fun _ _ => failsIn_pure _
  | renounceOwnership sender =>
    show FailsIn Function.renounceOwnership.reverts _
    exact failsIn_bind (onlyOwner_failsIn sender s (by decide)) fun _ _ => failsIn_pure _
  | withdraw sender recipient amount accepted =>
    show FailsIn Function.withdraw.reverts _
    refine failsIn_bind (onlyOwner_failsIn sender s (by decide)) fun _ _ => ?_
    refine failsIn_bind (failsIn_revertIf fun _ => by decide) fun _ _ => ?_
    exact failsIn_bind (failsIn_revertIf fun _ => by decide) fun _ _ => failsIn_pure _
  | lzReceive lz value origin guid message =>
    show FailsIn Function.lzReceive.reverts _
    refine failsIn_bind (failsIn_revertIf fun _ => by decide) fun _ _ => ?_
    exact lzReceive_failsIn origin guid message _

theorem request_failsIn (request : Request I) (s : Storage) :
    FailsIn request.function.reverts (request.run s) := by
  cases request with
  | call tx => exact failsIn_map (apply_failsIn tx s)
  | quote lz ballValue rallyCount options payInLzToken =>
    refine failsIn_map (failsIn_bind (failsIn_okOr fun _ => ?_) fun _ _ => failsIn_okOr fun _ => ?_)
    · exact List.mem_singleton_self _
    · exact List.mem_singleton_self _

def samplePeers : List (Tx sampleImmutables) := [.setPeer 3 40168 9, .setPeer 3 40161 9]

def Function.refusals :
    Function → List (List (Tx sampleImmutables) × Request sampleImmutables × Revert)
  | .quote => [([], .quote { obligingOApp 7 5 with quote := fun _ _ _ _ => none } 7 3 [] false, .oapp)]
  | .serve =>
      [([sampleServe 10], .call (sampleServe 10), .gameAlreadyActive),
        ([], .call (sampleServe 0), .invalidMaxRallies),
        ([], .call (.serve { obligingOApp 7 5 with quote := fun _ _ _ _ => none } samplePlayer 10 []),
          .oapp),
        ([], .call (.serve (obligingOApp 7 6) samplePlayer 10 []), .insufficientFee)]
  | .fund => [([], .call (.fund { samplePlayer with value := 0 }), .insufficientFee)]
  | .receive | .fallback => []
  | .pauseGame =>
      [([], .call (.pauseGame 2), .ownableUnauthorizedAccount),
        ([], .call (.pauseGame 3), .gameNotActive)]
  | .sendBackWithValue =>
      [([], .call (.sendBackWithValue (obligingOApp 7 5) samplePlayer [] []), .onlySelfCall)]
  | .setPeer => [([], .call (.setPeer 2 40168 9), .ownableUnauthorizedAccount)]
  | .renounceOwnership =>
      [([.renounceOwnership 3], .call (.renounceOwnership 3), .ownableUnauthorizedAccount)]
  | .setEnforcedOptions =>
      [([], .call (.setEnforcedOptions 2 none), .ownableUnauthorizedAccount),
        ([], .call (.setEnforcedOptions 3 none), .oapp)]
  | .setDelegate =>
      [([], .call (.setDelegate 2 8 fun _ => true), .ownableUnauthorizedAccount),
        ([], .call (.setDelegate 3 8 fun _ => false), .oapp)]
  | .transferOwnership =>
      [([.transferOwnership 3 4], .call (.transferOwnership 3 5), .ownableUnauthorizedAccount),
        ([.transferOwnership 3 4], .call (.transferOwnership 4 0), .ownableInvalidOwner)]
  | .withdraw =>
      [([], .call (.withdraw 2 8 0 true), .ownableUnauthorizedAccount),
        ([], .call (.withdraw 3 0 0 true), .invalidAddress),
        ([], .call (.withdraw 3 8 1 true), .withdrawFailed)]
  | .lzReceive =>
      [([], .call (.lzReceive { obligingOApp 7 0 with admits := false } 0 ⟨40168, 9, 1⟩ 1 []), .oapp),
        (samplePeers, .call (.lzReceive (obligingOApp 7 0) 0 ⟨40161, 9, 1⟩ 1 []), .invalidPeer),
        (samplePeers, .call (.lzReceive (obligingOApp 7 0) 0 ⟨40168, 9, 1⟩ 1 []), .malformedCalldata),
        (samplePeers ++ [sampleDelivery 1 0 0], .call (sampleDelivery 2 7 3), .alreadyHasBall),
        (samplePeers, .call (sampleDelivery 1 7 (BitVec.allOnes 256)), .arithmeticPanic),
        (samplePeers, .call (.lzReceive (obligingOApp 7 1) 0 ⟨40168, 9, 1⟩ 1 (abiEncode 7 3)),
          .insufficientContractBalance),
        (samplePeers, .call (.lzReceive { obligingOApp 7 0 with lzSend := fun _ _ _ _ _ => none } 0
          ⟨40168, 9, 1⟩ 1 (abiEncode 7 3)), .selfCallFailed)]

theorem refusals_list (f : Function) : f.refusals.map (fun x => x.2.2) = f.reverts := by
  cases f <;> rfl

theorem refusals_function (f : Function) : ∀ x ∈ f.refusals, x.2.1.function = f := by
  cases f <;> decide

theorem refusals_raised (f : Function) : ∀ x ∈ f.refusals,
    raises (x.2.1.run ((machine sampleImmutables).run (deployed 3 0) x.1)) x.2.2 = true := by
  cases f <;> decide +kernel

theorem reverts_are_the_ones_listed (f : Function) (e : Revert) :
    e ∈ f.reverts ↔ ∃ (I : Immutables) (owner : Address) (balance : Wei) (txs : List (Tx I))
      (request : Request I), request.function = f ∧
        request.run ((machine I).run (deployed owner balance) txs) = .error e := by
  constructor
  · intro hmem
    rw [← refusals_list f] at hmem
    obtain ⟨⟨txs, request, e'⟩, hx, rfl⟩ := List.mem_map.mp hmem
    exact ⟨sampleImmutables, 3, 0, txs, request, refusals_function f _ hx,
      raises_iff.mp (refusals_raised f _ hx)⟩
  · rintro ⟨I, owner, balance, txs, request, rfl, herror⟩
    exact request_failsIn request _ e herror

end CrossChainPingPong.Evm
