import CrossChainPingPong.Evm.Outcome
import CrossChainPingPong.Library.Logged

namespace CrossChainPingPong.Evm
open Guard Logged

inductive Event where
  | gameStarted (ballValue maxRallies timestamp : Uint256)
  | ballServed (ballValue rallyCount : Uint256) (messageId : Bytes32)
  | ballReceived (ballValue rallyCount timestamp : Uint256)
  | ballReturned (newBallValue rallyCount : Uint256) (messageId : Bytes32)
  | gameEnded (finalRallyCount timestamp : Uint256) (reason : String)
  | contractFunded (funder : Address) (amount : Wei)
  | feeEstimated (nativeFee lzTokenFee : Wei)
  deriving DecidableEq, Repr

inductive Emission where
  | sent (p : Sent)
  | event (e : Event)

abbrev Emitting := Logged Emission Revert

def emit (e : Event) : Emitting PUnit := tell [.event e]

def emitIf (p : Prop) [Decidable p] (e : Event) : Emitting PUnit := tell (if p then [.event e] else [])

namespace Emitting
variable (I : Immutables) (endpoint : Address) (lz : OApp) (now : Uint256)

-- receive() emits ContractFunded for what the endpoint hands back to the contract
def lzSend (message options : Bytes) (fee : MessagingFee) (refundAddress : Address) (s : Storage) :
    Emitting (Storage × Sent) := do
  let receipt ← lift (okOr (lz.lzSend I.peerEid message options fee refundAddress) .oapp)
  let sent := Sent.mk I.peerEid message options fee.nativeFee refundAddress receipt.guid
  tell [.sent sent]
  let refund := if refundAddress = I.self then fee.nativeFee - receipt.fee.nativeFee else 0
  emitIf (0 < refund) (.contractFunded endpoint refund)
  pure ({ s with balance := s.balance - fee.nativeFee + refund }, sent)

def serve (sender : Address) (value : Wei) (maxRallies : Uint256) (options : Bytes)
    (s : Storage) : Emitting Storage := do
  let s := s.credit I sender value
  lift (revertIf (s.gameState.gameActive = true) .gameAlreadyActive)
  lift (revertIf (maxRallies = 0 ∨ maxRalliesCap < maxRallies) .invalidMaxRallies)
  let s := { s with
    ballValue := initialBallValue
    rallyCount := 0
    gameState := { maxRallies := maxRallies.setWidth 128, hasBall := true, gameActive := true } }
  emit (.gameStarted s.ballValue maxRallies now)
  let message := encodeMessage s.ballValue s.rallyCount
  let combinedOptions ← lift (okOr (lz.combineOptions I.peerEid sendBallType options) .oapp)
  let fee ← lift (okOr (lz.quote I.peerEid message combinedOptions false) .oapp)
  emit (.feeEstimated fee.nativeFee fee.lzTokenFee)
  lift (revertIf (value < fee.nativeFee) .insufficientFee)
  let (s, sent) ← lzSend I endpoint lz message combinedOptions ⟨value, 0⟩ sender s
  let s := s.setHasBall false
  emit (.ballServed s.ballValue s.rallyCount sent.guid)
  pure s

def fund (sender : Address) (value : Wei) (s : Storage) : Emitting Storage := do
  lift (revertIf (value = 0) .insufficientFee)
  emit (.contractFunded sender value)
  pure (s.credit I sender value)

def receive (sender : Address) (value : Wei) (s : Storage) : Emitting Storage := do
  emit (.contractFunded sender value)
  pure (s.credit I sender value)

def pauseGame (sender : Address) (s : Storage) : Emitting Storage := do
  lift (onlyOwner sender s)
  lift (revertIf (s.gameState.gameActive = false) .gameNotActive)
  let s := s.setGameActive false
  emit (.gameEnded s.rallyCount now "Paused by owner")
  pure s

def sendBackWithValue (sender : Address) (value : Wei) (message options : Bytes) (s : Storage) :
    Emitting Storage := do
  lift (revertIf (sender ≠ I.self) .onlySelfCall)
  let (s, sent) ← lzSend I endpoint lz message options ⟨value, 0⟩ I.self (s.credit I sender value)
  emit (.ballReturned s.ballValue s.rallyCount sent.guid)
  pure s

def sendBack (s : Storage) : Emitting Storage := do
  let gs := s.gameState
  lift (revertIf (gs.gameActive = false) .gameNotActive)
  lift (revertIf (gs.hasBall = false) .noBallToServe)
  lift (revertIf (gs.maxRallies.setWidth 256 ≤ s.rallyCount) .maxRalliesReached)
  let message := encodeMessage s.ballValue s.rallyCount
  let options := combineOptionsEmpty I s
  let fee ← lift (okOr (lz.quote I.peerEid message options false) .oapp)
  emit (.feeEstimated fee.nativeFee fee.lzTokenFee)
  lift (revertIf (s.balance < fee.nativeFee) .insufficientContractBalance)
  let s ← Logged.mapError (fun _ => .selfCallFailed)
    (sendBackWithValue I endpoint lz I.self fee.nativeFee message options s)
  pure (s.setHasBall false)

def initializeGameFromPeer (receivedValue receivedRally : Uint256) (s : Storage) :
    Emitting Storage := do
  let rallyCount ← lift (okOr (checkedAdd receivedRally 1) .arithmeticPanic)
  let s := { s with
    ballValue := receivedValue
    rallyCount
    gameState :=
      { maxRallies := maxRalliesCap.setWidth 128, hasBall := true, gameActive := true } }
  emit (.gameStarted s.ballValue maxRalliesCap now)
  emit (.ballReceived s.ballValue s.rallyCount now)
  if s.ballValue = (0 : Uint256) then
    emit (.gameEnded s.rallyCount now "Ball reached 0")
    pure (s.setGameActive false)
  else if maxRalliesCap ≤ s.rallyCount then
    emit (.gameEnded s.rallyCount now "Max rallies reached")
    pure (s.setGameActive false)
  else sendBack I endpoint lz { s with ballValue := s.ballValue - 1 }

def lzReceive (origin : Origin) (guid : Bytes32) (message : Bytes) (s : Storage) :
    Emitting Storage := do
  lift (revertIf (origin.srcEid ≠ I.peerEid) .invalidPeer)
  if s.processedGuid guid = true then pure s
  else
    let s := { s with processedGuid := Function.update s.processedGuid guid true }
    let gs := s.gameState
    let (receivedValue, receivedRally) ← lift (okOr (abiDecode message) .malformedCalldata)
    if gs.gameActive = false then
      lift (revertIf (gs.hasBall = true) .alreadyHasBall)
      initializeGameFromPeer I endpoint lz now receivedValue receivedRally s
    else
      lift (revertIf (gs.hasBall = true) .alreadyHasBall)
      let rallyCount ← lift (okOr (checkedAdd receivedRally 1) .arithmeticPanic)
      let gs := { gs with hasBall := true }
      let s := { s with ballValue := receivedValue, rallyCount, gameState := gs }
      emit (.ballReceived s.ballValue s.rallyCount now)
      if s.ballValue = (0 : Uint256) then
        emit (.gameEnded s.rallyCount now "Ball reached 0")
        pure (s.setGameActive false)
      else if gs.maxRallies.setWidth 256 ≤ s.rallyCount then
        emit (.gameEnded s.rallyCount now "Max rallies reached")
        pure (s.setGameActive false)
      else sendBack I endpoint lz { s with ballValue := s.ballValue - 1 }

-- what an inherited function emits is an event of the library, not one of the contract's
def silent (x : Except Revert (Storage × List Sent)) : Emitting Storage := do
  let (s, _) ← lift x
  pure s

-- withdrawing to the contract itself runs its own receive()
def withdraw (sender recipient : Address) (amount : Wei) (accepted : Bool) (s : Storage) :
    Emitting Storage := do
  let (s, _) ← lift (Evm.withdraw I sender recipient amount accepted s)
  emitIf (recipient = I.self) (.contractFunded I.self amount)
  pure s

variable {I}

def apply : Tx I → Storage → Emitting Storage
  | .serve lz msg maxRallies options, s =>
      serve I endpoint lz now msg.sender msg.value maxRallies options s
  | .fund msg, s => fund I msg.sender msg.value s
  | .receive msg, s | .fallback msg, s => receive I msg.sender msg.value s
  | .pauseGame sender, s => pauseGame now sender s
  | .sendBackWithValue lz msg message options, s =>
      sendBackWithValue I endpoint lz msg.sender msg.value message options s
  | .setPeer sender eid peer, s => silent (Evm.setPeer sender eid peer s)
  | .setEnforcedOptions sender result, s => silent (Evm.setEnforcedOptions sender result s)
  | .setDelegate sender delegate accepts, s => silent (Evm.setDelegate sender delegate accepts s)
  | .transferOwnership sender newOwner, s => silent (Evm.transferOwnership sender newOwner s)
  | .renounceOwnership sender, s => silent (Evm.renounceOwnership sender s)
  | .withdraw sender recipient amount accepted, s => withdraw I sender recipient amount accepted s
  | .lzReceive lz value origin guid message, s => do
      lift (revertIf (lz.admits = false) .oapp)
      lzReceive I endpoint lz now origin guid message { s with balance := s.balance + value }

end Emitting

end CrossChainPingPong.Evm
