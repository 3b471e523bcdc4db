import CrossChainPingPong.Library.Machine
import CrossChainPingPong.Wire
import Mathlib.Logic.Function.Basic

namespace CrossChainPingPong.Evm
open Guard

abbrev Address := BitVec 160
abbrev Uint16 := BitVec 16
abbrev Uint32 := BitVec 32
abbrev Uint128 := BitVec 128
abbrev Wei := Nat

def initialBallValue : Uint256 := 100000000000000000000
def sendBallType : Uint16 := 1
def maxRalliesCap : Uint256 := 100

inductive Revert where
  | gameAlreadyActive | gameNotActive | insufficientFee | maxRalliesReached | noBallToServe
  | alreadyHasBall | insufficientContractBalance | invalidMaxRallies | invalidPeer
  | selfCallFailed | onlySelfCall | invalidAddress | withdrawFailed
  | ownableUnauthorizedAccount | ownableInvalidOwner | arithmeticPanic | malformedCalldata | oapp
  deriving DecidableEq, Repr

structure GameState where
  maxRallies : Uint128
  hasBall : Bool
  gameActive : Bool
  deriving DecidableEq, Repr

structure Immutables where
  self : Address
  peerEid : Uint32

structure Storage where
  owner : Address
  peers : Uint32 → Bytes32
  enforcedOptions : Uint32 → Uint16 → Bytes
  ballValue : Uint256
  rallyCount : Uint256
  gameState : GameState
  processedGuid : Bytes32 → Bool
  balance : Wei

structure Origin where
  srcEid : Uint32
  sender : Bytes32
  nonce : U64

structure MessagingFee where
  nativeFee : Wei
  lzTokenFee : Wei

structure MessagingReceipt where
  guid : Bytes32
  nonce : U64
  fee : MessagingFee

structure Sent where
  dstEid : Uint32
  message : Bytes
  options : Bytes
  nativeFee : Wei
  refundAddress : Address
  guid : Bytes32

-- what the inherited OApp contracts and the endpoint behind them answer in one transaction:
-- whether lzReceive lets the delivery through, and the results of combineOptions, _quote, _lzSend
structure OApp where
  admits : Bool
  combineOptions : Uint32 → Uint16 → Bytes → Option Bytes
  quote : Uint32 → Bytes → Bytes → Bool → Option MessagingFee
  lzSend : Uint32 → Bytes → Bytes → MessagingFee → Address → Option MessagingReceipt

namespace Storage

def credit (s : Storage) (I : Immutables) (sender : Address) (value : Wei) : Storage :=
  { s with balance := if sender = I.self then s.balance else s.balance + value }

def setHasBall (s : Storage) (b : Bool) : Storage :=
  { s with gameState := { s.gameState with hasBall := b } }

def setGameActive (s : Storage) (b : Bool) : Storage :=
  { s with gameState := { s.gameState with gameActive := b } }

end Storage

variable (I : Immutables) (lz : OApp)

def encodeMessage (ballValue rallyCount : Uint256) : Bytes := abiEncode ballValue rallyCount

def combineOptionsEmpty (s : Storage) : Bytes := s.enforcedOptions I.peerEid sendBallType

def quote (ballValue rallyCount : Uint256) (options : Bytes) (payInLzToken : Bool) :
    Except Revert MessagingFee := do
  let message := encodeMessage ballValue rallyCount
  let combinedOptions ← okOr (lz.combineOptions I.peerEid sendBallType options) .oapp
  okOr (lz.quote I.peerEid message combinedOptions payInLzToken) .oapp

-- the endpoint keeps receipt.fee and hands the rest of the value back to the refund address
def lzSend (message options : Bytes) (fee : MessagingFee) (refundAddress : Address) (s : Storage) :
    Except Revert (Storage × Sent) := do
  let receipt ← okOr (lz.lzSend I.peerEid message options fee refundAddress) .oapp
  let refund := if refundAddress = I.self then fee.nativeFee - receipt.fee.nativeFee else 0
  pure ({ s with balance := s.balance - fee.nativeFee + refund },
    { dstEid := I.peerEid, message, options, nativeFee := fee.nativeFee, refundAddress,
      guid := receipt.guid })

def serveOpen (sender : Address) (value : Wei) (maxRallies : Uint256) (options : Bytes)
    (s : Storage) : Except Revert (Storage × Bytes × Bytes) := do
  let s := s.credit I sender value
  revertIf (s.gameState.gameActive = true) .gameAlreadyActive
  revertIf (maxRallies = 0 ∨ maxRalliesCap < maxRallies) .invalidMaxRallies
  let s := { s with
    ballValue := initialBallValue
    rallyCount := 0
    gameState := { maxRallies := maxRallies.setWidth 128, hasBall := true, gameActive := true } }
  let message := encodeMessage s.ballValue s.rallyCount
  let combinedOptions ← okOr (lz.combineOptions I.peerEid sendBallType options) .oapp
  let fee ← okOr (lz.quote I.peerEid message combinedOptions false) .oapp
  revertIf (value < fee.nativeFee) .insufficientFee
  pure (s, message, combinedOptions)

def serve (sender : Address) (value : Wei) (maxRallies : Uint256) (options : Bytes)
    (s : Storage) : Except Revert (Storage × List Sent) := do
  let (s, message, combinedOptions) ← serveOpen I lz sender value maxRallies options s
  let (s, sent) ← lzSend I lz message combinedOptions ⟨value, 0⟩ sender s
  pure (s.setHasBall false, [sent])

def fund (sender : Address) (value : Wei) (s : Storage) : Except Revert (Storage × List Sent) := do
  revertIf (value = 0) .insufficientFee
  pure (s.credit I sender value, [])

def onlyOwner (sender : Address) (s : Storage) : Except Revert Unit :=
  require (sender = s.owner) .ownableUnauthorizedAccount

def pauseGame (sender : Address) (s : Storage) : Except Revert (Storage × List Sent) := do
  onlyOwner sender s
  revertIf (s.gameState.gameActive = false) .gameNotActive
  pure (s.setGameActive false, [])

def sendBackWithValue (sender : Address) (value : Wei) (message options : Bytes) (s : Storage) :
    Except Revert (Storage × List Sent) := do
  revertIf (sender ≠ I.self) .onlySelfCall
  let (s, sent) ← lzSend I lz message options ⟨value, 0⟩ I.self (s.credit I sender value)
  pure (s, [sent])

def sendBack (s : Storage) : Except Revert (Storage × List Sent) := do
  let gs := s.gameState
  revertIf (gs.gameActive = false) .gameNotActive
  revertIf (gs.hasBall = false) .noBallToServe
  revertIf (gs.maxRallies.setWidth 256 ≤ s.rallyCount) .maxRalliesReached
  let message := encodeMessage s.ballValue s.rallyCount
  let options := combineOptionsEmpty I s
  let fee ← okOr (lz.quote I.peerEid message options false) .oapp
  revertIf (s.balance < fee.nativeFee) .insufficientContractBalance
  let (s, sent) ← (sendBackWithValue I lz I.self fee.nativeFee message options s).mapError
    fun _ => .selfCallFailed
  pure (s.setHasBall false, sent)

def initializeGameFromPeer (receivedValue receivedRally : Uint256) (s : Storage) :
    Except Revert (Storage × List Sent) := do
  let rallyCount ← okOr (checkedAdd receivedRally 1) .arithmeticPanic
  let s := { s with
    ballValue := receivedValue
    rallyCount
    gameState :=
      { maxRallies := maxRalliesCap.setWidth 128, hasBall := true, gameActive := true } }
  if s.ballValue = (0 : Uint256) then pure (s.setGameActive false, [])
  else if maxRalliesCap ≤ s.rallyCount then pure (s.setGameActive false, [])
  else sendBack I lz { s with ballValue := s.ballValue - 1 }

def lzReceive (origin : Origin) (guid : Bytes32) (message : Bytes) (s : Storage) :
    Except Revert (Storage × List Sent) := do
  revertIf (origin.srcEid ≠ I.peerEid) .invalidPeer
  if s.processedGuid guid = true then pure (s, [])
  else
    let s := { s with processedGuid := Function.update s.processedGuid guid true }
    let gs := s.gameState
    let (receivedValue, receivedRally) ← okOr (abiDecode message) .malformedCalldata
    if gs.gameActive = false then
      revertIf (gs.hasBall = true) .alreadyHasBall
      initializeGameFromPeer I lz receivedValue receivedRally s
    else
      revertIf (gs.hasBall = true) .alreadyHasBall
      let rallyCount ← okOr (checkedAdd receivedRally 1) .arithmeticPanic
      let gs := { gs with hasBall := true }
      let s := { s with ballValue := receivedValue, rallyCount, gameState := gs }
      if s.ballValue = (0 : Uint256) then pure (s.setGameActive false, [])
      else if gs.maxRallies.setWidth 256 ≤ s.rallyCount then pure (s.setGameActive false, [])
      else sendBack I lz { s with ballValue := s.ballValue - 1 }

def setPeer (sender : Address) (eid : Uint32) (peer : Bytes32) (s : Storage) :
    Except Revert (Storage × List Sent) := do
  onlyOwner sender s
  pure ({ s with peers := Function.update s.peers eid peer }, [])

-- the next four are inherited
def setEnforcedOptions (sender : Address) (result : Option (Uint32 → Uint16 → Bytes)) (s : Storage) :
    Except Revert (Storage × List Sent) := do
  onlyOwner sender s
  let enforcedOptions ← okOr result .oapp
  pure ({ s with enforcedOptions }, [])

def setDelegate (sender delegate : Address) (accepts : Address → Bool) (s : Storage) :
    Except Revert (Storage × List Sent) := do
  onlyOwner sender s
  require (accepts delegate = true) .oapp
  pure (s, [])

def transferOwnership (sender newOwner : Address) (s : Storage) :
    Except Revert (Storage × List Sent) := do
  onlyOwner sender s
  revertIf (newOwner = 0) .ownableInvalidOwner
  pure ({ s with owner := newOwner }, [])

def renounceOwnership (sender : Address) (s : Storage) : Except Revert (Storage × List Sent) := do
  onlyOwner sender s
  pure ({ s with owner := 0 }, [])

def withdraw (sender recipient : Address) (amount : Wei) (accepted : Bool) (s : Storage) :
    Except Revert (Storage × List Sent) := do
  onlyOwner sender s
  revertIf (recipient = 0) .invalidAddress
  revertIf (s.balance < amount ∨ accepted = false) .withdrawFailed
  pure ({ s with balance := if recipient = I.self then s.balance else s.balance - amount }, [])

end CrossChainPingPong.Evm
