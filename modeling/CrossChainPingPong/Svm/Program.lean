import CrossChainPingPong.Library.Machine
import CrossChainPingPong.Wire
import Mathlib.Logic.Function.Basic

namespace CrossChainPingPong.Svm
open Guard

abbrev Pubkey := BitVec 256
abbrev U8 := BitVec 8
abbrev U32 := BitVec 32

def initialBallValue : U128 := 100000000000000000000
def maxRalliesCap : U64 := 100

def asciiBytes (s : String) : Bytes := s.toList.map fun c => UInt8.ofNat c.toNat

def gameStateSeed : Bytes := asciiBytes "game_state"
def peerSeed : Bytes := asciiBytes "Peer"

inductive PingPongError where
  | gameAlreadyActive | gameNotActive | invalidMaxRallies | maxRalliesReached | noBallToServe
  | alreadyHasBall | gameNotPaused | invalidPeer | insufficientBalance | ballValueZero
  | invalidMessage | messageAlreadyProcessed | doesNotHaveBall | gamePaused | notAuthorised
  | ballValueUnderflow | ballValueTooHigh | maxRalliesExceeded
  deriving DecidableEq, Repr

inductive Error where
  | pingPong (e : PingPongError)
  | program (e : ProgramError)
  | accountNotInitialized | accountAlreadyInUse | notEndpointSettings | constraintRaw | oapp | panic
  deriving DecidableEq, Repr

structure GameState where
  admin : Pubkey
  bump : U8
  endpointProgram : Pubkey
  ballValue : U128
  rallyCount : U64
  maxRallies : U64
  hasBall : Bool
  gameActive : Bool
  paused : Bool
  remoteEid : U32
  lastReceivedNonce : U64
  deriving DecidableEq, Repr

structure LzReceiveTypesAccounts where
  game : Pubkey
  deriving DecidableEq, Repr

structure EnforcedOptions where
  send : Bytes
  deriving DecidableEq, Repr

structure PeerConfig where
  peerAddress : Bytes32
  enforcedOptions : EnforcedOptions
  bump : U8
  deriving DecidableEq, Repr

structure Ledger where
  game : Option GameState
  lzReceiveTypesAccounts : Option LzReceiveTypesAccounts
  peer : U32 → Option PeerConfig

structure InitGameParams where
  admin : Pubkey
  endpoint : Pubkey
  remoteEid : U32

inductive PeerConfigParam where
  | peerAddress (address : Bytes32)
  | enforcedOptions (send : Bytes)

structure SetPeerConfigParams where
  remoteEid : U32
  config : PeerConfigParam

structure SendBallParams where
  dstEid : U32
  ballValue : U128
  options : Bytes
  nativeFee : U64

structure LzReceiveParams where
  srcEid : U32
  sender : Bytes32
  nonce : U64
  guid : Bytes32
  message : Bytes
  extraData : Bytes

structure LzAccount where
  pubkey : Pubkey
  isSigner : Bool
  isWritable : Bool

structure SendParams where
  dstEid : U32
  receiver : Bytes32
  message : Bytes
  options : Bytes
  nativeFee : U64
  lzTokenFee : U64

structure ClearParams where
  receiver : Pubkey
  srcEid : U32
  sender : Bytes32
  nonce : U64
  guid : Bytes32
  message : Bytes

structure Sent where
  params : SendParams
  guid : Bytes32

-- how the chain derives addresses, for this program and for the settings account of the endpoint's
structure Runtime where
  findProgramAddress : List Bytes → Pubkey × U8
  endpointSettings : Pubkey

-- what the oapp crate and the endpoint program behind it answer in one instruction
structure Oapp where
  clearMinAccountsLen : Nat
  combineOptions : Bytes → Bytes → Option Bytes
  assertType3 : Bytes → Bool
  send : Pubkey → List LzAccount → SendParams → Option Bytes32
  clear : Pubkey → List LzAccount → ClearParams → Bool

def Runtime.gameAddress (rt : Runtime) : Pubkey × U8 := rt.findProgramAddress [gameStateSeed]

def Runtime.peerAddress (rt : Runtime) (eid : U32) : Pubkey × U8 :=
  rt.findProgramAddress
    [peerSeed, BigEndian.write 32 rt.gameAddress.1.toNat, BigEndian.write 4 eid.toNat]

-- an account is written back after the instruction only if it is declared mut
def writeBack {α : Type} (isMut : Bool) (stored loaded : α) : α := if isMut then loaded else stored

variable (rt : Runtime) (oapp : Oapp)

def InitGame.apply (params : InitGameParams) (l : Ledger) : Except Error (Ledger × List Sent) := do
  require (l.game = none) .accountAlreadyInUse
  require (l.lzReceiveTypesAccounts = none) .accountAlreadyInUse
  let game : GameState :=
    { admin := params.admin
      bump := rt.gameAddress.2
      endpointProgram := params.endpoint
      ballValue := 0
      rallyCount := 0
      maxRallies := maxRalliesCap
      hasBall := false
      gameActive := false
      paused := false
      remoteEid := params.remoteEid
      lastReceivedNonce := 0 }
  pure ({ l with game := some game, lzReceiveTypesAccounts := some ⟨rt.gameAddress.1⟩ }, [])

def SetPeerConfig.apply (admin : Pubkey) (params : SetPeerConfigParams) (l : Ledger) :
    Except Error (Ledger × List Sent) := do
  let game ← okOr l.game .accountNotInitialized
  require (game.admin = admin) (.pingPong .notAuthorised)
  let peer := (l.peer params.remoteEid).getD ⟨0, ⟨[]⟩, 0⟩
  let peer ← match params.config with
    | .peerAddress address => pure { peer with peerAddress := address }
    | .enforcedOptions send => do
        require (oapp.assertType3 send = true) (.program (.custom 6000))
        pure { peer with enforcedOptions := ⟨send⟩ }
  let peer := { peer with bump := (rt.peerAddress params.remoteEid).2 }
  pure ({ l with peer := Function.update l.peer params.remoteEid (some peer) }, [])

def PauseGame.gameIsMut : Bool := false

def PauseGame.apply (admin : Pubkey) (l : Ledger) : Except Error (Ledger × List Sent) := do
  let game ← okOr l.game .accountNotInitialized
  require (game.admin = admin) (.pingPong .notAuthorised)
  require (game.gameActive = true) (.pingPong .gameNotActive)
  let loaded := { game with gameActive := false }
  pure ({ l with game := some (writeBack PauseGame.gameIsMut game loaded) }, [])

def ResumeGame.gameIsMut : Bool := false

def ResumeGame.apply (admin : Pubkey) (l : Ledger) : Except Error (Ledger × List Sent) := do
  let game ← okOr l.game .accountNotInitialized
  require (game.admin = admin) (.pingPong .notAuthorised)
  require (game.gameActive = false) (.pingPong .gameNotPaused)
  let loaded := { game with gameActive := true }
  pure ({ l with game := some (writeBack ResumeGame.gameIsMut game loaded) }, [])

def CloseGame.apply (admin : Pubkey) (l : Ledger) : Except Error (Ledger × List Sent) := do
  let game ← okOr l.game .accountNotInitialized
  require (game.admin = admin) (.pingPong .notAuthorised)
  pure ({ l with game := none, lzReceiveTypesAccounts := none }, [])

def SendBall.gameIsMut : Bool := true

def SendBall.apply (remainingAccounts : List LzAccount) (params : SendBallParams) (l : Ledger) :
    Except Error (Ledger × List Sent) := do
  let game ← okOr l.game .accountNotInitialized
  let peer ← okOr (l.peer params.dstEid) .accountNotInitialized
  require (game.paused = false) (.pingPong .gamePaused)
  require (game.hasBall = true) (.pingPong .doesNotHaveBall)
  require (0 < params.ballValue) (.pingPong .ballValueZero)
  let msg : PingPongMessage := ⟨params.ballValue, game.rallyCount⟩
  let options ← okOr (oapp.combineOptions peer.enforcedOptions.send params.options) .constraintRaw
  let sendParams : SendParams :=
    { dstEid := params.dstEid
      receiver := peer.peerAddress
      message := msg.encode
      options
      nativeFee := params.nativeFee
      lzTokenFee := 0 }
  let guid ← okOr (oapp.send rt.gameAddress.1 remainingAccounts sendParams) .oapp
  let loaded := { game with hasBall := false }
  pure ({ l with game := some (writeBack SendBall.gameIsMut game loaded) }, [⟨sendParams, guid⟩])

def LzReceive.gameIsMut : Bool := true

def GameState.endGame (g : GameState) : GameState := { g with gameActive := false, hasBall := false }

-- the two end-of-game tests at the end of LzReceive::apply; the second one's early return changes
-- nothing that follows
def LzReceive.endIfOver (newValue : U128) (game : GameState) : GameState :=
  let game := if newValue = 0 then game.endGame else game
  if game.maxRallies ≤ game.rallyCount then game.endGame else game

def LzReceive.apply (remainingAccounts : List LzAccount) (params : LzReceiveParams) (l : Ledger) :
    Except Error (Ledger × List Sent) := do
  let game ← okOr l.game .accountNotInitialized
  let peer ← okOr (l.peer params.srcEid) .accountNotInitialized
  require (params.sender = peer.peerAddress) (.pingPong .gameNotActive)
  require (game.paused = false) (.pingPong .gamePaused)
  require (oapp.clearMinAccountsLen ≤ remainingAccounts.length) .panic
  let accountsForClear := remainingAccounts.take oapp.clearMinAccountsLen
  let clearParams : ClearParams :=
    { receiver := rt.gameAddress.1
      srcEid := params.srcEid
      sender := params.sender
      nonce := params.nonce
      guid := params.guid
      message := params.message }
  require (oapp.clear rt.gameAddress.1 accountsForClear clearParams = true) .oapp
  let receivedMsg ← (PingPongMessage.decode params.message).mapError .program
  require (0 < receivedMsg.ballValue) (.pingPong .ballValueZero)
  require (receivedMsg.ballValue ≤ initialBallValue) (.pingPong .ballValueTooHigh)
  let newValue ← okOr (checkedSub receivedMsg.ballValue 1) (.pingPong .ballValueUnderflow)
  let loaded := { game with
    ballValue := newValue
    rallyCount := (checkedAdd game.rallyCount 1).getD (BitVec.allOnes 64)
    hasBall := true
    gameActive := true }
  require (loaded.rallyCount ≤ maxRalliesCap) (.pingPong .maxRalliesExceeded)
  let loaded := LzReceive.endIfOver newValue loaded
  pure ({ l with game := some (writeBack LzReceive.gameIsMut game loaded) }, [])

inductive Ix where
  | initStore (params : InitGameParams)
  | setPeerConfig (oapp : Oapp) (admin : Pubkey) (params : SetPeerConfigParams)
  | pauseGame (admin : Pubkey)
  | resumeGame (admin : Pubkey)
  | sendBall (oapp : Oapp) (remainingAccounts : List LzAccount) (params : SendBallParams)
  | lzReceive (oapp : Oapp) (remainingAccounts : List LzAccount) (params : LzReceiveParams)
  | closeGame (admin : Pubkey)

def apply : Ix → Ledger → Except Error (Ledger × List Sent)
  | .initStore params, l => InitGame.apply rt params l
  | .setPeerConfig oapp admin params, l => SetPeerConfig.apply rt oapp admin params l
  | .pauseGame admin, l => PauseGame.apply admin l
  | .resumeGame admin, l => ResumeGame.apply admin l
  | .sendBall oapp accounts params, l => SendBall.apply rt oapp accounts params l
  | .lzReceive oapp accounts params, l => LzReceive.apply rt oapp accounts params l
  | .closeGame admin, l => CloseGame.apply admin l

def machine : Machine Ledger Ix Error Sent := ⟨apply rt⟩

def Ledger.empty : Ledger := ⟨none, none, fun _ => none⟩

end CrossChainPingPong.Svm
