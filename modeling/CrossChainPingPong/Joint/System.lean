import CrossChainPingPong.Evm.Outcome
import CrossChainPingPong.Svm.Outcome
import CrossChainPingPong.Table.Rules

namespace CrossChainPingPong.Joint
open Guard

-- the two contracts, each deployed to its own chain with the other one as its only peer
structure Deployment where
  evm : Evm.Immutables
  owner : Evm.Address
  balance : Evm.Wei
  evmEid : Svm.U32
  rt : Svm.Runtime
  admin : Svm.Pubkey
  endpoint : Svm.Pubkey

def Deployment.evmAddress (d : Deployment) : Bytes32 := d.evm.self.setWidth 256

def Deployment.svmAddress (d : Deployment) : Bytes32 := d.rt.gameAddress.1

structure Packet where
  dst : Chain
  guid : Bytes32
  message : Bytes
  deriving DecidableEq, Repr

structure State where
  evm : Evm.Storage
  svm : Svm.Ledger
  inFlight : List Packet

namespace State

def svmHasBall (s : State) : Bool := s.svm.game.elim false Svm.GameState.hasBall

def svmBallValue (s : State) : Nat := s.svm.game.elim 0 fun g => g.ballValue.toNat

def svmRallyCount (s : State) : Nat := s.svm.game.elim 0 fun g => g.rallyCount.toNat

end State

end CrossChainPingPong.Joint

namespace CrossChainPingPong

def Evm.Tx.isLocal {I : Evm.Immutables} : Evm.Tx I → Bool
  | .setPeer .. | .lzReceive .. => false
  | _ => true

def Svm.Ix.isLocal : Svm.Ix → Bool
  | .pauseGame _ | .resumeGame _ | .sendBall .. => true
  | _ => false

namespace Joint
open Guard

inductive Act (d : Deployment) where
  | evm (tx : Evm.Tx d.evm) (isLocal : tx.isLocal = true)
  | svm (ix : Svm.Ix) (isLocal : ix.isLocal = true)
  | deliverEvm (i : Nat) (lz : Evm.OApp) (value : Evm.Wei) (nonce : U64)
  | deliverSvm (i : Nat) (oapp : Svm.Oapp) (remainingAccounts : List Svm.LzAccount) (nonce : U64)
      (extraData : Bytes)

namespace Act
variable {d : Deployment}

def isServe : Act d → Bool
  | .evm (.serve ..) _ => true
  | _ => false

def served : Act d → Option Uint256
  | .evm (.serve _ _ maxRallies _) _ => some maxRallies
  | _ => none

def isPauseGame : Act d → Bool
  | .evm (.pauseGame _) _ => true
  | _ => false

end Act

inductive Failure where
  | evm (e : Evm.Revert)
  | svm (e : Svm.Error)
  | notInFlight

def fromEvm (s : Evm.Sent) : Packet := ⟨.svm, s.guid, s.message⟩

def fromSvm (s : Svm.Sent) : Packet := ⟨.evm, s.guid, s.params.message⟩

def Deployment.delivery (d : Deployment) (p : Packet) (lz : Evm.OApp) (value : Evm.Wei)
    (nonce : U64) : Evm.Tx d.evm :=
  .lzReceive lz value ⟨d.evm.peerEid, d.svmAddress, nonce⟩ p.guid p.message

def Deployment.receipt (d : Deployment) (p : Packet) (oapp : Svm.Oapp)
    (remainingAccounts : List Svm.LzAccount) (nonce : U64) (extraData : Bytes) : Svm.Ix :=
  .lzReceive oapp remainingAccounts ⟨d.evmEid, d.evmAddress, nonce, p.guid, p.message, extraData⟩

def runEvm {d : Deployment} (tx : Evm.Tx d.evm) (inFlight : List Packet) (s : State) :
    Except Failure (State × List Packet) := do
  let (evm, sent) ← (Evm.apply tx s.evm).mapError .evm
  let out := sent.map fromEvm
  pure ({ s with
    evm
    inFlight := inFlight ++ out }, out)

def runSvm (d : Deployment) (ix : Svm.Ix) (inFlight : List Packet) (s : State) :
    Except Failure (State × List Packet) := do
  let (svm, sent) ← (Svm.apply d.rt ix s.svm).mapError .svm
  let out := sent.map fromSvm
  pure ({ s with
    svm
    inFlight := inFlight ++ out }, out)

-- a message in flight can be delivered at any time, and leaves the pool once it has been accepted
def apply {d : Deployment} : Act d → State → Except Failure (State × List Packet)
  | .evm tx _, s => runEvm tx s.inFlight s
  | .svm ix _, s => runSvm d ix s.inFlight s
  | .deliverEvm i lz value nonce, s => do
      let p ← okOr s.inFlight[i]? .notInFlight
      require (p.dst = .evm) .notInFlight
      runEvm (d.delivery p lz value nonce) (s.inFlight.eraseIdx i) s
  | .deliverSvm i oapp accounts nonce extraData, s => do
      let p ← okOr s.inFlight[i]? .notInFlight
      require (p.dst = .svm) .notInFlight
      runSvm d (d.receipt p oapp accounts nonce extraData) (s.inFlight.eraseIdx i) s

def machine (d : Deployment) : Machine State (Act d) Failure Packet := ⟨apply⟩

def evmSetup (d : Deployment) : List (Evm.Tx d.evm) :=
  [.setPeer d.owner d.evm.peerEid d.svmAddress]

def svmSetup (d : Deployment) : List Svm.Ix :=
  [.initStore ⟨d.admin, d.endpoint, d.evmEid⟩,
    .setPeerConfig (Svm.obligingOapp 0) d.admin ⟨d.evmEid, .peerAddress d.evmAddress⟩]

def fresh (d : Deployment) : State where
  evm := (Evm.machine d.evm).run (Evm.deployed d.owner d.balance) (evmSetup d)
  svm := (Svm.machine d.rt).run Svm.Ledger.empty (svmSetup d)
  inFlight := []

def sendsStored {d : Deployment} (c : Commit State (Act d) Packet) : Bool :=
  match c.action with
  | .svm (.sendBall _ _ params) _ => decide (params.ballValue.toNat = c.before.svmBallValue)
  | _ => true

def servesBall {d : Deployment} (player : Evm.Msg d.evm) (guid : Bytes32) (maxRallies : Uint256) :
    Act d :=
  .evm (.serve (Evm.obligingOApp guid 0) player maxRallies []) rfl

def pausesGame (d : Deployment) : Act d := .evm (.pauseGame d.owner) rfl

def returnsBall (d : Deployment) (guid : Bytes32) (ballValue : U128) : Act d :=
  .svm (.sendBall (Svm.obligingOapp guid) [] ⟨d.evmEid, ballValue, [], 0⟩) rfl

def reachesEvm (d : Deployment) (guid : Bytes32) : Act d :=
  .deliverEvm 0 (Evm.obligingOApp guid 0) 0 1

def reachesSvm (d : Deployment) : Act d := .deliverSvm 0 (Svm.obligingOapp 0) [] 1 []

def sampleDeployment : Deployment :=
  ⟨Evm.sampleImmutables, 11, 1000, 40161, Svm.sampleRuntime, 3, 4⟩

def sampleServe (guid : Bytes32) (maxRallies : Uint256) : Act sampleDeployment :=
  servesBall Evm.samplePlayer guid maxRallies

end Joint
end CrossChainPingPong
