import CrossChainPingPong.Evm.Outcome
import CrossChainPingPong.Svm.Outcome
import CrossChainPingPong.Table.Rules

namespace CrossChainPingPong

def Evm.Tx.origin? {I : Evm.Immutables} : Evm.Tx I → Option (Evm.Uint32 × Bytes32)
  | .lzReceive _ _ origin _ _ => some (origin.srcEid, origin.sender)
  | _ => none

def Svm.Ix.origin? : Svm.Ix → Option (Svm.U32 × Bytes32)
  | .lzReceive _ _ params => some (params.srcEid, params.sender)
  | _ => none

namespace World
open Guard

structure Deployment where
  evm : Evm.Immutables
  evmEid : Svm.U32
  rt : Svm.Runtime
  apart : evmEid ≠ evm.peerEid

def Deployment.address (d : Deployment) : Chain → Svm.U32 × Bytes32
  | .evm => (d.evmEid, d.evm.self.setWidth 256)
  | .svm => (d.evm.peerEid, d.rt.gameAddress.1)

structure Packet where
  src : Chain
  dstEid : Svm.U32
  receiver : Bytes32
  guid : Bytes32
  message : Bytes
  deriving DecidableEq, Repr

def Packet.reaches (p : Packet) (d : Deployment) (dst : Chain) : Bool :=
  decide ((p.dstEid, p.receiver) = d.address dst)

structure State where
  evm : Evm.Storage
  svm : Svm.Ledger
  inFlight : List Packet

-- anyone may send to either contract, but only the two contracts send from their own addresses
inductive Act (d : Deployment) where
  | evm (tx : Evm.Tx d.evm) (foreign : ∀ c, tx.origin? ≠ some (d.address c))
  | svm (ix : Svm.Ix) (foreign : ∀ c, ix.origin? ≠ some (d.address c))
  | deliverEvm (i : Nat) (lz : Evm.OApp) (value : Evm.Wei) (nonce : U64)
  | deliverSvm (i : Nat) (oapp : Svm.Oapp) (remainingAccounts : List Svm.LzAccount) (nonce : U64)
      (extraData : Bytes)

inductive Failure where
  | evm (e : Evm.Revert)
  | svm (e : Svm.Error)
  | notInFlight

-- the inherited _lzSend addresses a message to the peer that is set for its destination
def fromEvm (s : Evm.Storage) (p : Evm.Sent) : Packet :=
  ⟨.evm, p.dstEid, s.peers p.dstEid, p.guid, p.message⟩

def fromSvm (p : Svm.Sent) : Packet :=
  ⟨.svm, p.params.dstEid, p.params.receiver, p.guid, p.params.message⟩

def Deployment.delivery (d : Deployment) (p : Packet) (lz : Evm.OApp) (value : Evm.Wei)
    (nonce : U64) : Evm.Tx d.evm :=
  .lzReceive lz value ⟨(d.address p.src).1, (d.address p.src).2, nonce⟩ p.guid p.message

def Deployment.receipt (d : Deployment) (p : Packet) (oapp : Svm.Oapp)
    (remainingAccounts : List Svm.LzAccount) (nonce : U64) (extraData : Bytes) : Svm.Ix :=
  .lzReceive oapp remainingAccounts
    ⟨(d.address p.src).1, (d.address p.src).2, nonce, p.guid, p.message, extraData⟩

def runEvm {d : Deployment} (tx : Evm.Tx d.evm) (inFlight : List Packet) (s : State) :
    Except Failure (State × List Packet) := do
  let (evm, sent) ← (Evm.apply tx s.evm).mapError .evm
  let out := sent.map (fromEvm s.evm)
  pure ({ s with
    evm
    inFlight := inFlight ++ out }, out)

def runSvm (d : Deployment) (ix : Svm.Ix) (inFlight : List Packet) (s : State) :
    Except Failure (State × List Packet) := do
  let (svm, sent) ← (Svm.apply d.rt ix s.svm).mapError .svm
  let out := sent.map fromSvm
  pure ({ s with
    svm
    inFlight := inFlight ++ out }, out)

def apply {d : Deployment} : Act d → State → Except Failure (State × List Packet)
  | .evm tx _, s => runEvm tx s.inFlight s
  | .svm ix _, s => runSvm d ix s.inFlight s
  | .deliverEvm i lz value nonce, s => do
      let p ← okOr s.inFlight[i]? .notInFlight
      require (p.reaches d .evm = true) .notInFlight
      runEvm (d.delivery p lz value nonce) (s.inFlight.eraseIdx i) s
  | .deliverSvm i oapp accounts nonce extraData, s => do
      let p ← okOr s.inFlight[i]? .notInFlight
      require (p.reaches d .svm = true) .notInFlight
      runSvm d (d.receipt p oapp accounts nonce extraData) (s.inFlight.eraseIdx i) s

def machine (d : Deployment) : Machine State (Act d) Failure Packet := ⟨apply⟩

-- the EVM contract as it is deployed and the Solana program as it is uploaded; all else is yet to be set
def start (owner : Evm.Address) (balance : Evm.Wei) : State where
  evm := Evm.deployed owner balance
  svm := Svm.Ledger.empty
  inFlight := []

abbrev History (d : Deployment) := List (Commit State (Act d) Packet)

def taken {d : Deployment} (c : Commit State (Act d) Packet) : Option Packet :=
  match c.action with
  | .deliverEvm i .. | .deliverSvm i .. => c.before.inFlight[i]?
  | .evm .. | .svm .. => none

def evmMove {d : Deployment} (c : Commit State (Act d) Packet) : Option (Evm.Tx d.evm) :=
  match c.action with
  | .evm tx _ => some tx
  | .deliverEvm i lz value nonce => c.before.inFlight[i]?.map fun p => d.delivery p lz value nonce
  | .svm .. | .deliverSvm .. => none

def svmMove {d : Deployment} (c : Commit State (Act d) Packet) : Option Svm.Ix :=
  match c.action with
  | .svm ix _ => some ix
  | .deliverSvm i oapp accounts nonce extraData =>
      c.before.inFlight[i]?.map fun p => d.receipt p oapp accounts nonce extraData
  | .evm .. | .deliverEvm .. => none

variable {d : Deployment} {s s' : State} {out : List Packet}

inductive Effect (s : State) : Act d → State → List Packet → Prop
  | evm {tx foreign evm sent} (applied : Evm.apply tx s.evm = .ok (evm, sent)) :
      Effect s (.evm tx foreign) ⟨evm, s.svm, s.inFlight ++ sent.map (fromEvm s.evm)⟩
        (sent.map (fromEvm s.evm))
  | svm {ix foreign svm sent} (applied : Svm.apply d.rt ix s.svm = .ok (svm, sent)) :
      Effect s (.svm ix foreign) ⟨s.evm, svm, s.inFlight ++ sent.map fromSvm⟩ (sent.map fromSvm)
  | deliverEvm {i lz value nonce p evm sent} (here : s.inFlight[i]? = some p)
      (reaches : p.reaches d .evm = true)
      (applied : Evm.apply (d.delivery p lz value nonce) s.evm = .ok (evm, sent)) :
      Effect s (.deliverEvm i lz value nonce)
        ⟨evm, s.svm, s.inFlight.eraseIdx i ++ sent.map (fromEvm s.evm)⟩ (sent.map (fromEvm s.evm))
  | deliverSvm {i oapp accounts nonce extraData p svm sent} (here : s.inFlight[i]? = some p)
      (reaches : p.reaches d .svm = true)
      (applied : Svm.apply d.rt (d.receipt p oapp accounts nonce extraData) s.svm = .ok (svm, sent)) :
      Effect s (.deliverSvm i oapp accounts nonce extraData)
        ⟨s.evm, svm, s.inFlight.eraseIdx i ++ sent.map fromSvm⟩ (sent.map fromSvm)

theorem runEvm_eq_ok {tx : Evm.Tx d.evm} {pool : List Packet} :
    runEvm tx pool s = .ok (s', out) ↔ ∃ evm sent, Evm.apply tx s.evm = .ok (evm, sent) ∧
      ⟨evm, s.svm, pool ++ sent.map (fromEvm s.evm)⟩ = s' ∧ sent.map (fromEvm s.evm) = out := by
  simp only [runEvm, bind_eq_ok, mapError_eq_ok, pure_eq_ok, Prod.mk.injEq, Prod.exists]

theorem runSvm_eq_ok {ix : Svm.Ix} {pool : List Packet} :
    runSvm d ix pool s = .ok (s', out) ↔ ∃ svm sent, Svm.apply d.rt ix s.svm = .ok (svm, sent) ∧
      ⟨s.evm, svm, pool ++ sent.map fromSvm⟩ = s' ∧ sent.map fromSvm = out := by
  simp only [runSvm, bind_eq_ok, mapError_eq_ok, pure_eq_ok, Prod.mk.injEq, Prod.exists]

theorem apply_effect {a : Act d} (h : apply a s = .ok (s', out)) : Effect s a s' out := by
  cases a with
  | evm tx foreign =>
    obtain ⟨evm, sent, applied, rfl, rfl⟩ := runEvm_eq_ok.mp h
    exact .evm applied
  | svm ix foreign =>
    obtain ⟨svm, sent, applied, rfl, rfl⟩ := runSvm_eq_ok.mp h
    exact .svm applied
  | deliverEvm i lz value nonce =>
    simp only [apply, bind_eq_ok, okOr_eq_ok, require_eq_ok, exists_const] at h
    obtain ⟨p, here, reaches, h⟩ := h
    obtain ⟨evm, sent, applied, rfl, rfl⟩ := runEvm_eq_ok.mp h
    exact .deliverEvm here reaches applied
  | deliverSvm i oapp accounts nonce extraData =>
    simp only [apply, bind_eq_ok, okOr_eq_ok, require_eq_ok, exists_const] at h
    obtain ⟨p, here, reaches, h⟩ := h
    obtain ⟨svm, sent, applied, rfl, rfl⟩ := runSvm_eq_ok.mp h
    exact .deliverSvm here reaches applied

theorem commits_effect {c : Commit State (Act d) Packet} (hc : (machine d).Commits c) :
    Effect c.before c.action c.after c.out := apply_effect hc

theorem foreign_of_none {o : Option (Svm.U32 × Bytes32)} (own : o = none) (c : Chain) :
    o ≠ some (d.address c) := by
  subst own
  exact (Option.some_ne_none _).symm

theorem src_of_delivery {evm evm' : Evm.Storage} {p : Packet} {lz : Evm.OApp} {value : Evm.Wei}
    {nonce : U64} {sent : List Evm.Sent}
    (ho : Evm.Outcome evm (d.delivery p lz value nonce) evm' sent) : p.src = .svm := by
  have hpeer : (d.address p.src).1 = d.evm.peerEid := by
    cases ho with
    | aside aside => cases aside
    | replay peer | finish peer | reply peer => exact peer
  cases hp : p.src with
  | svm => rfl
  | evm =>
    rw [hp] at hpeer
    exact absurd hpeer d.apart

def sampleDeployment : Deployment := ⟨Evm.sampleImmutables, 40161, Svm.sampleRuntime, by decide⟩

def sampleGame : List (Act sampleDeployment) :=
  [.evm (.setPeer 11 40168 1) (foreign_of_none rfl),
    .svm (.initStore ⟨3, 4, 40161⟩) (foreign_of_none rfl),
    .svm (.setPeerConfig (Svm.obligingOapp 0) 3 ⟨40161, .peerAddress 1⟩) (foreign_of_none rfl),
    .evm (Evm.sampleServe 9) (foreign_of_none rfl),
    .deliverSvm 0 (Svm.obligingOapp 0) [] 1 [],
    .svm (Svm.sampleSend 6) (foreign_of_none rfl),
    .deliverEvm 0 (Evm.obligingOApp 8 0) 0 1]

end World
end CrossChainPingPong
