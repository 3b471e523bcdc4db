import CrossChainPingPong.Evm.Routing
import CrossChainPingPong.Joint.Refinement
import CrossChainPingPong.Library.Composed
import CrossChainPingPong.World.System

namespace CrossChainPingPong.World
open Guard

variable {d : Joint.Deployment}

def ofJoint (d : Joint.Deployment) (apart : d.evmEid ≠ d.evm.peerEid) : Deployment :=
  ⟨d.evm, d.evmEid, d.rt, apart⟩

def otherSide : Chain → Chain
  | .evm => .svm
  | .svm => .evm

def posting (w : Deployment) (p : Joint.Packet) : Packet :=
  ⟨otherSide p.dst, (w.address p.dst).1, (w.address p.dst).2, p.guid, p.message⟩

def placing (w : Deployment) (s : Joint.State) : State := ⟨s.evm, s.svm, s.inFlight.map (posting w)⟩

theorem own_tx {tx : Evm.Tx d.evm} (isLocal : tx.isLocal = true) : tx.origin? = none := by
  cases tx <;> first | rfl | cases isLocal

theorem own_ix {ix : Svm.Ix} (isLocal : ix.isLocal = true) : ix.origin? = none := by
  cases ix <;> first | rfl | cases isLocal

def acting (apart : d.evmEid ≠ d.evm.peerEid) : Joint.Act d → Act (ofJoint d apart)
  | .evm tx isLocal => .evm tx (foreign_of_none (own_tx isLocal))
  | .svm ix isLocal => .svm ix (foreign_of_none (own_ix isLocal))
  | .deliverEvm i lz value nonce => .deliverEvm i lz value nonce
  | .deliverSvm i oapp accounts nonce extraData => .deliverSvm i oapp accounts nonce extraData

structure Peered (d : Joint.Deployment) (s : Joint.State) : Prop where
  sound : Joint.Sound d s
  peer : s.evm.peers d.evm.peerEid = d.svmAddress

section
variable (apart : d.evmEid ≠ d.evm.peerEid) {s s' : Joint.State} {out : List Joint.Packet}

theorem posting_fromEvm {tx : Evm.Tx d.evm} {evm : Evm.Storage} {sent : List Evm.Sent}
    (peer : s.evm.peers d.evm.peerEid = d.svmAddress)
    (applied : Evm.apply tx s.evm = .ok (evm, sent)) :
    sent.map (fromEvm s.evm) = (sent.map Joint.fromEvm).map (posting (ofJoint d apart)) := by
  rw [List.map_map]
  refine List.map_congr_left fun p hp => ?_
  have hdst := Evm.apply_dst applied p hp
  have haddress : (ofJoint d apart).address .svm = (d.evm.peerEid, d.svmAddress) := rfl
  simp only [fromEvm, hdst, peer, Function.comp, posting, Joint.fromEvm, haddress, otherSide]

theorem posting_fromSvm {ix : Svm.Ix} {svm : Svm.Ledger} {sent : List Svm.Sent}
    (sound : Joint.Sound d s) (outcome : Svm.Outcome d.rt s.svm ix svm sent) :
    sent.map fromSvm = (sent.map Joint.fromSvm).map (posting (ofJoint d apart)) := by
  rw [List.map_map]
  refine List.map_congr_left fun p hp => ?_
  obtain ⟨hdst, hreceiver⟩ := sound.sent_to_evm outcome p hp
  have haddress : (ofJoint d apart).address .evm = (d.evmEid, d.evmAddress) := rfl
  simp only [fromSvm, hdst, hreceiver, Function.comp, posting, Joint.fromSvm, haddress, otherSide]

theorem delivery_posting {p : Joint.Packet} (dst : p.dst = .evm) (lz : Evm.OApp) (value : Evm.Wei)
    (nonce : U64) : (ofJoint d apart).delivery (posting (ofJoint d apart) p) lz value nonce =
      d.delivery p lz value nonce := by
  simp only [Deployment.delivery, posting, dst, otherSide]
  rfl

theorem receipt_posting {p : Joint.Packet} (dst : p.dst = .svm) (oapp : Svm.Oapp)
    (accounts : List Svm.LzAccount) (nonce : U64) (extraData : Bytes) :
    (ofJoint d apart).receipt (posting (ofJoint d apart) p) oapp accounts nonce extraData =
      d.receipt p oapp accounts nonce extraData := by
  simp only [Deployment.receipt, posting, dst, otherSide]
  rfl

theorem posting_reaches (p : Joint.Packet) (chain : Chain) :
    (posting (ofJoint d apart) p).reaches (ofJoint d apart) chain = true ↔ p.dst = chain := by
  rw [Packet.reaches, decide_eq_true_iff]
  constructor
  · intro haddress
    have heid : ((ofJoint d apart).address p.dst).1 = ((ofJoint d apart).address chain).1 :=
      congrArg Prod.fst haddress
    cases hp : p.dst with
    | evm =>
      cases chain with
      | evm => rfl
      | svm =>
        rw [hp] at heid
        exact absurd heid apart
    | svm =>
      cases chain with
      | svm => rfl
      | evm =>
        rw [hp] at heid
        exact absurd heid.symm apart
  · rintro rfl
    rfl

theorem runEvm_placing {tx : Evm.Tx d.evm} {pool : List Joint.Packet}
    (peer : s.evm.peers d.evm.peerEid = d.svmAddress)
    (h : Joint.runEvm tx pool s = .ok (s', out)) :
    runEvm (d := ofJoint d apart) tx (pool.map (posting (ofJoint d apart)))
        (placing (ofJoint d apart) s) =
      .ok (placing (ofJoint d apart) s', out.map (posting (ofJoint d apart))) := by
  obtain ⟨evm, sent, applied, rfl, rfl⟩ := Joint.runEvm_eq_ok.mp h
  have hout := posting_fromEvm apart peer applied
  refine runEvm_eq_ok.mpr ⟨evm, sent, applied, ?_, hout⟩
  have hpool := congrArg (pool.map (posting (ofJoint d apart)) ++ ·) hout
  rw [← List.map_append] at hpool
  exact congrArg (State.mk evm s.svm) hpool

theorem runSvm_placing {ix : Svm.Ix} {pool : List Joint.Packet} (sound : Joint.Sound d s)
    (h : Joint.runSvm d ix pool s = .ok (s', out)) :
    runSvm (ofJoint d apart) ix (pool.map (posting (ofJoint d apart)))
        (placing (ofJoint d apart) s) =
      .ok (placing (ofJoint d apart) s', out.map (posting (ofJoint d apart))) := by
  obtain ⟨svm, sent, applied, rfl, rfl⟩ := Joint.runSvm_eq_ok.mp h
  have hout := posting_fromSvm apart sound (Svm.apply_outcome applied)
  refine runSvm_eq_ok.mpr ⟨svm, sent, applied, ?_, hout⟩
  have hpool := congrArg (pool.map (posting (ofJoint d apart)) ++ ·) hout
  rw [← List.map_append] at hpool
  exact congrArg (State.mk s.evm svm) hpool

theorem placing_ok {a : Joint.Act d} (inv : Peered d s) (h : Joint.apply a s = .ok (s', out)) :
    apply (acting apart a) (placing (ofJoint d apart) s) =
      .ok (placing (ofJoint d apart) s', out.map (posting (ofJoint d apart))) := by
  cases a with
  | evm tx isLocal => exact runEvm_placing apart inv.peer h
  | svm ix isLocal => exact runSvm_placing apart inv.sound h
  | deliverEvm i lz value nonce =>
    simp only [Joint.apply, bind_eq_ok, okOr_eq_ok, require_eq_ok, exists_const] at h
    obtain ⟨p, here, dst, h⟩ := h
    simp only [apply, acting, bind_eq_ok, okOr_eq_ok, require_eq_ok, exists_const, placing,
      List.getElem?_map, here, Option.map_some, Option.some.injEq, exists_eq_left',
      posting_reaches, dst, true_and, List.eraseIdx_map, delivery_posting apart dst]
    exact runEvm_placing apart inv.peer h
  | deliverSvm i oapp accounts nonce extraData =>
    simp only [Joint.apply, bind_eq_ok, okOr_eq_ok, require_eq_ok, exists_const] at h
    obtain ⟨p, here, dst, h⟩ := h
    simp only [apply, acting, bind_eq_ok, okOr_eq_ok, require_eq_ok, exists_const, placing,
      List.getElem?_map, here, Option.map_some, Option.some.injEq, exists_eq_left',
      posting_reaches, dst, true_and, List.eraseIdx_map, receipt_posting apart dst]
    exact runSvm_placing apart inv.sound h

theorem joint_of_runEvm {tx : Evm.Tx d.evm} {pool : List Packet} {jointPool : List Joint.Packet}
    {r : State × List Packet}
    (h : runEvm (d := ofJoint d apart) tx pool (placing (ofJoint d apart) s) = .ok r) :
    ∃ q, Joint.runEvm tx jointPool s = .ok q := by
  obtain ⟨evm, sent, applied, -, -⟩ := runEvm_eq_ok.mp h
  exact ⟨_, Joint.runEvm_eq_ok.mpr ⟨evm, sent, applied, rfl, rfl⟩⟩

theorem joint_of_runSvm {ix : Svm.Ix} {pool : List Packet} {jointPool : List Joint.Packet}
    {r : State × List Packet}
    (h : runSvm (ofJoint d apart) ix pool (placing (ofJoint d apart) s) = .ok r) :
    ∃ q, Joint.runSvm d ix jointPool s = .ok q := by
  obtain ⟨svm, sent, applied, -, -⟩ := runSvm_eq_ok.mp h
  exact ⟨_, Joint.runSvm_eq_ok.mpr ⟨svm, sent, applied, rfl, rfl⟩⟩

theorem joint_of_placing {a : Joint.Act d} {r : State × List Packet}
    (h : apply (acting apart a) (placing (ofJoint d apart) s) = .ok r) :
    ∃ q, Joint.apply a s = .ok q := by
  cases a with
  | evm tx isLocal => exact joint_of_runEvm apart h
  | svm ix isLocal => exact joint_of_runSvm apart h
  | deliverEvm i lz value nonce =>
    simp only [apply, acting, bind_eq_ok, okOr_eq_ok, require_eq_ok, exists_const, placing,
      List.getElem?_map, Option.map_eq_some_iff] at h
    obtain ⟨_, ⟨p, here, rfl⟩, reaches, h⟩ := h
    have dst := (posting_reaches apart p .evm).mp reaches
    have happly : Joint.apply (d := d) (.deliverEvm i lz value nonce) s =
        Joint.runEvm (d.delivery p lz value nonce) (s.inFlight.eraseIdx i) s := by
      simp only [Joint.apply, here, okOr_some_bind, dst, require]
      rfl
    rw [delivery_posting apart dst] at h
    rw [happly]
    exact joint_of_runEvm apart h
  | deliverSvm i oapp accounts nonce extraData =>
    simp only [apply, acting, bind_eq_ok, okOr_eq_ok, require_eq_ok, exists_const, placing,
      List.getElem?_map, Option.map_eq_some_iff] at h
    obtain ⟨_, ⟨p, here, rfl⟩, reaches, h⟩ := h
    have dst := (posting_reaches apart p .svm).mp reaches
    have happly : Joint.apply (d := d) (.deliverSvm i oapp accounts nonce extraData) s =
        Joint.runSvm d (d.receipt p oapp accounts nonce extraData) (s.inFlight.eraseIdx i) s := by
      simp only [Joint.apply, here, okOr_some_bind, dst, require]
      rfl
    rw [receipt_posting apart dst] at h
    rw [happly]
    exact joint_of_runSvm apart h

theorem peered_step {c : Commit Joint.State (Joint.Act d) Joint.Packet}
    (hc : (Joint.machine d).Commits c) (inv : Peered d c.before) : Peered d c.after := by
  refine ⟨Joint.sound_effect inv.sound (Joint.commits_effect hc), ?_⟩
  obtain ⟨s, a, s', out⟩ := c
  have h : Joint.apply a s = .ok (s', out) := hc
  have peer : s.evm.peers d.evm.peerEid = d.svmAddress := inv.peer
  cases a with
  | evm tx isLocal =>
    obtain ⟨evm, sent, applied, rfl, rfl⟩ := Joint.runEvm_eq_ok.mp h
    dsimp only
    rw [Evm.peers_after applied]
    cases tx with
    | setPeer => cases isLocal
    | _ => exact peer
  | svm ix isLocal =>
    obtain ⟨svm, sent, applied, rfl, rfl⟩ := Joint.runSvm_eq_ok.mp h
    exact peer
  | deliverEvm i lz value nonce =>
    simp only [Joint.apply, bind_eq_ok, okOr_eq_ok, require_eq_ok, exists_const] at h
    obtain ⟨p, here, dst, h⟩ := h
    obtain ⟨evm, sent, applied, rfl, rfl⟩ := Joint.runEvm_eq_ok.mp h
    dsimp only
    rw [Evm.peers_after applied]
    exact peer
  | deliverSvm i oapp accounts nonce extraData =>
    simp only [Joint.apply, bind_eq_ok, okOr_eq_ok, require_eq_ok, exists_const] at h
    obtain ⟨p, here, dst, h⟩ := h
    obtain ⟨svm, sent, applied, rfl, rfl⟩ := Joint.runSvm_eq_ok.mp h
    exact peer

def embedding : (Joint.machine d).Embeds (machine (ofJoint d apart)) where
  state := placing (ofJoint d apart)
  move := acting apart
  item := posting (ofJoint d apart)
  Inv := Peered d
  preserved _ hc inv := peered_step hc inv
  ok _ hc inv := placing_ok apart inv hc
  error a s e _ he := by
    cases hw : apply (acting apart a) (placing (ofJoint d apart) s) with
    | error f => exact ⟨f, hw⟩
    | ok r =>
      obtain ⟨q, hq⟩ := joint_of_placing apart hw
      cases he.symm.trans hq

-- the three transactions after which the runs of the joint system begin
def setup : List (Act (ofJoint d apart)) :=
  [.evm (.setPeer d.owner d.evm.peerEid d.svmAddress) (foreign_of_none rfl),
    .svm (.initStore ⟨d.admin, d.endpoint, d.evmEid⟩) (foreign_of_none rfl),
    .svm (.setPeerConfig (Svm.obligingOapp 0) d.admin ⟨d.evmEid, .peerAddress d.evmAddress⟩)
      (foreign_of_none rfl)]

theorem run_setup :
    (machine (ofJoint d apart)).run (start d.owner d.balance) (setup apart) =
        placing (ofJoint d apart) (Joint.fresh d) ∧
      Machine.emitted ((machine (ofJoint d apart)).history (start d.owner d.balance) (setup apart)) =
        [] := by
  have hpool : (Joint.fresh d).inFlight = [] := rfl
  simp [setup, Machine.run, Machine.history, machine, apply, runEvm, runSvm, start, Evm.apply,
    Evm.setPeer, Evm.onlyOwner, Evm.deployed, require, Svm.apply, Svm.InitGame.apply,
    Svm.SetPeerConfig.apply, Svm.Ledger.empty, okOr, pure, Except.pure, bind, Except.bind,
    Except.mapError, placing, Machine.emitted, ofJoint, Svm.GameState.fresh, hpool]

theorem peered_fresh : Peered d (Joint.fresh d) where
  sound := Joint.sound_fresh d
  peer := by simp

theorem joint_runs_continue_setup (as : List (Joint.Act d)) :
    let w := ofJoint d apart
    let acts := setup apart ++ as.map (acting apart)
    (machine w).run (start d.owner d.balance) acts =
        placing w ((Joint.machine d).run (Joint.fresh d) as) ∧
      Machine.emitted ((machine w).history (start d.owner d.balance) acts) =
        (Machine.emitted ((Joint.machine d).history (Joint.fresh d) as)).map (posting w) := by
  intro w acts
  obtain ⟨hsetup, hsilent⟩ := run_setup apart
  obtain ⟨hrun, hhistory⟩ := (embedding apart).run_eq (peered_fresh (d := d)) as
  constructor
  · rw [Machine.run_append, hsetup]
    exact hrun
  · rw [Machine.history_append, Machine.emitted_append, hsilent, hsetup, List.nil_append]
    have hmap : Machine.emitted
        ((machine w).history (placing w (Joint.fresh d)) (as.map (acting apart))) =
        Machine.emitted (((Joint.machine d).history (Joint.fresh d) as).map
          (Commit.map (placing w) (acting apart) (posting w))) := congrArg Machine.emitted hhistory
    rw [hmap, Machine.emitted, Machine.emitted, List.flatMap_map, List.map_flatMap]
    rfl

end

theorem sample_apart : Joint.sampleDeployment.evmEid ≠ Joint.sampleDeployment.evm.peerEid := by decide

theorem servedRun_continues_setup :
    let d := Joint.sampleDeployment
    let w := ofJoint d sample_apart
    let as := [Joint.sampleServe 7 9, Joint.reachesSvm d]
    let acts := setup sample_apart ++ as.map (acting sample_apart)
    acts.length = 5 ∧
      (machine w).run (start d.owner d.balance) acts =
        placing w ((Joint.machine d).run (Joint.fresh d) as) := by
  intro d w as acts
  exact ⟨rfl, (joint_runs_continue_setup sample_apart as).1⟩

end CrossChainPingPong.World
