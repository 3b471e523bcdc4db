import CrossChainPingPong.Evm.Routing
import CrossChainPingPong.World.Mail

namespace CrossChainPingPong.World

variable {d : Deployment}

def KeepsPeers (c : Commit State (Act d) Packet) : Prop :=
  match c.action with
  | .evm (.setPeer _ eid peer) _ => eid = d.evm.peerEid → (eid, peer) = d.address .svm
  | .svm (.setPeerConfig _ _ ⟨eid, .peerAddress address⟩) _ => ∃ chain, (eid, address) = d.address chain
  | _ => True

-- the inherited lzReceive lets a delivery through if it comes from the peer and a peer is set; the
-- Solana program looks at the peer alone, and no endpoint delivers a message of the sender zero
def Checked (c : Commit State (Act d) Packet) : Prop :=
  match c.action with
  | .evm (.lzReceive _ _ origin _ _) _ =>
      c.before.evm.peers origin.srcEid = origin.sender ∧ origin.sender ≠ 0
  | .svm (.lzReceive _ _ params) _ => params.sender ≠ 0
  | _ => True

def EvmPaired (d : Deployment) (s : Evm.Storage) : Prop :=
  s.peers d.evm.peerEid ≠ 0 → (d.evm.peerEid, s.peers d.evm.peerEid) = d.address .svm

def SvmPaired (d : Deployment) (l : Svm.Ledger) : Prop :=
  ∀ eid p, l.peer eid = some p → p.peerAddress ≠ 0 → ∃ chain, (eid, p.peerAddress) = d.address chain

theorem evmPaired_start (d : Deployment) (owner : Evm.Address) (balance : Evm.Wei) :
    EvmPaired d (Evm.deployed owner balance) := fun hne => absurd rfl hne

theorem svmPaired_empty (d : Deployment) : SvmPaired d Svm.Ledger.empty := by
  intro eid p hp
  cases hp

theorem evmPaired_apply {tx : Evm.Tx d.evm} {s s' : Evm.Storage} {sent : List Evm.Sent}
    (hp : EvmPaired d s) (applied : Evm.apply tx s = .ok (s', sent))
    (keeps : ∀ sender peer, tx = .setPeer sender d.evm.peerEid peer →
      (d.evm.peerEid, peer) = d.address .svm) : EvmPaired d s' := by
  unfold EvmPaired
  rw [Evm.peers_after applied]
  cases tx with
  | setPeer sender eid peer =>
    rw [Evm.Tx.newPeers]
    by_cases heid : eid = d.evm.peerEid
    · subst heid
      rw [Function.update_self]
      exact fun _ => keeps sender peer rfl
    · rw [Function.update_of_ne (Ne.symm heid)]
      exact hp
  | _ => exact hp

theorem svmPaired_update {l : Svm.Ledger} {eid : Svm.U32} {peer : Svm.PeerConfig}
    (hp : SvmPaired d l)
    (hpeer : peer.peerAddress ≠ 0 → ∃ chain, (eid, peer.peerAddress) = d.address chain) :
    SvmPaired d { l with peer := Function.update l.peer eid (some peer) } := by
  intro e p hfound hne
  by_cases heid : e = eid
  · subst heid
    have hself : some peer = some p := (Function.update_self e (some peer) l.peer).symm.trans hfound
    obtain rfl := Option.some.inj hself
    exact hpeer hne
  · exact hp e p ((Function.update_of_ne heid (some peer) l.peer).symm.trans hfound) hne

theorem svmPaired_outcome {ix : Svm.Ix} {l l' : Svm.Ledger} {sent : List Svm.Sent}
    (hp : SvmPaired d l) (ho : Svm.Outcome d.rt l ix l' sent)
    (keeps : ∀ oapp admin eid address, ix = .setPeerConfig oapp admin ⟨eid, .peerAddress address⟩ →
      ∃ chain, (eid, address) = d.address chain) : SvmPaired d l' := by
  cases ho with
  | initStore | pauseGame | resumeGame | closeGame | sendBall | lzReceive => exact hp
  | setPeerAddress game set =>
    obtain rfl := set
    exact svmPaired_update hp fun _ => keeps _ _ _ _ rfl
  | @setEnforcedOptions oapp g eid send peer game kept =>
    refine svmPaired_update hp fun hne => ?_
    cases hold : l.peer eid with
    | none =>
      rw [hold] at kept
      exact absurd kept hne
    | some q =>
      rw [hold] at kept
      have hsame : peer.peerAddress = q.peerAddress := kept
      rw [hsame] at hne ⊢
      exact hp eid q hold hne

theorem paired_step {c : Commit State (Act d) Packet}
    (hp : EvmPaired d c.before.evm ∧ SvmPaired d c.before.svm) (hc : (machine d).Commits c)
    (keeps : KeepsPeers c) : EvmPaired d c.after.evm ∧ SvmPaired d c.after.svm := by
  obtain ⟨s, a, s', out⟩ := c
  obtain ⟨hevm, hsvm⟩ := hp
  have effect : Effect s a s' out := commits_effect hc
  cases effect with
  | evm applied =>
    refine ⟨evmPaired_apply hevm applied ?_, hsvm⟩
    rintro sender peer rfl
    exact keeps rfl
  | deliverEvm here reaches applied =>
    refine ⟨evmPaired_apply hevm applied ?_, hsvm⟩
    rintro sender peer ⟨⟩
  | svm applied =>
    refine ⟨hevm, svmPaired_outcome hsvm (Svm.apply_outcome applied) ?_⟩
    rintro oapp admin eid address rfl
    exact keeps
  | deliverSvm here reaches applied =>
    refine ⟨hevm, svmPaired_outcome hsvm (Svm.apply_outcome applied) ?_⟩
    rintro oapp admin eid address ⟨⟩

theorem no_stranger {c : Commit State (Act d) Packet} (hevm : EvmPaired d c.before.evm)
    (hsvm : SvmPaired d c.before.svm) (hc : (machine d).Commits c) (checked : Checked c) :
    foreignEvm c = none ∧ foreignSvm c = none := by
  obtain ⟨s, a, s', out⟩ := c
  have effect : Effect s a s' out := commits_effect hc
  cases effect with
  | deliverEvm | deliverSvm => exact ⟨rfl, rfl⟩
  | @evm tx foreign evm sent applied =>
    refine ⟨?_, rfl⟩
    cases tx with
    | lzReceive lz value origin guid message =>
      have hchecked : s.evm.peers origin.srcEid = origin.sender ∧ origin.sender ≠ 0 := checked
      obtain ⟨hpeer, hne⟩ := hchecked
      have heid : origin.srcEid = d.evm.peerEid :=
        (Evm.lzReceive_cases (Evm.lzReceive_of_apply applied)).1
      rw [heid] at hpeer
      have hpaired : (d.evm.peerEid, s.evm.peers d.evm.peerEid) = d.address .svm :=
        hevm (hpeer ▸ hne)
      refine absurd ?_ (foreign .svm)
      rw [Evm.Tx.origin?, heid, ← hpeer, hpaired]
    | _ => rfl
  | @svm ix foreign svm sent applied =>
    refine ⟨rfl, ?_⟩
    cases ix with
    | lzReceive oapp accounts params =>
      cases Svm.apply_outcome applied with
      | lzReceive game known sender =>
        have hne : params.sender ≠ 0 := checked
        rw [sender] at hne
        obtain ⟨chain, haddress⟩ := hsvm _ _ known hne
        refine absurd ?_ (foreign chain)
        rw [Svm.Ix.origin?, sender, haddress]
    | _ => rfl

theorem strangers_stay_out (d : Deployment) (owner : Evm.Address) (balance : Evm.Wei)
    (as : List (Act d))
    (keeps : ∀ c ∈ (machine d).history (start owner balance) as, KeepsPeers c)
    (checked : ∀ c ∈ (machine d).history (start owner balance) as, Checked c) :
    let h := (machine d).history (start owner balance) as
    let evm := (Evm.machine d.evm).history (Evm.deployed owner balance) (h.filterMap evmMove)
    (Past.tally Evm.arrival evm : Multiset (Uint256 × Uint256)) ≤
        (Machine.emitted h).filterMap (Packet.returned d) ∧
      ((h.filterMap svmMove).filterMap Svm.Ix.ball? : Multiset PingPongMessage) ≤
        (Machine.emitted h).filterMap (Packet.served d) := by
  intro h evm
  have hpaired := ((machine d).trace (start owner balance) as).rule
    (P := fun h s => (EvmPaired d s.evm ∧ SvmPaired d s.svm) ∧
      ∀ c ∈ h, foreignEvm c = none ∧ foreignSvm c = none)
    (Q := fun c => KeepsPeers c ∧ Checked c) ?_ ?_ fun c hc => ⟨keeps c hc, checked c hc⟩
  · obtain ⟨-, hforeign⟩ := hpaired
    have hevm : h.filterMap foreignEvm = [] :=
      List.filterMap_eq_nil_iff.mpr fun c hc => (hforeign c hc).1
    have hsvm : h.filterMap foreignSvm = [] :=
      List.filterMap_eq_nil_iff.mpr fun c hc => (hforeign c hc).2
    have hreturned := arrivals_le d owner balance as
    have hserved := services_le d owner balance as
    dsimp only at hreturned hserved
    rw [hevm, Multiset.coe_nil, add_zero] at hreturned
    rw [hsvm, Multiset.coe_nil, add_zero] at hserved
    exact ⟨hreturned, hserved⟩
  · exact ⟨⟨evmPaired_start d owner balance, svmPaired_empty d⟩, fun c hc => absurd hc List.not_mem_nil⟩
  · rintro h c ⟨⟨hevm, hsvm⟩, hforeign⟩ hc ⟨hkeeps, hchecked⟩
    refine ⟨paired_step ⟨hevm, hsvm⟩ hc hkeeps, ?_⟩
    intro e he
    rcases List.mem_append.mp he with he | he
    · exact hforeign e he
    · obtain rfl := List.mem_singleton.mp he
      exact no_stranger hevm hsvm hc hchecked

theorem sampleGame_received :
    let d := sampleDeployment
    let h := (machine d).history (start 11 0) sampleGame
    let evm := (Evm.machine d.evm).history (Evm.deployed 11 0) (h.filterMap evmMove)
    Past.tally Evm.arrival evm = [(6, 2)] ∧
      (Past.tally Evm.arrival evm : Multiset (Uint256 × Uint256)) ≤
        (Machine.emitted h).filterMap (Packet.returned d) := by
  intro d h evm
  have keeps : ∀ c ∈ h, KeepsPeers c := by
    rintro ⟨s, a, s', out⟩ hc
    have ha : a ∈ sampleGame := (machine d).action_of_mem hc
    simp only [sampleGame, List.mem_cons, List.not_mem_nil, or_false] at ha
    rcases ha with rfl | rfl | rfl | rfl | rfl | rfl | rfl
    · exact fun _ => rfl
    · trivial
    · exact ⟨.evm, rfl⟩
    all_goals trivial
  have checked : ∀ c ∈ h, Checked c := by
    rintro ⟨s, a, s', out⟩ hc
    have ha : a ∈ sampleGame := (machine d).action_of_mem hc
    simp only [sampleGame, List.mem_cons, List.not_mem_nil, or_false] at ha
    rcases ha with rfl | rfl | rfl | rfl | rfl | rfl | rfl <;> trivial
  exact ⟨by decide +kernel, (strangers_stay_out d 11 0 sampleGame keeps checked).1⟩

end CrossChainPingPong.World
