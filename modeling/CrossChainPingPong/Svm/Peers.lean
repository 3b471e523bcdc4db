import CrossChainPingPong.Library.Past
import CrossChainPingPong.Svm.Invariant

namespace CrossChainPingPong.Svm

def Ix.setsAddress (eid : U32) : Ix → Option Bytes32
  | .setPeerConfig _ _ ⟨remoteEid, .peerAddress address⟩ =>
      if remoteEid = eid then some address else none
  | _ => none

def Ix.configures (eid : U32) : Ix → Bool
  | .setPeerConfig _ _ params => decide (params.remoteEid = eid)
  | _ => false

def lastAddress (eid : U32) (h : History) : Option Bytes32 :=
  (h.filterMap fun c => c.action.setsAddress eid).getLast?

-- the peer account appears with its first configuration of either kind, with address zero
def configured (eid : U32) (h : History) : Option Bytes32 :=
  if h.any fun c => c.action.configures eid then some ((lastAddress eid h).getD 0) else none

structure TalksToCurrent (pre : History) (c : Commit Ledger Ix Sent) : Prop where
  send : ∀ oapp accounts params, c.action = .sendBall oapp accounts params →
    ∃ sent, c.out = [sent] ∧ lastAddress params.dstEid (sinceInit pre) = some sent.params.receiver
  receive : ∀ oapp accounts params, c.action = .lzReceive oapp accounts params →
    lastAddress params.srcEid (sinceInit pre) = some params.sender

structure TalksToConfigured (pre : History) (c : Commit Ledger Ix Sent) : Prop where
  send : ∀ oapp accounts params, c.action = .sendBall oapp accounts params →
    ∃ sent, c.out = [sent] ∧ sent.params.dstEid = params.dstEid ∧
      configured params.dstEid pre = some sent.params.receiver
  receive : ∀ oapp accounts params, c.action = .lzReceive oapp accounts params →
    configured params.srcEid pre = some params.sender
  admin : ∀ oapp admin params, c.action = .setPeerConfig oapp admin params →
    ∃ g, c.before.game = some g ∧ g.admin = admin

variable {rt : Runtime} {eid : U32} {h : History} {c : Commit Ledger Ix Sent}

theorem lastAddress_concat :
    lastAddress eid (h ++ [c]) = (c.action.setsAddress eid).or (lastAddress eid h) := by
  cases hc : c.action.setsAddress eid <;> simp [lastAddress, hc]

theorem setsAddress_none (hc : c.action.configures eid = false) :
    c.action.setsAddress eid = none := by
  obtain ⟨l, ix, l', out⟩ := c
  cases ix with
  | setPeerConfig oapp admin params =>
    obtain ⟨remoteEid, config⟩ := params
    have hne : remoteEid ≠ eid := of_decide_eq_false hc
    cases config with
    | peerAddress address => exact if_neg hne
    | enforcedOptions send => rfl
  | _ => rfl

theorem configured_other (hc : c.action.configures eid = false) :
    configured eid (h ++ [c]) = configured eid h := by
  simp [configured, lastAddress_concat, setsAddress_none hc, hc]

theorem lastAddress_getD : (configured eid h).getD 0 = (lastAddress eid h).getD 0 := by
  unfold configured
  split
  · rfl
  · rename_i hnone
    rw [List.any_eq_true, not_exists] at hnone
    have hnil : h.filterMap (fun c => c.action.setsAddress eid) = [] := by
      refine List.filterMap_eq_nil_iff.mpr fun c hc => setsAddress_none ?_
      exact Bool.eq_false_of_not_eq_true fun hconf => hnone c ⟨hc, hconf⟩
    rw [lastAddress, hnil]
    rfl

theorem configured_self (hc : c.action.configures eid = true) : configured eid (h ++ [c]) =
    some ((c.action.setsAddress eid).getD ((configured eid h).getD 0)) := by
  rw [lastAddress_getD]
  cases ha : c.action.setsAddress eid <;> simp [configured, lastAddress_concat, hc, ha]

def PeersConfigured (h : History) (l : Ledger) : Prop :=
  ∀ eid, (l.peer eid).map PeerConfig.peerAddress = configured eid h

theorem peersConfigured_step (ih : PeersConfigured h c.before) (hc : (machine rt).Commits c) :
    PeersConfigured (h ++ [c]) c.after := by
  obtain ⟨l, ix, l', out⟩ := c
  have ho : Outcome rt l ix l' out := apply_outcome hc
  intro eid
  by_cases hconf : ix.configures eid = true
  · rw [configured_self hconf]
    cases ho with
    | @setPeerAddress oapp g remoteEid address peer game set =>
      obtain rfl : remoteEid = eid := of_decide_eq_true hconf
      simp [Ix.setsAddress, set]
    | @setEnforcedOptions oapp g remoteEid send peer game kept =>
      obtain rfl : remoteEid = eid := of_decide_eq_true hconf
      have hprev : (l.peer remoteEid).map PeerConfig.peerAddress = configured remoteEid h :=
        ih remoteEid
      simp [Ix.setsAddress, kept, hprev]
    | _ => cases hconf
  · have hother : ix.configures eid = false := Bool.eq_false_of_not_eq_true hconf
    rw [configured_other hother]
    refine Eq.trans ?_ (ih eid)
    cases ho with
    | setPeerAddress | setEnforcedOptions =>
      have hne : _ ≠ eid := of_decide_eq_false hother
      simp [Function.update_of_ne hne.symm]
    | _ => rfl

theorem peersConfigured_run (ixs : List Ix) : PeersConfigured
    ((machine rt).history Ledger.empty ixs) ((machine rt).run Ledger.empty ixs) :=
  (machine rt).run_induction (fun _ => rfl) (fun _ _ ih hc => peersConfigured_step ih hc) ixs

theorem configured_of_known {l : Ledger} {peer : PeerConfig} (hp : PeersConfigured h l)
    (known : l.peer eid = some peer) : configured eid h = some peer.peerAddress := by
  rw [← hp eid, known]
  rfl

theorem talksToConfigured_commit (hp : PeersConfigured h c.before) (hc : (machine rt).Commits c) :
    TalksToConfigured h c := by
  obtain ⟨l, ix, l', out⟩ := c
  have ho : Outcome rt l ix l' out := apply_outcome hc
  constructor
  · rintro oapp accounts params rfl
    cases ho with
    | @sendBall _ _ _ g peer sent game known running ball pos dst receiver payload =>
      exact ⟨sent, rfl, dst, receiver ▸ configured_of_known hp known⟩
  · rintro oapp accounts params rfl
    cases ho with
    | lzReceive game known sender => exact sender ▸ configured_of_known hp known
  · rintro oapp admin params rfl
    cases ho with
    | setPeerAddress game | setEnforcedOptions game => exact ⟨_, game, rfl⟩

theorem talks_to_last_configured (rt : Runtime) (ixs : List Ix) :
    Past.All TalksToConfigured ((machine rt).history Ledger.empty ixs) :=
  (machine rt).all_history peersConfigured_run fun _ _ => talksToConfigured_commit

theorem not_current_of_last {oapp : Oapp} {accounts : List LzAccount} {params : LzReceiveParams}
    (hne : h ≠ []) (received : (h.getLast hne).action = .lzReceive oapp accounts params)
    (unset : lastAddress params.srcEid (sinceInit h.dropLast) = none) :
    ¬ Past.All TalksToCurrent h := by
  intro hall
  have hlast := hall h.dropLast (h.getLast hne) [] (List.dropLast_concat_getLast hne).symm
  have hset := hlast.receive oapp accounts params received
  rw [unset] at hset
  cases hset

def inheritedPeerRun : List Ix :=
  sampleSetup ++ [.closeGame 3, .initStore ⟨7, 4, 40161⟩, sampleReceive 5 0]

def optionsOnlyRun : List Ix :=
  [.initStore ⟨3, 4, 40161⟩, .setPeerConfig (obligingOapp 0) 3 ⟨40161, .enforcedOptions [0, 3]⟩,
    .lzReceive (obligingOapp 0) [] ⟨40161, 0, 1, 8, PingPongMessage.encode ⟨5, 0⟩, []⟩]

theorem peer_not_chosen_by_current_admin :
    ¬ Past.All TalksToCurrent ((machine sampleRuntime).history Ledger.empty inheritedPeerRun) ∧
      ¬ Past.All TalksToCurrent ((machine sampleRuntime).history Ledger.empty optionsOnlyRun) := by
  have hinherited : (machine sampleRuntime).history Ledger.empty inheritedPeerRun ≠ [] := by
    intro hnil
    exact absurd (congrArg List.length hnil) (by decide +kernel)
  have hoptions : (machine sampleRuntime).history Ledger.empty optionsOnlyRun ≠ [] := by
    intro hnil
    exact absurd (congrArg List.length hnil) (by decide +kernel)
  constructor
  · exact not_current_of_last hinherited rfl (by decide +kernel)
  · exact not_current_of_last hoptions rfl (by decide +kernel)

end CrossChainPingPong.Svm
