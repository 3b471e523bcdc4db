import CrossChainPingPong.Evm.Announced
import CrossChainPingPong.World.Parts

namespace CrossChainPingPong

-- the ball as the receiving contract sees it: EVM counts a rally, Solana keeps its own count
def Evm.Tx.ball? {I : Evm.Immutables} : Evm.Tx I → Option (Uint256 × Uint256)
  | .lzReceive _ _ _ _ message => (abiDecode message).map fun m => (m.1, m.2 + 1)
  | _ => none

def Svm.Ix.ball? : Svm.Ix → Option PingPongMessage
  | .lzReceive _ _ params => (PingPongMessage.decode params.message).toOption
  | _ => none

namespace World

variable {d : Deployment}

theorem Packet.reaches_svm {p : Packet} (reaches : p.reaches d .svm = true) :
    p.reaches d .evm = false := by
  refine decide_eq_false fun hevm => ?_
  have hboth : d.address .evm = d.address .svm := hevm.symm.trans (of_decide_eq_true reaches)
  exact d.apart (congrArg Prod.fst hboth)

def Packet.returned (d : Deployment) (p : Packet) : Option (Uint256 × Uint256) :=
  if p.src = .svm ∧ p.reaches d .evm = true then
    (abiDecode p.message).map fun m => (m.1, m.2 + 1)
  else none

def Packet.served (d : Deployment) (p : Packet) : Option PingPongMessage :=
  if p.reaches d .svm = true then (PingPongMessage.decode p.message).toOption else none

def foreignEvm (c : Commit State (Act d) Packet) : Option (Uint256 × Uint256) :=
  match c.action with
  | .evm tx _ => tx.ball?
  | _ => none

def foreignSvm (c : Commit State (Act d) Packet) : Option PingPongMessage :=
  match c.action with
  | .svm ix _ => ix.ball?
  | _ => none

theorem split_evm (c : Commit State (Act d) Packet) (hc : (machine d).Commits c) :
    (evmMove c).bind Evm.Tx.ball? = ((taken c).bind (Packet.returned d)).or (foreignEvm c) := by
  obtain ⟨s, a, s', out⟩ := c
  have effect : Effect s a s' out := commits_effect hc
  cases effect with
  | evm => rfl
  | svm => rfl
  | @deliverEvm i lz value nonce p evm sent here reaches applied =>
    have hsrc := src_of_delivery (Evm.apply_outcome applied)
    simp only [evmMove, taken, here, Option.map_some, Option.bind_some, Packet.returned, hsrc,
      reaches, and_self, if_true, foreignEvm, Option.or_none]
    rfl
  | @deliverSvm i oapp accounts nonce extraData p svm sent here reaches applied =>
    simp [evmMove, taken, here, Packet.returned, Packet.reaches_svm reaches, foreignEvm]

theorem split_svm (c : Commit State (Act d) Packet) (hc : (machine d).Commits c) :
    (svmMove c).bind Svm.Ix.ball? = ((taken c).bind (Packet.served d)).or (foreignSvm c) := by
  obtain ⟨s, a, s', out⟩ := c
  have effect : Effect s a s' out := commits_effect hc
  cases effect with
  | evm => rfl
  | svm => rfl
  | @deliverEvm i lz value nonce p evm sent here reaches applied =>
    have hmiss : p.reaches d .svm = false := by
      by_contra hreaches
      have hevm := Packet.reaches_svm (Bool.eq_true_of_not_eq_false hreaches)
      rw [reaches] at hevm
      cases hevm
    simp [svmMove, taken, here, Packet.served, hmiss, foreignSvm]
  | @deliverSvm i oapp accounts nonce extraData p svm sent here reaches applied =>
    simp only [svmMove, taken, here, Option.map_some, Option.bind_some, Packet.served, reaches,
      if_true, foreignSvm, Option.or_none]
    rfl

theorem arrivals_sublist (h : Evm.History d.evm) :
    (Past.tally Evm.arrival h).Sublist ((h.map Commit.action).filterMap Evm.Tx.ball?) := by
  have hball (past : Evm.History d.evm) (c : Commit Evm.Storage (Evm.Tx d.evm) Evm.Sent) :
      (Evm.arrival past c).Sublist c.action.ball?.toList := by
    unfold Evm.arrival
    split
    case h_1 lz value origin guid message haction =>
      rw [haction]
      split
      · exact List.nil_sublist _
      · rw [Evm.Tx.ball?]
        cases abiDecode message <;> exact List.Sublist.refl _
    case h_2 => exact List.nil_sublist _
  have hflat : h.flatMap (fun c => c.action.ball?.toList) =
      (h.map Commit.action).filterMap Evm.Tx.ball? := by
    rw [List.filterMap_eq_flatMap_toList, List.flatMap_map]
  rw [← hflat]
  exact Past.tally_sublist hball h

theorem arrivals_le (d : Deployment) (owner : Evm.Address) (balance : Evm.Wei)
    (as : List (Act d)) :
    let h := (machine d).history (start owner balance) as
    let evm := (Evm.machine d.evm).history (Evm.deployed owner balance) (h.filterMap evmMove)
    (Past.tally Evm.arrival evm : Multiset (Uint256 × Uint256)) ≤
      (Machine.emitted h).filterMap (Packet.returned d) + h.filterMap foreignEvm := by
  intro h evm
  have hactions : evm.map Commit.action = h.filterMap evmMove :=
    ((evmPart d).run_eq (start owner balance) as).2.1
  have hsublist := arrivals_sublist evm
  rw [hactions, List.filterMap_filterMap] at hsublist
  refine (Multiset.coe_le.mpr hsublist.subperm).trans ?_
  exact Machine.brought_le State.inFlight taken pool_step rfl as _ _ _ split_evm

theorem services_le (d : Deployment) (owner : Evm.Address) (balance : Evm.Wei)
    (as : List (Act d)) :
    let h := (machine d).history (start owner balance) as
    ((h.filterMap svmMove).filterMap Svm.Ix.ball? : Multiset PingPongMessage) ≤
      (Machine.emitted h).filterMap (Packet.served d) + h.filterMap foreignSvm := by
  intro h
  rw [List.filterMap_filterMap]
  exact Machine.brought_le State.inFlight taken pool_step rfl as _ _ _ split_svm

theorem no_ball_forged (d : Deployment) (owner : Evm.Address) (balance : Evm.Wei)
    (as : List (Act d)) :
    let h := (machine d).history (start owner balance) as
    let evm := (Evm.machine d.evm).history (Evm.deployed owner balance) (h.filterMap evmMove)
    (Machine.emitted h : Multiset Packet) =
        h.filterMap taken + ((machine d).run (start owner balance) as).inFlight ∧
      (Past.tally Evm.arrival evm : Multiset (Uint256 × Uint256)) ≤
        (Machine.emitted h).filterMap (Packet.returned d) + h.filterMap foreignEvm ∧
      ((h.filterMap svmMove).filterMap Svm.Ix.ball? : Multiset PingPongMessage) ≤
        (Machine.emitted h).filterMap (Packet.served d) + h.filterMap foreignSvm :=
  ⟨sent_account owner balance as, arrivals_le d owner balance as, services_le d owner balance as⟩

end World
end CrossChainPingPong
