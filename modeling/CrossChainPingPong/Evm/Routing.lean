import CrossChainPingPong.Evm.Outcome

namespace CrossChainPingPong.Evm
open Guard

variable {I : Immutables} {lz : OApp} {s s' : Storage} {out : List Sent}

theorem lzSend_dst {message options : Bytes} {fee : MessagingFee} {refund : Address} {sent : Sent}
    (h : lzSend I lz message options fee refund s = .ok (s', sent)) : sent.dstEid = I.peerEid := by
  simp only [lzSend, bind_eq_ok, okOr_eq_ok, pure_eq_ok, Prod.mk.injEq] at h
  obtain ⟨receipt, -, -, rfl⟩ := h
  rfl

theorem sendBack_dst (h : sendBack I lz s = .ok (s', out)) : ∀ p ∈ out, p.dstEid = I.peerEid := by
  simp only [sendBack, sendBackWithValue, bind_eq_ok, revertIf_eq_ok, okOr_eq_ok, mapError_eq_ok,
    pure_eq_ok, Prod.mk.injEq, Prod.exists, exists_const] at h
  obtain ⟨-, -, -, fee, -, -, t, o, ⟨-, t', sent, hsend, rfl, rfl⟩, rfl, rfl⟩ := h
  exact List.forall_mem_singleton.mpr (lzSend_dst hsend)

theorem deliver_dst {guid : Bytes32} {v r : Uint256} (h : deliver I lz guid v r s = .ok (s', out)) :
    ∀ p ∈ out, p.dstEid = I.peerEid := by
  unfold deliver at h
  split at h
  · cases h
  · split at h
    · cases h
    · split at h
      · cases h
        nofun
      · exact sendBack_dst h

theorem apply_dst {tx : Tx I} (h : apply tx s = .ok (s', out)) : ∀ p ∈ out, p.dstEid = I.peerEid := by
  cases tx with
  | serve lz msg maxRallies options =>
    simp only [apply, serve, bind_eq_ok, pure_eq_ok, Prod.mk.injEq, Prod.exists] at h
    obtain ⟨t, m, o, -, u, sent, hsend, rfl, rfl⟩ := h
    exact List.forall_mem_singleton.mpr (lzSend_dst hsend)
  | lzReceive lz value origin guid message =>
    obtain ⟨-, ⟨-, -, rfl⟩ | ⟨-, v, r, -, hdeliver⟩⟩ := lzReceive_cases (lzReceive_of_apply h)
    · exact List.forall_mem_nil _
    · exact deliver_dst hdeliver
  | _ => cases apply_outcome h <;> exact List.forall_mem_nil _

theorem Outcome.peers_kept {tx : Tx I} (ho : Outcome s tx s' out) (main : tx.isAside = false) :
    s'.peers = s.peers := by
  cases ho with
  | serve | pauseGame | replay | finish | reply => rfl
  | aside aside => cases aside.symm.trans main

theorem peers_after {tx : Tx I} (h : apply tx s = .ok (s', out)) : s'.peers = tx.newPeers s.peers := by
  cases tx with
  | serve | lzReceive | pauseGame | sendBackWithValue => exact (apply_outcome h).peers_kept rfl
  | fund msg =>
    obtain ⟨rfl, -⟩ := fund_ok h
    rfl
  | receive msg =>
    cases (apply_receive s msg).symm.trans h
    rfl
  | fallback msg =>
    cases (apply_fallback s msg).symm.trans h
    rfl
  | withdraw sender recipient amount accepted =>
    obtain ⟨-, -, -, rfl⟩ := withdraw_ok h
    rfl
  | setPeer | setEnforcedOptions | setDelegate | transferOwnership | renounceOwnership =>
    obtain ⟨-, -, enforcedOptions, rfl⟩ := administers_ok rfl h
    rfl

end CrossChainPingPong.Evm
