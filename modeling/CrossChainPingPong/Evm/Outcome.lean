import CrossChainPingPong.Evm.Contract

namespace CrossChainPingPong.Evm
open Guard

-- only the contract itself can be its own caller, so no transaction has it as sender
structure Msg (I : Immutables) where
  sender : Address
  value : Wei
  external : sender ≠ I.self

inductive Tx (I : Immutables) where
  | serve (lz : OApp) (msg : Msg I) (maxRallies : Uint256) (options : Bytes)
  | fund (msg : Msg I)
  | receive (msg : Msg I)
  | fallback (msg : Msg I)
  | pauseGame (sender : Address)
  | sendBackWithValue (lz : OApp) (msg : Msg I) (message options : Bytes)
  | setPeer (sender : Address) (eid : Uint32) (peer : Bytes32)
  | setEnforcedOptions (sender : Address) (result : Option (Uint32 → Uint16 → Bytes))
  | setDelegate (sender delegate : Address) (accepts : Address → Bool)
  | transferOwnership (sender newOwner : Address)
  | renounceOwnership (sender : Address)
  | withdraw (sender recipient : Address) (amount : Wei) (accepted : Bool)
  | lzReceive (lz : OApp) (value : Wei) (origin : Origin) (guid : Bytes32) (message : Bytes)

variable {I : Immutables}

def apply : Tx I → Storage → Except Revert (Storage × List Sent)
  | .serve lz msg maxRallies options, s => serve I lz msg.sender msg.value maxRallies options s
  | .fund msg, s => fund I msg.sender msg.value s
  | .receive msg, s => pure (s.credit I msg.sender msg.value, [])
  | .fallback msg, s => pure (s.credit I msg.sender msg.value, [])
  | .pauseGame sender, s => pauseGame sender s
  | .sendBackWithValue lz msg message options, s =>
      sendBackWithValue I lz msg.sender msg.value message options s
  | .setPeer sender eid peer, s => setPeer sender eid peer s
  | .setEnforcedOptions sender result, s => setEnforcedOptions sender result s
  | .setDelegate sender delegate accepts, s => setDelegate sender delegate accepts s
  | .transferOwnership sender newOwner, s => transferOwnership sender newOwner s
  | .renounceOwnership sender, s => renounceOwnership sender s
  | .withdraw sender recipient amount accepted, s => withdraw I sender recipient amount accepted s
  | .lzReceive lz value origin guid message, s => do
      revertIf (lz.admits = false) .oapp
      lzReceive I lz origin guid message { s with balance := s.balance + value }

def machine (I : Immutables) : Machine Storage (Tx I) Revert Sent := ⟨apply⟩

@[simp] theorem machine_apply (tx : Tx I) (s : Storage) : (machine I).apply tx s = apply tx s := rfl

def deployed (owner : Address) (balance : Wei) : Storage where
  owner
  peers := fun _ => 0
  enforcedOptions := fun _ _ => []
  ballValue := 0
  rallyCount := 0
  gameState := { maxRallies := 0, hasBall := false, gameActive := false }
  processedGuid := fun _ => false
  balance

namespace Tx

def sender : Tx I → Option Address
  | .serve _ msg _ _ | .fund msg | .receive msg | .fallback msg => some msg.sender
  | .sendBackWithValue _ msg _ _ => some msg.sender
  | .pauseGame sender | .setPeer sender _ _ | .setEnforcedOptions sender _ | .setDelegate sender _ _
  | .transferOwnership sender _ | .renounceOwnership sender | .withdraw sender _ _ _ => some sender
  | .lzReceive .. => none

def newOwner : Tx I → Option Address
  | .transferOwnership _ newOwner => some newOwner
  | .renounceOwnership _ => some 0
  | _ => none

def newPeers : Tx I → (Uint32 → Bytes32) → Uint32 → Bytes32
  | .setPeer _ eid peer, peers => Function.update peers eid peer
  | _, peers => peers

def administers : Tx I → Bool
  | .setPeer .. | .setEnforcedOptions .. | .setDelegate .. | .transferOwnership .. => true
  | .renounceOwnership _ => true
  | _ => false

def isAside : Tx I → Bool
  | .fund _ | .receive _ | .fallback _ | .withdraw .. => true
  | tx => tx.administers

end Tx

namespace Storage

def cap (s : Storage) : Uint128 :=
  if s.gameState.gameActive = true then s.gameState.maxRallies else maxRalliesCap.setWidth 128

def received (s : Storage) (guid : Bytes32) (ballValue rallyCount : Uint256) (gameState : GameState)
    (balance : Wei) : Storage :=
  { s with
    ballValue
    rallyCount
    gameState
    balance
    processedGuid := Function.update s.processedGuid guid true }

theorem cap_of_idle {s : Storage} (idle : s.gameState.gameActive = false) :
    s.cap = maxRalliesCap.setWidth 128 := by
  simp [cap, idle]

theorem cap_of_active {s : Storage} (active : s.gameState.gameActive = true) :
    s.cap = s.gameState.maxRallies := by
  simp [cap, active]

end Storage

def obligingOApp (guid : Bytes32) (fee : Wei) : OApp where
  admits := true
  combineOptions _ _ options := some options
  quote _ _ _ _ := some ⟨fee, 0⟩
  lzSend _ _ _ _ _ := some ⟨guid, 1, ⟨fee, 0⟩⟩

def sampleImmutables : Immutables := ⟨1, 40168⟩

def samplePlayer : Msg sampleImmutables := ⟨2, 5, by decide⟩

def sampleServe (maxRallies : Uint256) : Tx sampleImmutables :=
  .serve (obligingOApp 7 5) samplePlayer maxRallies []

def sampleDelivery (guid : Bytes32) (v r : Uint256) : Tx sampleImmutables :=
  .lzReceive (obligingOApp 7 0) 0 ⟨40168, 9, 1⟩ guid (abiEncode v r)

inductive Outcome (s : Storage) : Tx I → Storage → List Sent → Prop
  | serve {lz msg maxRallies options sent} (idle : s.gameState.gameActive = false)
      (pos : 0 < maxRallies.toNat) (le : maxRallies.toNat ≤ 100)
      (payload : sent.message = encodeMessage initialBallValue 0) :
      Outcome s (.serve lz msg maxRallies options)
        { s with
          ballValue := initialBallValue
          rallyCount := 0
          gameState := ⟨maxRallies.setWidth 128, false, true⟩ } [sent]
  | pauseGame {sender} (owner : sender = s.owner) (active : s.gameState.gameActive = true) :
      Outcome s (.pauseGame sender) (s.setGameActive false) []
  | aside {tx peers enforcedOptions balance} (h : tx.isAside = true)
      (authorised : tx.newOwner ≠ none → tx.sender = some s.owner) :
      Outcome s tx
        { s with
          owner := tx.newOwner.getD s.owner
          peers
          enforcedOptions
          balance } []
  | replay {lz value origin guid message balance} (peer : origin.srcEid = I.peerEid)
      (done : s.processedGuid guid = true) :
      Outcome s (.lzReceive lz value origin guid message) { s with balance } []
  | finish {lz value origin guid message v r count balance} (peer : origin.srcEid = I.peerEid)
      (fresh : s.processedGuid guid = false) (free : s.gameState.hasBall = false)
      (decoded : abiDecode message = some (v, r)) (next : count.toNat = r.toNat + 1)
      (last : v = 0 ∨ s.cap.toNat ≤ count.toNat) :
      Outcome s (.lzReceive lz value origin guid message)
        (s.received guid v count ⟨s.cap, true, false⟩ balance) []
  | reply {lz value origin guid message v r count balance sent} (peer : origin.srcEid = I.peerEid)
      (fresh : s.processedGuid guid = false) (free : s.gameState.hasBall = false)
      (decoded : abiDecode message = some (v, r)) (next : count.toNat = r.toNat + 1)
      (pos : v ≠ 0) (lt : count.toNat < s.cap.toNat)
      (payload : sent.message = encodeMessage (v - 1) count) :
      Outcome s (.lzReceive lz value origin guid message)
        (s.received guid (v - 1) count ⟨s.cap, false, true⟩ balance) [sent]

variable {lz : OApp} {s s' : Storage} {out : List Sent}

theorem Outcome.sends_stored {tx : Tx I} (ho : Outcome s tx s' out) :
    ∀ p ∈ out, p.message = encodeMessage s'.ballValue s'.rallyCount := by
  intro p hp
  cases ho with
  | serve idle pos le payload | reply peer fresh free decoded next pos lt payload =>
    obtain rfl := List.mem_singleton.mp hp
    exact payload
  | pauseGame | aside | replay | finish => cases hp

theorem Outcome.owner_after {tx : Tx I} (ho : Outcome s tx s' out) :
    s'.owner = tx.newOwner.getD s.owner := by
  cases ho <;> rfl

theorem Outcome.owner_kept {tx : Tx I} (ho : Outcome s tx s' out)
    (stranger : tx.sender ≠ some s.owner) : s'.owner = s.owner := by
  cases ho with
  | aside aside authorised =>
    have hsame : tx.newOwner = none := by_contra fun hnew => stranger (authorised hnew)
    rw [hsame, Option.getD_none]
  | serve | pauseGame | replay | finish | reply => rfl

theorem lzSend_message {message options : Bytes} {fee : MessagingFee} {refund : Address} {sent : Sent}
    (h : lzSend I lz message options fee refund s = .ok (s', sent)) :
    sent.message = message ∧ ∃ balance, s' = { s with balance } := by
  simp only [lzSend, bind_eq_ok, okOr_eq_ok, pure_eq_ok, Prod.mk.injEq] at h
  obtain ⟨receipt, -, rfl, rfl⟩ := h
  exact ⟨rfl, _, rfl⟩

theorem lzSend_refunded {message options : Bytes} {value : Wei} {sender : Address} {sent : Sent}
    (external : sender ≠ I.self) (h : lzSend I lz message options ⟨value, 0⟩ sender s = .ok (s', sent)) :
    s' = { s with balance := s.balance - value } := by
  simp only [lzSend, bind_eq_ok, okOr_eq_ok, pure_eq_ok, Prod.mk.injEq, if_neg external] at h
  obtain ⟨receipt, -, rfl, rfl⟩ := h
  rfl

theorem sendBackWithValue_external {sender : Address} {value : Wei} {message options : Bytes}
    (external : sender ≠ I.self) :
    sendBackWithValue I lz sender value message options s = .error .onlySelfCall := by
  simp [sendBackWithValue, revertIf, external, bind, Except.bind]

theorem sendBack_outcome (h : sendBack I lz s = .ok (s', out)) :
    s.rallyCount.toNat < s.gameState.maxRallies.toNat ∧ ∃ sent balance,
      sent.message = encodeMessage s.ballValue s.rallyCount ∧
      s' = { s.setHasBall false with balance } ∧ out = [sent] := by
  simp only [sendBack, sendBackWithValue, bind_eq_ok, revertIf_eq_ok, okOr_eq_ok, mapError_eq_ok,
    pure_eq_ok, Prod.mk.injEq, Prod.exists, exists_const] at h
  obtain ⟨-, -, hcap, fee, -, -, t, o, ⟨-, t', sent, hsend, rfl, rfl⟩, rfl, rfl⟩ := h
  obtain ⟨hm, b, rfl⟩ := lzSend_message hsend
  refine ⟨?_, sent, b, hm, rfl, rfl⟩
  rw [BitVec.le_def, BitVec.toNat_setWidth_of_le (by decide)] at hcap
  omega

theorem serve_outcome {msg : Msg I} {maxRallies : Uint256} {options : Bytes}
    (h : serve I lz msg.sender msg.value maxRallies options s = .ok (s', out)) :
    Outcome s (.serve lz msg maxRallies options) s' out := by
  simp only [serve, serveOpen, bind_eq_ok, revertIf_eq_ok, okOr_eq_ok, pure_eq_ok, Prod.mk.injEq,
    Prod.exists, exists_const] at h
  obtain ⟨t, m, o, ⟨hidle, hbound, _, -, fee, -, -, rfl, rfl, rfl⟩, u, sent, hsend, rfl, rfl⟩ := h
  obtain ⟨hmsg, -⟩ := lzSend_message hsend
  obtain rfl := lzSend_refunded msg.external hsend
  have hcap : maxRallies ≠ 0 ∧ maxRallies.toNat ≤ 100 := by
    rw [not_or, BitVec.lt_def] at hbound
    exact ⟨hbound.1, Nat.not_lt.mp hbound.2⟩
  have hpos : 0 < maxRallies.toNat := Nat.pos_of_ne_zero (BitVec.toNat_ne.mp hcap.1)
  have hbalance : s.balance + msg.value - msg.value = s.balance := Nat.add_sub_cancel _ _
  simp only [Storage.credit, Storage.setHasBall, if_neg msg.external, hbalance]
  exact .serve (Bool.eq_false_of_not_eq_true hidle) hpos hcap.2 hmsg

def deliver (I : Immutables) (lz : OApp) (guid : Bytes32) (v r : Uint256) (s : Storage) :
    Except Revert (Storage × List Sent) :=
  if s.gameState.hasBall = true then .error .alreadyHasBall
  else match checkedAdd r 1 with
    | none => .error .arithmeticPanic
    | some count =>
      if v = 0 ∨ s.cap.toNat ≤ count.toNat then
        .ok (s.received guid v count ⟨s.cap, true, false⟩ s.balance, [])
      else sendBack I lz (s.received guid (v - 1) count ⟨s.cap, true, true⟩ s.balance)

theorem settle_eq {guid : Bytes32} {v count limit : Uint256} (hl : limit.toNat = s.cap.toNat) :
    (let t := s.received guid v count ⟨s.cap, true, true⟩ s.balance
      if t.ballValue = 0 then pure (t.setGameActive false, [])
      else if limit ≤ t.rallyCount then pure (t.setGameActive false, [])
      else sendBack I lz { t with ballValue := t.ballValue - 1 }) =
    if v = 0 ∨ s.cap.toNat ≤ count.toNat then
      .ok (s.received guid v count ⟨s.cap, true, false⟩ s.balance, [])
    else sendBack I lz (s.received guid (v - 1) count ⟨s.cap, true, true⟩ s.balance) := by
  have hle : limit ≤ count ↔ s.cap.toNat ≤ count.toNat := by rw [BitVec.le_def, hl]
  by_cases hz : v = 0
  · exact (if_pos hz).trans (if_pos (.inl hz)).symm
  · by_cases hc : s.cap.toNat ≤ count.toNat
    · exact ((if_neg hz).trans (if_pos (hle.mpr hc))).trans (if_pos (.inr hc)).symm
    · have hneither : ¬ (v = 0 ∨ s.cap.toNat ≤ count.toNat) := not_or_intro hz hc
      exact ((if_neg hz).trans (if_neg (mt hle.mp hc))).trans (if_neg hneither).symm

section
variable {origin : Origin} {guid : Bytes32} {message : Bytes} {v r : Uint256} {value : Wei}

theorem lzReceive_eq (peer : origin.srcEid = I.peerEid) (fresh : s.processedGuid guid = false)
    (decoded : abiDecode message = some (v, r)) :
    lzReceive I lz origin guid message s = deliver I lz guid v r s := by
  simp only [lzReceive, revertIf_bind, peer, ne_eq, not_true, Bool.false_eq_true, if_false, fresh,
    decoded, okOr_some_bind, deliver]
  by_cases hact : s.gameState.gameActive = false
  · have hcap : maxRalliesCap.setWidth 128 = s.cap := (Storage.cap_of_idle hact).symm
    have hl : maxRalliesCap.toNat = s.cap.toNat := by rw [← hcap]; rfl
    rw [if_pos hact]
    by_cases hball : s.gameState.hasBall = true
    · rw [if_pos hball, if_pos hball]
    · rw [if_neg hball, if_neg hball]
      simp only [initializeGameFromPeer, hcap]
      cases checkedAdd r 1 with
      | none => rfl
      | some count => exact settle_eq hl
  · have hactive : s.gameState.gameActive = true := Bool.eq_true_of_not_eq_false hact
    have hcap : s.gameState.maxRallies = s.cap := (Storage.cap_of_active hactive).symm
    have hl : (s.cap.setWidth 256).toNat = s.cap.toNat := BitVec.toNat_setWidth_of_le (by decide)
    rw [if_neg hact]
    by_cases hball : s.gameState.hasBall = true
    · rw [if_pos hball, if_pos hball]
    · rw [if_neg hball, if_neg hball]
      simp only [hcap, hactive]
      cases checkedAdd r 1 with
      | none => rfl
      | some count => exact settle_eq hl

theorem lzReceive_cases (h : lzReceive I lz origin guid message s = .ok (s', out)) :
    origin.srcEid = I.peerEid ∧ (s.processedGuid guid = true ∧ s' = s ∧ out = [] ∨
      s.processedGuid guid = false ∧ ∃ v r, abiDecode message = some (v, r) ∧
        deliver I lz guid v r s = .ok (s', out)) := by
  have hpeer : origin.srcEid = I.peerEid := by
    simp only [lzReceive, bind_eq_ok, revertIf_eq_ok, exists_const, not_not] at h
    exact h.1
  refine ⟨hpeer, ?_⟩
  by_cases hdone : s.processedGuid guid = true
  · simp only [lzReceive, revertIf_bind, hpeer, ne_eq, not_true, if_false, hdone, if_true,
      pure_eq_ok, Prod.mk.injEq] at h
    exact .inl ⟨hdone, h.1.symm, h.2.symm⟩
  · have hfresh : s.processedGuid guid = false := Bool.eq_false_of_not_eq_true hdone
    cases hdec : abiDecode message with
    | none =>
      simp only [lzReceive, revertIf_bind, hpeer, ne_eq, not_true, if_false, hdone, hdec] at h
      cases h
    | some m =>
      rw [lzReceive_eq hpeer hfresh hdec] at h
      exact .inr ⟨hfresh, m.1, m.2, rfl, h⟩

theorem deliver_outcome (peer : origin.srcEid = I.peerEid) (fresh : s.processedGuid guid = false)
    (decoded : abiDecode message = some (v, r))
    (h : deliver I lz guid v r { s with balance := s.balance + value } = .ok (s', out)) :
    Outcome s (.lzReceive lz value origin guid message : Tx I) s' out := by
  unfold deliver at h
  split at h
  case isTrue hball => cases h
  case isFalse hball =>
    have hfree : s.gameState.hasBall = false := Bool.eq_false_of_not_eq_true hball
    cases hadd : checkedAdd r 1 with
    | none =>
      rw [hadd] at h
      cases h
    | some count =>
      have hnext : count.toNat = r.toNat + 1 := checkedAdd_eq_some.mp hadd
      rw [hadd] at h
      dsimp only at h
      split at h
      case isTrue hlast =>
        cases h
        exact .finish peer fresh hfree decoded hnext hlast
      case isFalse hlast =>
        obtain ⟨hcap, sent, b, hm, rfl, rfl⟩ := sendBack_outcome h
        exact .reply peer fresh hfree decoded hnext (not_or.mp hlast).1 hcap hm

theorem lzReceive_of_apply
    (h : apply (.lzReceive lz value origin guid message : Tx I) s = .ok (s', out)) :
    lzReceive I lz origin guid message { s with balance := s.balance + value } = .ok (s', out) := by
  simp only [apply, bind_eq_ok, revertIf_eq_ok, exists_const] at h
  exact h.2

theorem receive_outcome
    (h : apply (.lzReceive lz value origin guid message : Tx I) s = .ok (s', out)) :
    Outcome s (.lzReceive lz value origin guid message : Tx I) s' out := by
  replace h := lzReceive_of_apply h
  obtain ⟨hpeer, ⟨hdone, rfl, rfl⟩ | ⟨hfresh, v, r, hdec, hdeliver⟩⟩ := lzReceive_cases h
  · exact .replay hpeer hdone
  · exact deliver_outcome hpeer hfresh hdec hdeliver

end

theorem credit_external (s : Storage) (msg : Msg I) :
    s.credit I msg.sender msg.value = { s with balance := s.balance + msg.value } := by
  simp only [Storage.credit, if_neg msg.external]

theorem apply_receive (s : Storage) (msg : Msg I) :
    apply (.receive msg) s = .ok ({ s with balance := s.balance + msg.value }, []) := by
  rw [apply, credit_external]
  rfl

theorem apply_fallback (s : Storage) (msg : Msg I) :
    apply (.fallback msg) s = .ok ({ s with balance := s.balance + msg.value }, []) := by
  rw [apply, credit_external]
  rfl

theorem fund_ok {msg : Msg I} (h : apply (.fund msg) s = .ok (s', out)) :
    s' = { s with balance := s.balance + msg.value } ∧ out = [] := by
  simp only [apply, fund, credit_external, bind_eq_ok, revertIf_eq_ok, pure_eq_ok, exists_const,
    Prod.mk.injEq] at h
  exact ⟨h.2.1.symm, h.2.2.symm⟩

theorem setPeer_accepted {sender : Address} (owner : sender = s.owner) (eid : Uint32) (peer : Bytes32) :
    apply (.setPeer sender eid peer : Tx I) s =
      .ok ({ s with peers := Function.update s.peers eid peer }, []) := by
  have hrequire : onlyOwner sender s = .ok () := if_pos owner
  rw [apply, setPeer, hrequire]
  rfl

theorem administers_ok {tx : Tx I} (administers : tx.administers = true)
    (h : apply tx s = .ok (s', out)) :
    tx.sender = some s.owner ∧ out = [] ∧ ∃ enforcedOptions, s' =
      { s with
        owner := tx.newOwner.getD s.owner
        peers := tx.newPeers s.peers
        enforcedOptions } := by
  cases tx with
  | setPeer sender eid peer | renounceOwnership sender =>
    simp only [apply, setPeer, renounceOwnership, onlyOwner, bind_eq_ok, require_eq_ok, pure_eq_ok,
      exists_const, Prod.mk.injEq] at h
    obtain ⟨rfl, rfl, rfl⟩ := h
    exact ⟨rfl, rfl, _, rfl⟩
  | setEnforcedOptions sender result =>
    simp only [apply, setEnforcedOptions, onlyOwner, bind_eq_ok, require_eq_ok, okOr_eq_ok, pure_eq_ok,
      exists_const, Prod.mk.injEq] at h
    obtain ⟨rfl, options, -, rfl, rfl⟩ := h
    exact ⟨rfl, rfl, _, rfl⟩
  | setDelegate sender delegate accepts =>
    simp only [apply, setDelegate, onlyOwner, bind_eq_ok, require_eq_ok, pure_eq_ok, exists_const,
      Prod.mk.injEq] at h
    obtain ⟨rfl, -, rfl, rfl⟩ := h
    exact ⟨rfl, rfl, _, rfl⟩
  | transferOwnership sender newOwner =>
    simp only [apply, transferOwnership, onlyOwner, bind_eq_ok, require_eq_ok, revertIf_eq_ok, pure_eq_ok,
      exists_const, Prod.mk.injEq] at h
    obtain ⟨rfl, -, rfl, rfl⟩ := h
    exact ⟨rfl, rfl, _, rfl⟩
  | _ => cases administers

theorem withdraw_ok {sender recipient : Address} {amount : Wei} {accepted : Bool}
    (h : apply (.withdraw sender recipient amount accepted : Tx I) s = .ok (s', out)) :
    sender = s.owner ∧ amount ≤ s.balance ∧ out = [] ∧
      s' = { s with balance := if recipient = I.self then s.balance else s.balance - amount } := by
  simp only [apply, withdraw, onlyOwner, bind_eq_ok, require_eq_ok, revertIf_eq_ok, pure_eq_ok,
    exists_const, Prod.mk.injEq, not_or] at h
  obtain ⟨howner, -, ⟨hfunds, -⟩, hstate, hout⟩ := h
  exact ⟨howner, Nat.not_lt.mp hfunds, hout.symm, hstate.symm⟩

theorem apply_outcome {tx : Tx I} (h : apply tx s = .ok (s', out)) : Outcome s tx s' out := by
  cases tx with
  | serve lz msg maxRallies options => exact serve_outcome h
  | lzReceive lz value origin guid message => exact receive_outcome h
  | pauseGame sender =>
    simp only [apply, pauseGame, onlyOwner, bind_eq_ok, require_eq_ok, revertIf_eq_ok, pure_eq_ok,
      exists_const, Prod.mk.injEq] at h
    obtain ⟨howner, hactive, rfl, rfl⟩ := h
    exact .pauseGame howner (Bool.eq_true_of_not_eq_false hactive)
  | sendBackWithValue lz msg message options =>
    rw [apply, sendBackWithValue_external msg.external] at h
    cases h
  | fund msg =>
    obtain ⟨rfl, rfl⟩ := fund_ok h
    exact .aside rfl fun hnew => absurd rfl hnew
  | receive msg =>
    cases (apply_receive s msg).symm.trans h
    exact .aside rfl fun hnew => absurd rfl hnew
  | fallback msg =>
    cases (apply_fallback s msg).symm.trans h
    exact .aside rfl fun hnew => absurd rfl hnew
  | withdraw sender recipient amount accepted =>
    obtain ⟨-, -, rfl, rfl⟩ := withdraw_ok h
    exact .aside rfl fun hnew => absurd rfl hnew
  | setPeer | setEnforcedOptions | setDelegate | transferOwnership | renounceOwnership =>
    obtain ⟨hsender, rfl, enforcedOptions, rfl⟩ := administers_ok rfl h
    exact .aside rfl fun _ => hsender

end CrossChainPingPong.Evm
