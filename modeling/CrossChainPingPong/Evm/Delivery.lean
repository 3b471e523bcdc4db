import CrossChainPingPong.Evm.Outcome

namespace CrossChainPingPong.Evm
open Guard

variable {I : Immutables} {lz : OApp} {s s' : Storage} {out : List Sent}

def replyQuote (I : Immutables) (lz : OApp) (s : Storage) (message : Bytes) : Option MessagingFee :=
  lz.quote I.peerEid message (combineOptionsEmpty I s) false

def replyReceipt (I : Immutables) (lz : OApp) (s : Storage) (message : Bytes) (fee : Wei) :
    Option MessagingReceipt :=
  lz.lzSend I.peerEid message (combineOptionsEmpty I s) ⟨fee, 0⟩ I.self

def replied (I : Immutables) (s : Storage) (message : Bytes) (fee : Wei)
    (receipt : MessagingReceipt) : Storage × List Sent :=
  ({ s.setHasBall false with
      balance := s.balance - fee + (fee - receipt.fee.nativeFee) },
    [{ dstEid := I.peerEid
       message
       options := combineOptionsEmpty I s
       nativeFee := fee
       refundAddress := I.self
       guid := receipt.guid }])

theorem sendBackWithValue_self {message : Bytes} {fee : Wei} :
    sendBackWithValue I lz I.self fee message (combineOptionsEmpty I s) s =
      match replyReceipt I lz s message fee with
      | none => .error .oapp
      | some receipt => .ok
          ({ s with balance := s.balance - fee + (fee - receipt.fee.nativeFee) },
            (replied I s message fee receipt).2) := by
  have hself : s.credit I I.self fee = s := by simp [Storage.credit]
  simp only [sendBackWithValue, revertIf_bind, ne_eq, not_true, if_false, hself, lzSend, replyReceipt]
  cases lz.lzSend I.peerEid message (combineOptionsEmpty I s) ⟨fee, 0⟩ I.self <;> rfl

theorem sendBack_eq (active : s.gameState.gameActive = true) (ball : s.gameState.hasBall = true)
    (lt : s.rallyCount.toNat < s.gameState.maxRallies.toNat) :
    let message := encodeMessage s.ballValue s.rallyCount
    sendBack I lz s = match replyQuote I lz s message with
      | none => .error .oapp
      | some fee =>
        if s.balance < fee.nativeFee then .error .insufficientContractBalance
        else match replyReceipt I lz s message fee.nativeFee with
          | none => .error .selfCallFailed
          | some receipt => .ok (replied I s message fee.nativeFee receipt) := by
  have hcap : ¬ s.gameState.maxRallies.setWidth 256 ≤ s.rallyCount := by
    rw [BitVec.le_def, BitVec.toNat_setWidth_of_le (by decide)]
    exact Nat.not_le.mpr lt
  simp only [sendBack, revertIf_bind, active, ball, hcap, if_false, Bool.true_eq_false]
  rw [replyQuote]
  cases hquote : lz.quote I.peerEid (encodeMessage s.ballValue s.rallyCount)
      (combineOptionsEmpty I s) false with
  | none => rfl
  | some fee =>
    simp only [okOr_some_bind, sendBackWithValue_self]
    cases replyReceipt I lz s (encodeMessage s.ballValue s.rallyCount) fee.nativeFee <;> rfl

def CannotReply (I : Immutables) (lz : OApp) (s : Storage) (funds : Wei) (message : Bytes) : Prop :=
  match replyQuote I lz s message with
  | none => True
  | some fee => funds < fee.nativeFee ∨ replyReceipt I lz s message fee.nativeFee = none

structure DeliveryExact (I : Immutables) (lz : OApp) (guid : Bytes32) (v r : Uint256) (funds : Wei)
    (s : Storage) (result : Except Revert (Storage × List Sent)) : Prop where
  reverts : (∃ e, result = .error e) ↔ s.gameState.hasBall = true ∨ r.toNat = 2 ^ 256 - 1 ∨
    0 < v.toNat ∧ r.toNat + 1 < s.cap.toNat ∧
      CannotReply I lz s funds (encodeMessage (v - 1) (r + 1))
  guards : ∀ e, result = .error e →
    e ≠ .gameNotActive ∧ e ≠ .noBallToServe ∧ e ≠ .maxRalliesReached
  marks : ∀ s' out, result = .ok (s', out) →
    s'.processedGuid = Function.update s.processedGuid guid true ∧
      s'.gameState.maxRallies = s.cap ∧ s'.rallyCount.toNat = r.toNat + 1
  ends : ∀ s' out, result = .ok (s', out) → v.toNat = 0 ∨ s.cap.toNat ≤ r.toNat + 1 →
    s'.ballValue = v ∧ s'.gameState.hasBall = true ∧ s'.gameState.gameActive = false ∧ out = []
  replies : ∀ s' out, result = .ok (s', out) → 0 < v.toNat → r.toNat + 1 < s.cap.toNat →
    s'.ballValue = v - 1 ∧ s'.gameState.hasBall = false ∧ s'.gameState.gameActive = true ∧
      ∃ p, out = [p] ∧ p.dstEid = I.peerEid ∧ p.message = encodeMessage (v - 1) (r + 1)

section
variable {guid : Bytes32} {v r : Uint256} {funds : Wei}

theorem checkedAdd_one (r : Uint256) :
    checkedAdd r 1 = none ∧ r.toNat = 2 ^ 256 - 1 ∨
      checkedAdd r 1 = some (r + 1) ∧ (r + 1).toNat = r.toNat + 1 := by
  have hone : (1 : Uint256).toNat = 1 := rfl
  have hr := r.isLt
  by_cases hlt : r.toNat + (1 : Uint256).toNat < 2 ^ 256
  · have hsome : checkedAdd r 1 = some (r + 1) := if_pos hlt
    exact .inr ⟨hsome, checkedAdd_eq_some.mp hsome⟩
  · exact .inl ⟨if_neg hlt, by omega⟩

theorem exact_of_error {e : Revert}
    (why : s.gameState.hasBall = true ∨ r.toNat = 2 ^ 256 - 1 ∨
      0 < v.toNat ∧ r.toNat + 1 < s.cap.toNat ∧
        CannotReply I lz s funds (encodeMessage (v - 1) (r + 1)))
    (guards : e ≠ .gameNotActive ∧ e ≠ .noBallToServe ∧ e ≠ .maxRalliesReached) :
    DeliveryExact I lz guid v r funds s (.error e) where
  reverts := ⟨fun _ => why, fun _ => ⟨e, rfl⟩⟩
  guards := by
    rintro e' ⟨⟩
    exact guards
  marks := nofun
  ends := nofun
  replies := nofun

theorem exact_of_end {count : Uint256} (free : ¬ s.gameState.hasBall = true)
    (next : count.toNat = r.toNat + 1) (last : v = 0 ∨ s.cap.toNat ≤ count.toNat) (balance : Wei) :
    DeliveryExact I lz guid v r funds s
      (.ok (s.received guid v count ⟨s.cap, true, false⟩ balance, [])) := by
  have hcount := count.isLt
  have hlast : v.toNat = 0 ∨ s.cap.toNat ≤ r.toNat + 1 := by
    rw [← next]
    exact last.imp_left fun hv => congrArg BitVec.toNat hv
  refine ⟨⟨nofun, fun why => ?_⟩, nofun, ?_, ?_, ?_⟩
  · rcases why with hball | hr | ⟨hv, hlt, -⟩
    · exact absurd hball free
    · omega
    · omega
  · rintro _ _ ⟨⟩
    exact ⟨rfl, rfl, next⟩
  · rintro _ _ ⟨⟩ -
    exact ⟨rfl, rfl, rfl, rfl⟩
  · rintro _ _ ⟨⟩ hv hlt
    omega

theorem exact_of_reply {balance : Wei} {p : Sent} (free : ¬ s.gameState.hasBall = true)
    (next : (r + 1).toNat = r.toNat + 1) (pos : 0 < v.toNat) (lt : r.toNat + 1 < s.cap.toNat)
    (can : ¬ CannotReply I lz s funds (encodeMessage (v - 1) (r + 1))) (dst : p.dstEid = I.peerEid)
    (payload : p.message = encodeMessage (v - 1) (r + 1)) :
    DeliveryExact I lz guid v r funds s
      (.ok (s.received guid (v - 1) (r + 1) ⟨s.cap, false, true⟩ balance, [p])) := by
  have hcount := (r + 1).isLt
  refine ⟨⟨nofun, fun why => ?_⟩, nofun, ?_, ?_, ?_⟩
  · rcases why with hball | hr | ⟨-, -, hcannot⟩
    · exact absurd hball free
    · omega
    · exact absurd hcannot can
  · rintro _ _ ⟨⟩
    exact ⟨rfl, rfl, next⟩
  · rintro _ _ ⟨⟩ hlast
    omega
  · rintro _ _ ⟨⟩ - -
    exact ⟨rfl, rfl, rfl, p, rfl, dst, payload⟩

theorem exact_of_send (free : ¬ s.gameState.hasBall = true)
    (next : (r + 1).toNat = r.toNat + 1) (pos : 0 < v.toNat) (lt : r.toNat + 1 < s.cap.toNat) :
    let message := encodeMessage (v - 1) (r + 1)
    let t := s.received guid (v - 1) (r + 1) ⟨s.cap, true, true⟩ s.balance
    DeliveryExact I lz guid v r s.balance s (match replyQuote I lz s message with
      | none => .error .oapp
      | some fee =>
        if s.balance < fee.nativeFee then .error .insufficientContractBalance
        else match replyReceipt I lz s message fee.nativeFee with
          | none => .error .selfCallFailed
          | some receipt => .ok (replied I t message fee.nativeFee receipt)) := by
  intro message t
  cases hquote : replyQuote I lz s message with
  | none =>
    have hcannot : CannotReply I lz s s.balance message := by simp [CannotReply, hquote]
    exact exact_of_error (.inr (.inr ⟨pos, lt, hcannot⟩)) ⟨nofun, nofun, nofun⟩
  | some fee =>
    dsimp only
    by_cases hlow : s.balance < fee.nativeFee
    · have hcannot : CannotReply I lz s s.balance message := by simp [CannotReply, hquote, hlow]
      rw [if_pos hlow]
      exact exact_of_error (.inr (.inr ⟨pos, lt, hcannot⟩)) ⟨nofun, nofun, nofun⟩
    · rw [if_neg hlow]
      cases hreceipt : replyReceipt I lz s message fee.nativeFee with
      | none =>
        have hcannot : CannotReply I lz s s.balance message := by
          simp [CannotReply, hquote, hreceipt]
        exact exact_of_error (.inr (.inr ⟨pos, lt, hcannot⟩)) ⟨nofun, nofun, nofun⟩
      | some receipt =>
        have hcan : ¬ CannotReply I lz s s.balance message := by
          simp [CannotReply, hquote, hlow, hreceipt]
        exact exact_of_reply free next pos lt hcan rfl rfl

theorem deliver_exact (guid : Bytes32) (v r : Uint256) (s : Storage) :
    DeliveryExact I lz guid v r s.balance s (deliver I lz guid v r s) := by
  unfold deliver
  by_cases hball : s.gameState.hasBall = true
  · rw [if_pos hball]
    exact exact_of_error (.inl hball) ⟨nofun, nofun, nofun⟩
  rw [if_neg hball]
  rcases checkedAdd_one r with ⟨hnone, hr⟩ | ⟨hsome, hnext⟩
  · rw [hnone]
    exact exact_of_error (.inr (.inl hr)) ⟨nofun, nofun, nofun⟩
  rw [hsome]
  dsimp only
  by_cases hlast : v = 0 ∨ s.cap.toNat ≤ (r + 1).toNat
  · rw [if_pos hlast]
    exact exact_of_end hball hnext hlast s.balance
  rw [if_neg hlast]
  obtain ⟨hv, hcap⟩ := not_or.mp hlast
  have hpos : 0 < v.toNat := Nat.pos_of_ne_zero (BitVec.toNat_ne.mp hv)
  have hlt : r.toNat + 1 < s.cap.toNat := hnext ▸ Nat.not_le.mp hcap
  have hsend : sendBack I lz (s.received guid (v - 1) (r + 1) ⟨s.cap, true, true⟩ s.balance) = _ :=
    sendBack_eq rfl rfl (Nat.not_le.mp hcap)
  rw [hsend]
  exact exact_of_send hball hnext hpos hlt

theorem deliver_auto (idle : s.gameState.gameActive = false) :
    deliver I lz guid v r s = deliver I lz guid v r
      { s with gameState := ⟨maxRalliesCap.setWidth 128, s.gameState.hasBall, true⟩ } := by
  have hcap : s.cap = maxRalliesCap.setWidth 128 := Storage.cap_of_idle idle
  simp only [deliver, hcap]
  rfl

end

theorem apply_delivery {value : Wei} {origin : Origin} {guid : Bytes32} {message : Bytes}
    (admitted : lz.admits = true) :
    apply (.lzReceive lz value origin guid message : Tx I) s =
      lzReceive I lz origin guid message { s with balance := s.balance + value } := by
  simp only [apply, revertIf_bind, admitted, Bool.true_eq_false, if_false]

theorem apply_eq_deliver {value : Wei} {origin : Origin} {guid : Bytes32} {message : Bytes}
    {v r : Uint256} (admitted : lz.admits = true) (peer : origin.srcEid = I.peerEid)
    (fresh : s.processedGuid guid = false) (decoded : abiDecode message = some (v, r)) :
    apply (.lzReceive lz value origin guid message : Tx I) s =
      deliver I lz guid v r { s with balance := s.balance + value } :=
  (apply_delivery admitted).trans (lzReceive_eq peer fresh decoded)

theorem apply_exact {value : Wei} {origin : Origin} {guid : Bytes32} {message : Bytes}
    {v r : Uint256} (admitted : lz.admits = true) (peer : origin.srcEid = I.peerEid)
    (fresh : s.processedGuid guid = false) (decoded : abiDecode message = some (v, r)) :
    DeliveryExact I lz guid v r (s.balance + value) s
      (apply (.lzReceive lz value origin guid message : Tx I) s) := by
  rw [apply_eq_deliver admitted peer fresh decoded]
  have hexact := @deliver_exact I lz guid v r { s with balance := s.balance + value }
  obtain ⟨hreverts, hguards, hmarks, hends, hreplies⟩ := hexact
  exact ⟨hreverts, hguards, hmarks, hends, hreplies⟩

theorem apply_replay {value : Wei} {origin : Origin} {guid : Bytes32} (message : Bytes)
    (admitted : lz.admits = true) (peer : origin.srcEid = I.peerEid)
    (done : s.processedGuid guid = true) :
    apply (.lzReceive lz value origin guid message : Tx I) s =
      .ok ({ s with balance := s.balance + value }, []) := by
  rw [apply_delivery admitted]
  simp only [lzReceive, revertIf_bind, peer, ne_eq, not_true, if_false, done, if_true]
  rfl

structure Willing (I : Immutables) (lz : OApp) (fee : Wei) : Prop where
  admits : lz.admits = true
  quotes : ∀ message options, ∃ quoted,
    lz.quote I.peerEid message options false = some quoted ∧ quoted.nativeFee ≤ fee
  sends : ∀ message options paid refund, ∃ receipt,
    lz.lzSend I.peerEid message options paid refund = some receipt

theorem obligingOApp_willing (guid : Bytes32) (fee : Wei) : Willing I (obligingOApp guid fee) fee :=
  ⟨rfl, fun _ _ => ⟨_, rfl, le_rfl⟩, fun _ _ _ _ => ⟨_, rfl⟩⟩

theorem Willing.can_reply {fee funds : Wei} {message : Bytes} (willing : Willing I lz fee)
    (funded : fee ≤ funds) : ¬ CannotReply I lz s funds message := by
  obtain ⟨quoted, hquote, hfee⟩ := willing.quotes message (combineOptionsEmpty I s)
  obtain ⟨receipt, hreceipt⟩ :=
    willing.sends message (combineOptionsEmpty I s) ⟨quoted.nativeFee, 0⟩ I.self
  rw [CannotReply, replyQuote, hquote]
  rintro (hpoor | hrefused)
  · exact absurd (hfee.trans funded) (Nat.not_le.mpr hpoor)
  · rw [replyReceipt, hreceipt] at hrefused
    cases hrefused

theorem Willing.accepted {value fee : Wei} {origin : Origin} {guid : Bytes32} {message : Bytes}
    {v r : Uint256} (willing : Willing I lz fee) (peer : origin.srcEid = I.peerEid)
    (decoded : abiDecode message = some (v, r)) (fits : r.toNat + 1 < 2 ^ 256)
    (free : s.gameState.hasBall = false) (funded : fee ≤ s.balance + value) :
    Succeeds (apply (.lzReceive lz value origin guid message : Tx I) s) := by
  by_cases hdone : s.processedGuid guid = true
  · exact ⟨_, apply_replay message willing.admits peer hdone⟩
  · have hfresh : s.processedGuid guid = false := Bool.eq_false_of_not_eq_true hdone
    have hexact : DeliveryExact I lz guid v r (s.balance + value) s
        (apply (.lzReceive lz value origin guid message : Tx I) s) :=
      apply_exact willing.admits peer hfresh decoded
    cases hresult : apply (.lzReceive lz value origin guid message : Tx I) s with
    | ok result => exact ⟨result, rfl⟩
    | error e =>
      rcases hexact.reverts.mp ⟨e, hresult⟩ with hball | hmax | ⟨-, -, hcannot⟩
      · exact absurd (hball.symm.trans free) (by decide)
      · omega
      · exact absurd hcannot (willing.can_reply funded)

theorem delivery_exact (I : Immutables) (lz : OApp) (s : Storage) (value : Wei) (origin : Origin)
    (guid : Bytes32) (v r : Uint256) (admitted : lz.admits = true)
    (peer : origin.srcEid = I.peerEid) (fresh : s.processedGuid guid = false) :
    let delivery : Tx I := .lzReceive lz value origin guid (encodeMessage v r)
    DeliveryExact I lz guid v r (s.balance + value) s (apply delivery s) ∧
      (s.gameState.gameActive = false → apply delivery s = apply delivery
        { s with gameState := ⟨maxRalliesCap.setWidth 128, s.gameState.hasBall, true⟩ }) := by
  have hdec : abiDecode (encodeMessage v r) = some (v, r) := abiDecode_abiEncode v r
  intro delivery
  refine ⟨apply_exact admitted peer fresh hdec, fun idle => ?_⟩
  have hauto : apply delivery
      { s with gameState := ⟨maxRalliesCap.setWidth 128, s.gameState.hasBall, true⟩ } = _ :=
    apply_eq_deliver admitted peer fresh hdec
  rw [hauto, apply_eq_deliver admitted peer fresh hdec]
  exact deliver_auto idle

theorem first_delivery_replies : ∃ s' out,
    apply (sampleDelivery 1 7 3) (deployed 3 0) = .ok (s', out) ∧
      s'.ballValue = 6 ∧ s'.gameState.hasBall = false ∧ s'.gameState.gameActive = true ∧
        ∃ p, out = [p] ∧ p.dstEid = 40168 ∧ p.message = encodeMessage 6 4 := by
  have hexact := (delivery_exact sampleImmutables (obligingOApp 7 0) (deployed 3 0) 0
    ⟨40168, 9, 1⟩ 1 7 3 rfl rfl rfl).1
  have haccepted : ∀ e, apply (sampleDelivery 1 7 3) (deployed 3 0) ≠ .error e := by
    intro e he
    rcases hexact.reverts.mp ⟨e, he⟩ with hball | hmax | ⟨-, -, hcannot⟩
    · cases hball
    · exact absurd hmax (by decide)
    · rcases hcannot with hpoor | hrefused
      · exact absurd hpoor (by decide)
      · cases hrefused
  cases hok : apply (sampleDelivery 1 7 3) (deployed 3 0) with
  | error e => exact absurd hok (haccepted e)
  | ok result => exact ⟨result.1, result.2, rfl, hexact.replies _ _ hok (by decide) (by decide)⟩

end CrossChainPingPong.Evm
