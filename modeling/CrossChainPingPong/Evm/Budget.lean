import CrossChainPingPong.Evm.Funds
import CrossChainPingPong.Evm.Reverts

namespace CrossChainPingPong.Evm
open Guard

variable {I : Immutables} {lz : OApp} {s s' : Storage} {out : List Sent} {highest : Wei}

def OApp.QuotesAtMost (highest : Wei) (lz : OApp) : Prop := ∀ dstEid message options fee,
  lz.quote dstEid message options false = some fee → fee.nativeFee ≤ highest

def Tx.isWithdraw : Tx I → Bool
  | .withdraw .. => true
  | _ => false

def repliesPaid (c : Commit Storage (Tx I) Sent) : Nat :=
  match c.action with
  | .lzReceive .. => c.out.length
  | _ => 0

theorem Paid.balance_le {p : Sent} (paid : Paid lz s s' p) : s.balance ≤ s'.balance + p.nativeFee := by
  obtain ⟨-, hfunded, receipt, -, hbalance⟩ := paid
  rw [hbalance, Nat.add_right_comm, Nat.sub_add_cancel hfunded]
  exact Nat.le_add_right _ _

theorem lzReceive_balance_le {origin : Origin} {guid : Bytes32} {message : Bytes}
    (h : lzReceive I lz origin guid message s = .ok (s', out)) (cheap : lz.QuotesAtMost highest) :
    s.balance ≤ s'.balance + out.length * highest := by
  rcases lzReceive_paid h with ⟨rfl, hbalance⟩ | ⟨p, rfl, paid⟩
  · exact hbalance.symm.le.trans (Nat.le_add_right _ _)
  · obtain ⟨fee, hquote, hfee⟩ := paid.quoted
    rw [List.length_singleton, Nat.one_mul]
    exact paid.balance_le.trans (Nat.add_le_add_left (hfee ▸ cheap _ _ _ _ hquote) _)

theorem balance_spent {c : Commit Storage (Tx I) Sent} (hc : (machine I).Commits c)
    (cheap : ∀ lz, c.action.oapp = some lz → lz.QuotesAtMost highest)
    (keeps : c.action.isWithdraw = false) :
    c.before.balance ≤ c.after.balance + repliesPaid c * highest := by
  obtain ⟨s, tx, s', out⟩ := c
  have happly : apply tx s = .ok (s', out) := hc
  cases tx with
  | serve =>
    cases apply_outcome happly with
    | serve => exact Nat.le_add_right _ _
    | aside aside => cases aside
  | fund msg =>
    obtain ⟨rfl, rfl⟩ := fund_ok happly
    exact (Nat.le_add_right _ _).trans (Nat.le_add_right _ _)
  | receive msg =>
    cases (apply_receive s msg).symm.trans happly
    exact (Nat.le_add_right _ _).trans (Nat.le_add_right _ _)
  | fallback msg =>
    cases (apply_fallback s msg).symm.trans happly
    exact (Nat.le_add_right _ _).trans (Nat.le_add_right _ _)
  | pauseGame =>
    cases apply_outcome happly with
    | pauseGame => exact Nat.le_add_right _ _
    | aside aside => cases aside
  | sendBackWithValue lz msg message options =>
    rw [apply, sendBackWithValue_external msg.external] at happly
    cases happly
  | setPeer | setEnforcedOptions | setDelegate | transferOwnership | renounceOwnership =>
    obtain ⟨-, rfl, enforcedOptions, rfl⟩ := administers_ok rfl happly
    exact Nat.le_add_right _ _
  | withdraw => cases keeps
  | lzReceive lz value origin guid message =>
    have hreceived := lzReceive_balance_le (lzReceive_of_apply happly) (cheap lz rfl)
    exact (Nat.le_add_right _ _).trans hreceived

theorem deliver_poor {guid : Bytes32} {v r : Uint256}
    (h : deliver I lz guid v r s = .error .insufficientContractBalance) :
    r.toNat + 1 < s.cap.toNat ∧ ∃ message options fee,
      lz.quote I.peerEid message options false = some fee ∧ s.balance < fee.nativeFee := by
  unfold deliver at h
  split at h
  · cases h
  cases hadd : checkedAdd r 1 with
  | none =>
    rw [hadd] at h
    cases h
  | some count =>
    rw [hadd] at h
    have hcount : count.toNat = r.toNat + 1 := checkedAdd_eq_some.mp hadd
    dsimp only at h
    split at h
    · cases h
    case isFalse hlast =>
      have hlt : count.toNat < s.cap.toNat := Nat.not_le.mp (not_or.mp hlast).2
      refine ⟨hcount ▸ hlt, ?_⟩
      have hsend : sendBack I lz (s.received guid (v - 1) count ⟨s.cap, true, true⟩ s.balance) = _ :=
        sendBack_eq rfl rfl hlt
      rw [hsend] at h
      split at h
      · cases h
      case h_2 fee hquote =>
        split at h
        case isTrue hpoor => exact ⟨_, _, fee, hquote, hpoor⟩
        case isFalse => split at h <;> cases h

theorem poor_delivery {tx : Tx I} (h : apply tx s = .error .insufficientContractBalance) :
    ∃ lz value origin guid message v r, tx = .lzReceive lz value origin guid message ∧
      abiDecode message = some (v, r) ∧ r.toNat + 1 < s.cap.toNat ∧ ∃ message options fee,
        lz.quote I.peerEid message options false = some fee ∧ s.balance + value < fee.nativeFee := by
  have hlisted : Revert.insufficientContractBalance ∈ tx.function.reverts := apply_failsIn tx s _ h
  have hreceives : tx.function = .lzReceive := by
    cases hf : tx.function with
    | lzReceive => rfl
    | _ =>
      rw [hf] at hlisted
      exact absurd hlisted (by decide)
  cases tx with
  | lzReceive lz value origin guid message =>
    simp only [apply] at h
    rcases bind_eq_error.mp h with hrefused | ⟨_, -, hreceive⟩
    · cases (revertIf_eq_error.mp hrefused).2
    · rcases lzReceive_error hreceive with hpeer | hmalformed | ⟨v, r, hdec, hdeliver⟩
      · cases hpeer
      · cases hmalformed
      · exact ⟨lz, value, origin, guid, message, v, r, rfl, hdec, deliver_poor hdeliver⟩
  | _ => cases hreceives

theorem obligingOApp_quotes (guid : Bytes32) {fee : Wei} (le : fee ≤ highest) :
    (obligingOApp guid fee).QuotesAtMost highest := by
  rintro _ _ _ _ ⟨⟩
  exact le

theorem reply_paid {guid next : Bytes32} {fee : Wei} {origin : Origin} {message : Bytes}
    {v r : Uint256} (peer : origin.srcEid = I.peerEid) (fresh : s.processedGuid guid = false)
    (free : s.gameState.hasBall = false) (decoded : abiDecode message = some (v, r)) (pos : v ≠ 0)
    (lt : r.toNat + 1 < s.cap.toNat) :
    let result := apply (.lzReceive (obligingOApp next fee) 0 origin guid message : Tx I) s
    result = .error .insufficientContractBalance ∨
      ∃ s' out, result = .ok (s', out) ∧ s'.balance + fee = s.balance := by
  intro result
  have hcap := s.cap.isLt
  obtain ⟨hadd, hcount⟩ := (checkedAdd_one r).resolve_left fun hmax => by omega
  have hlt : (r + 1).toNat < s.cap.toNat := hcount ▸ lt
  have hdeliver : result = deliver I (obligingOApp next fee) guid v r s :=
    apply_eq_deliver rfl peer fresh decoded
  have hsend : result = sendBack I (obligingOApp next fee)
      (s.received guid (v - 1) (r + 1) ⟨s.cap, true, true⟩ s.balance) := by
    rw [hdeliver, deliver, if_neg (by rw [free]; decide), hadd]
    exact if_neg (not_or_intro pos (Nat.not_le.mpr hlt))
  rw [hsend, sendBack_eq rfl rfl hlt]
  dsimp only [replyQuote, replyReceipt, obligingOApp]
  split
  case isTrue hpoor => exact .inl rfl
  case isFalse hfunded =>
    refine .inr ⟨_, _, rfl, ?_⟩
    dsimp only [replied, Storage.received]
    rw [Nat.sub_self, Nat.add_zero]
    exact Nat.sub_add_cancel (Nat.not_lt.mp hfunded)

end CrossChainPingPong.Evm
