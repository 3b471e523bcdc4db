import CrossChainPingPong.Evm.Delivery
import CrossChainPingPong.Library.Trace
import Mathlib.Algebra.BigOperators.Group.List.Basic

namespace CrossChainPingPong.Evm
open Guard

variable {I : Immutables}

def Tx.income : Tx I → Wei
  | .fund msg | .receive msg | .fallback msg => msg.value
  | .lzReceive _ value _ _ _ => value
  | _ => 0

def Tx.withdrawn : Tx I → Wei
  | .withdraw _ recipient amount _ => if recipient = I.self then 0 else amount
  | _ => 0

def Tx.oapp : Tx I → Option OApp
  | .serve lz .. | .sendBackWithValue lz .. | .lzReceive lz .. => some lz
  | _ => none

def OApp.keeps (lz : OApp) (p : Sent) : Wei :=
  match lz.lzSend p.dstEid p.message p.options ⟨p.nativeFee, 0⟩ p.refundAddress with
  | some receipt => receipt.fee.nativeFee
  | none => 0

def OApp.KeepsAtMost (lz : OApp) : Prop := ∀ dstEid message options fee refundAddress receipt,
  lz.lzSend dstEid message options fee refundAddress = some receipt →
    receipt.fee.nativeFee ≤ fee.nativeFee

def kept (c : Commit Storage (Tx I) Sent) : Wei :=
  match c.action with
  | .lzReceive lz .. => (c.out.map lz.keeps).sum
  | _ => 0

structure SpendsOnlyReplies (c : Commit Storage (Tx I) Sent) : Prop where
  serve : ∀ lz msg maxRallies options, c.action = .serve lz msg maxRallies options →
    c.after.balance = c.before.balance
  reply : ∀ lz value origin guid message, c.action = .lzReceive lz value origin guid message →
    ∀ p ∈ c.out, ∃ fee, lz.quote p.dstEid p.message p.options false = some fee ∧
      p.nativeFee = fee.nativeFee ∧ lz.keeps p ≤ fee.nativeFee
  lowered : c.after.balance < c.before.balance →
    (∃ recipient amount accepted, c.action = .withdraw c.before.owner recipient amount accepted) ∨
      ∃ lz value origin guid message, c.action = .lzReceive lz value origin guid message

variable {lz : OApp} {s s' : Storage} {out : List Sent}

structure Paid (lz : OApp) (s s' : Storage) (p : Sent) : Prop where
  quoted : ∃ fee, lz.quote p.dstEid p.message p.options false = some fee ∧
    p.nativeFee = fee.nativeFee
  funded : p.nativeFee ≤ s.balance
  sent : ∃ receipt, lz.lzSend p.dstEid p.message p.options ⟨p.nativeFee, 0⟩ p.refundAddress =
    some receipt ∧ s'.balance = s.balance - p.nativeFee + (p.nativeFee - receipt.fee.nativeFee)

theorem sendBack_paid (h : sendBack I lz s = .ok (s', out)) : ∃ p, out = [p] ∧ Paid lz s s' p := by
  simp only [sendBack, sendBackWithValue, lzSend, bind_eq_ok, revertIf_eq_ok, okOr_eq_ok,
    mapError_eq_ok, pure_eq_ok, Prod.mk.injEq, Prod.exists, exists_const] at h
  obtain ⟨-, -, -, fee, hquote, hfunds, t, o, ⟨-, t', sent, ⟨receipt, hsend, rfl, rfl⟩, rfl, rfl⟩,
    rfl, rfl⟩ := h
  refine ⟨_, rfl, ⟨fee, hquote, rfl⟩, Nat.not_lt.mp hfunds, receipt, hsend, ?_⟩
  simp [Storage.setHasBall, Storage.credit]

theorem deliver_paid {guid : Bytes32} {v r : Uint256} (h : deliver I lz guid v r s = .ok (s', out)) :
    (out = [] ∧ s'.balance = s.balance) ∨ ∃ p, out = [p] ∧ Paid lz s s' p := by
  unfold deliver at h
  split at h
  · cases h
  · split at h
    · cases h
    · split at h
      · cases h
        exact .inl ⟨rfl, rfl⟩
      · obtain ⟨p, hout, hquoted, hfunded, hsent⟩ := sendBack_paid h
        exact .inr ⟨p, hout, hquoted, hfunded, hsent⟩

theorem lzReceive_paid {origin : Origin} {guid : Bytes32} {message : Bytes}
    (h : lzReceive I lz origin guid message s = .ok (s', out)) :
    (out = [] ∧ s'.balance = s.balance) ∨ ∃ p, out = [p] ∧ Paid lz s s' p := by
  obtain ⟨-, ⟨-, rfl, rfl⟩ | ⟨-, v, r, -, hdeliver⟩⟩ := lzReceive_cases h
  · exact .inl ⟨rfl, rfl⟩
  · exact deliver_paid hdeliver

theorem keeps_of_sent {p : Sent} {receipt : MessagingReceipt}
    (hsend : lz.lzSend p.dstEid p.message p.options ⟨p.nativeFee, 0⟩ p.refundAddress =
      some receipt) : lz.keeps p = receipt.fee.nativeFee := by
  simp only [OApp.keeps, hsend]

theorem refund_cancel {balance fee keeps : Wei} (funded : fee ≤ balance) (most : keeps ≤ fee) :
    balance - fee + (fee - keeps) + keeps = balance := by
  rw [Nat.add_assoc, Nat.sub_add_cancel most, Nat.sub_add_cancel funded]

theorem balance_step {c : Commit Storage (Tx I) Sent} (hc : (machine I).Commits c)
    (honest : ∀ lz, c.action.oapp = some lz → lz.KeepsAtMost) :
    c.after.balance + (c.action.withdrawn + kept c) = c.before.balance + c.action.income := by
  obtain ⟨s, tx, s', out⟩ := c
  have happly : apply tx s = .ok (s', out) := hc
  cases tx with
  | serve =>
    cases apply_outcome happly with
    | serve => rfl
    | aside aside => cases aside
  | fund msg =>
    obtain ⟨rfl, rfl⟩ := fund_ok happly
    simp [Tx.withdrawn, Tx.income, kept]
  | receive msg =>
    cases (apply_receive s msg).symm.trans happly
    simp [Tx.withdrawn, Tx.income, kept]
  | fallback msg =>
    cases (apply_fallback s msg).symm.trans happly
    simp [Tx.withdrawn, Tx.income, kept]
  | pauseGame =>
    cases apply_outcome happly with
    | pauseGame => rfl
    | aside aside => cases aside
  | sendBackWithValue lz msg message options =>
    rw [apply, sendBackWithValue_external msg.external] at happly
    cases happly
  | setPeer | setEnforcedOptions | setDelegate | transferOwnership | renounceOwnership =>
    obtain ⟨-, rfl, enforcedOptions, rfl⟩ := administers_ok rfl happly
    rfl
  | withdraw sender recipient amount accepted =>
    obtain ⟨-, hfunds, rfl, rfl⟩ := withdraw_ok happly
    simp only [Tx.withdrawn, Tx.income, kept]
    split
    · rfl
    · exact Nat.sub_add_cancel hfunds
  | lzReceive lz value origin guid message =>
    rcases lzReceive_paid (lzReceive_of_apply happly) with
      ⟨rfl, hbalance⟩ | ⟨p, rfl, -, hfunded, receipt, hsend, hbalance⟩
    · simp [kept, Tx.withdrawn, Tx.income, hbalance]
    · have hkeeps := keeps_of_sent hsend
      have hmost := honest lz rfl _ _ _ _ _ _ hsend
      simp only [kept, List.map_cons, List.map_nil, List.sum_singleton, Tx.withdrawn, Tx.income,
        hkeeps]
      rw [hbalance, zero_add]
      exact refund_cancel hfunded hmost

theorem spends_step {c : Commit Storage (Tx I) Sent} (hc : (machine I).Commits c)
    (honest : ∀ lz, c.action.oapp = some lz → lz.KeepsAtMost) : SpendsOnlyReplies c := by
  have hbalance := balance_step hc honest
  obtain ⟨s, tx, s', out⟩ := c
  have happly : apply tx s = .ok (s', out) := hc
  constructor
  · rintro lz msg maxRallies options rfl
    exact hbalance
  · rintro lz value origin guid message rfl p hp
    rcases lzReceive_paid (lzReceive_of_apply happly) with
      ⟨rfl, -⟩ | ⟨q, rfl, ⟨fee, hquote, hfee⟩, -, receipt, hsend, -⟩
    · cases hp
    · obtain rfl := List.mem_singleton.mp hp
      have hmost := honest lz rfl _ _ _ _ _ _ hsend
      exact ⟨fee, hquote, hfee, keeps_of_sent hsend ▸ hfee ▸ hmost⟩
  · intro hlower
    cases tx with
    | withdraw sender recipient amount accepted =>
      exact .inl ⟨recipient, amount, accepted, by rw [(withdraw_ok happly).1]⟩
    | lzReceive lz value origin guid message => exact .inr ⟨lz, value, origin, guid, message, rfl⟩
    | _ =>
      have hge : s.balance ≤ s'.balance := (Nat.le_add_right _ _).trans hbalance.ge
      exact absurd hlower (Nat.not_lt.mpr hge)

theorem balance_accounted (I : Immutables) (owner : Address) (balance : Wei) (txs : List (Tx I))
    (honest : ∀ tx ∈ txs, ∀ lz, tx.oapp = some lz → lz.KeepsAtMost) :
    let h := (machine I).history (deployed owner balance) txs
    ((machine I).run (deployed owner balance) txs).balance +
        ((h.map fun c => c.action.withdrawn).sum + (h.map kept).sum) =
      balance + (h.map fun c => c.action.income).sum ∧ ∀ c ∈ h, SpendsOnlyReplies c := by
  intro h
  have hhonest : ∀ c ∈ h, ∀ lz, c.action.oapp = some lz → lz.KeepsAtMost :=
    fun c hc => honest c.action ((machine I).action_of_mem hc)
  constructor
  · have htotal := ((machine I).trace (deployed owner balance) txs).conserved Storage.balance
      (fun c => c.action.income) (fun c => c.action.withdrawn + kept c)
      (fun c hc => balance_step ((machine I).commits_of_mem hc) (hhonest c hc))
    rw [List.sum_map_add] at htotal
    exact htotal
  · intro c hc
    exact spends_step ((machine I).commits_of_mem hc) (hhonest c hc)

def keepingOApp (quoted keeps : Wei) : OApp :=
  { obligingOApp 9 quoted with
    lzSend := fun _ _ _ fee _ => some ⟨9, 1, ⟨min keeps fee.nativeFee, 0⟩⟩ }

theorem keepingOApp_keepsAtMost (quoted keeps : Wei) : (keepingOApp quoted keeps).KeepsAtMost := by
  intro dstEid message options fee refundAddress receipt hsend
  obtain rfl := Option.some.inj hsend
  exact Nat.min_le_right _ _

def fundedRun : List (Tx sampleImmutables) :=
  [.fund { samplePlayer with value := 20 }, .serve (keepingOApp 5 3) samplePlayer 10 [],
    .lzReceive (keepingOApp 5 3) 1 ⟨40168, 9, 1⟩ 1 (abiEncode 7 3), .withdraw 3 8 6 true]

theorem fundedRun_balance : ((machine sampleImmutables).run (deployed 3 0) fundedRun).balance = 12 := by
  have honest : ∀ tx ∈ fundedRun, ∀ lz, tx.oapp = some lz → lz.KeepsAtMost := by
    intro tx htx lz hlz
    simp only [fundedRun, List.mem_cons, List.not_mem_nil, or_false] at htx
    obtain rfl | rfl | rfl | rfl := htx
    · cases hlz
    · obtain rfl := Option.some.inj hlz
      exact keepingOApp_keepsAtMost 5 3
    · obtain rfl := Option.some.inj hlz
      exact keepingOApp_keepsAtMost 5 3
    · cases hlz
  obtain ⟨htotal, -⟩ := balance_accounted sampleImmutables 3 0 fundedRun honest
  have hspent : (((machine sampleImmutables).history (deployed 3 0) fundedRun).map
      fun c => c.action.withdrawn + kept c) = [0, 0, 3, 6] := by
    decide +kernel
  have hincome : (((machine sampleImmutables).history (deployed 3 0) fundedRun).map
      fun c => c.action.income) = [20, 0, 1, 0] := by
    decide +kernel
  rw [← List.sum_map_add, hspent, hincome] at htotal
  exact Nat.add_right_cancel htotal

end CrossChainPingPong.Evm
