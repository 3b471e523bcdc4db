import CrossChainPingPong.Evm.Delivery

namespace CrossChainPingPong.Evm
open Guard

variable {I : Immutables} {lz : OApp} {s s' : Storage} {out : List Sent}

-- without options of the caller combineOptions gives the enforced ones
def OApp.AddsNothing (I : Immutables) (lz : OApp) (s : Storage) : Prop :=
  lz.combineOptions I.peerEid sendBallType [] = some (combineOptionsEmpty I s)

def OApp.takesServe (I : Immutables) (lz : OApp) (msg : Msg I) (options : Bytes) : Prop :=
  ∃ combinedOptions receipt, lz.combineOptions I.peerEid sendBallType options = some combinedOptions ∧
    lz.lzSend I.peerEid (encodeMessage initialBallValue 0) combinedOptions ⟨msg.value, 0⟩ msg.sender =
      some receipt

structure QuoteDecides (I : Immutables) (lz : OApp) (s : Storage) : Prop where
  serve : ∀ msg maxRallies options,
    Succeeds (apply (.serve lz msg maxRallies options : Tx I) s) ↔
      s.gameState.gameActive = false ∧ 0 < maxRallies.toNat ∧ maxRallies.toNat ≤ 100 ∧
        (∃ fee, quote I lz initialBallValue 0 options false = .ok fee ∧ fee.nativeFee ≤ msg.value) ∧
        lz.takesServe I msg options
  reply : lz.admits = true → lz.AddsNothing I s → ∀ value origin guid v r,
    origin.srcEid = I.peerEid → s.processedGuid guid = false → s.gameState.hasBall = false →
      0 < v.toNat → r.toNat + 1 < s.cap.toNat →
        (Succeeds (apply (.lzReceive lz value origin guid (encodeMessage v r) : Tx I) s) ↔
          ∃ fee, quote I lz (v - 1) (r + 1) [] false = .ok fee ∧
            fee.nativeFee ≤ s.balance + value ∧
            ∃ receipt, replyReceipt I lz s (encodeMessage (v - 1) (r + 1)) fee.nativeFee = some receipt)

structure Priced (c : Commit Storage (Tx I) Sent) : Prop where
  serve : ∀ lz msg maxRallies options, c.action = .serve lz msg maxRallies options →
    ∃ fee p, quote I lz initialBallValue 0 options false = .ok fee ∧ c.out = [p] ∧
      p.message = encodeMessage initialBallValue 0 ∧ p.nativeFee = msg.value ∧
      fee.nativeFee ≤ p.nativeFee
  reply : ∀ lz value origin guid message, c.action = .lzReceive lz value origin guid message →
    lz.AddsNothing I c.before → ∀ p ∈ c.out, ∃ fee v r,
      quote I lz v r [] false = .ok fee ∧ p.message = encodeMessage v r ∧
        p.nativeFee = fee.nativeFee ∧ p.nativeFee ≤ c.before.balance + value

theorem quote_eq_ok {v r : Uint256} {options : Bytes} {payInLzToken : Bool} {fee : MessagingFee} :
    quote I lz v r options payInLzToken = .ok fee ↔
      ∃ combined, lz.combineOptions I.peerEid sendBallType options = some combined ∧
        lz.quote I.peerEid (encodeMessage v r) combined payInLzToken = some fee := by
  simp only [quote, bind_eq_ok, okOr_eq_ok]

theorem quote_eq_replyQuote {v r : Uint256} {fee : MessagingFee} (adds : lz.AddsNothing I s) :
    quote I lz v r [] false = .ok fee ↔ replyQuote I lz s (encodeMessage v r) = some fee := by
  have hcombined : lz.combineOptions I.peerEid sendBallType [] = some (combineOptionsEmpty I s) := adds
  simp only [quote_eq_ok, hcombined, Option.some.injEq, exists_eq_left', replyQuote]

theorem serve_succeeds_iff {msg : Msg I} {maxRallies : Uint256} {options : Bytes} :
    Succeeds (apply (.serve lz msg maxRallies options : Tx I) s) ↔
      s.gameState.gameActive = false ∧ 0 < maxRallies.toNat ∧ maxRallies.toNat ≤ 100 ∧
        (∃ fee, quote I lz initialBallValue 0 options false = .ok fee ∧ fee.nativeFee ≤ msg.value) ∧
        lz.takesServe I msg options := by
  have hbound : ¬ (maxRallies = 0 ∨ maxRalliesCap < maxRallies) ↔
      0 < maxRallies.toNat ∧ maxRallies.toNat ≤ 100 := by
    have hcap : maxRalliesCap.toNat = 100 := rfl
    have hzero : maxRallies = 0 ↔ maxRallies.toNat = 0 := BitVec.toNat_inj.symm
    rw [not_or, BitVec.lt_def, hcap, hzero]
    omega
  simp only [apply, Evm.serve, serveOpen, lzSend, succeeds_bind, bind_eq_ok, revertIf_eq_ok, okOr_eq_ok,
    pure_eq_ok, Prod.exists, Prod.mk.injEq, exists_const, succeeds_pure, and_true]
  constructor
  · rintro ⟨t, message, combined, ⟨idle, bound, _, hcombine, fee, hquote, hvalue, rfl, rfl, rfl⟩, u, sent,
      receipt, hsend, -⟩
    obtain ⟨pos, le⟩ := hbound.mp bound
    refine ⟨Bool.eq_false_of_not_eq_true idle, pos, le, ⟨fee, ?_, Nat.not_lt.mp hvalue⟩, ?_⟩
    · exact quote_eq_ok.mpr ⟨_, hcombine, hquote⟩
    · exact ⟨_, receipt, hcombine, hsend⟩
  · rintro ⟨idle, pos, le, ⟨fee, hquote, hvalue⟩, combined, receipt, hcombine, hsend⟩
    obtain ⟨combined', hcombine', hquote⟩ := quote_eq_ok.mp hquote
    obtain rfl : combined = combined' := Option.some.inj (hcombine.symm.trans hcombine')
    refine ⟨_, _, _, ⟨?_, hbound.mpr ⟨pos, le⟩, combined, hcombine, fee, hquote, ?_, rfl, rfl, rfl⟩, _, _,
      receipt, hsend, rfl, rfl⟩
    · exact Bool.eq_false_iff.mp idle
    · exact Nat.not_lt.mpr hvalue

theorem sendBack_sent (h : sendBack I lz s = .ok (s', out)) :
    let message := encodeMessage s.ballValue s.rallyCount
    ∃ fee receipt, replyQuote I lz s message = some fee ∧ fee.nativeFee ≤ s.balance ∧
      replyReceipt I lz s message fee.nativeFee = some receipt ∧
      (s', out) = replied I s message fee.nativeFee receipt := by
  intro message
  have hguards : s.gameState.gameActive = true ∧ s.gameState.hasBall = true := by
    simp only [sendBack, bind_eq_ok, revertIf_eq_ok, exists_const, Bool.not_eq_false] at h
    exact ⟨h.1, h.2.1⟩
  rw [sendBack_eq hguards.1 hguards.2 (sendBack_outcome h).1] at h
  cases hquote : replyQuote I lz s message with
  | none =>
    rw [hquote] at h
    cases h
  | some fee =>
    rw [hquote] at h
    dsimp only at h
    split at h
    case isTrue hlow => cases h
    case isFalse hlow =>
      cases hreceipt : replyReceipt I lz s message fee.nativeFee with
      | none =>
        rw [hreceipt] at h
        cases h
      | some receipt =>
        rw [hreceipt] at h
        exact ⟨fee, receipt, rfl, Nat.not_lt.mp hlow, hreceipt, (Except.ok.inj h).symm⟩

theorem deliver_sent {guid : Bytes32} {v r : Uint256}
    (h : deliver I lz guid v r s = .ok (s', out)) (adds : lz.AddsNothing I s) :
    ∀ p ∈ out, ∃ fee v r, quote I lz v r [] false = .ok fee ∧ p.message = encodeMessage v r ∧
      p.nativeFee = fee.nativeFee ∧ p.nativeFee ≤ s.balance := by
  unfold deliver at h
  split at h
  · cases h
  split at h
  · cases h
  split at h
  · cases h
    exact List.forall_mem_nil _
  · obtain ⟨fee, receipt, hquote, hfunds, -, hsent⟩ := sendBack_sent h
    obtain ⟨-, rfl⟩ := Prod.mk.inj hsent
    intro p hp
    obtain rfl := List.mem_singleton.mp hp
    exact ⟨fee, _, _, (quote_eq_replyQuote adds).mpr hquote, rfl, rfl, hfunds⟩

theorem cannotReply_iff {funds : Wei} {v r : Uint256} (adds : lz.AddsNothing I s) :
    ¬ CannotReply I lz s funds (encodeMessage v r) ↔
      ∃ fee, quote I lz v r [] false = .ok fee ∧ fee.nativeFee ≤ funds ∧
        ∃ receipt, replyReceipt I lz s (encodeMessage v r) fee.nativeFee = some receipt := by
  simp only [quote_eq_replyQuote adds, CannotReply]
  cases hquote : replyQuote I lz s (encodeMessage v r) with
  | none => simp
  | some fee =>
    rw [not_or, Nat.not_lt, ← ne_eq, Option.ne_none_iff_exists']
    simp only [Option.some.injEq, exists_eq_left']

theorem reply_succeeds_iff {value : Wei} {origin : Origin} {guid : Bytes32} {v r : Uint256}
    (admitted : lz.admits = true) (adds : lz.AddsNothing I s) (peer : origin.srcEid = I.peerEid)
    (fresh : s.processedGuid guid = false) (free : s.gameState.hasBall = false) (pos : 0 < v.toNat)
    (lt : r.toNat + 1 < s.cap.toNat) :
    Succeeds (apply (.lzReceive lz value origin guid (encodeMessage v r) : Tx I) s) ↔
      ∃ fee, quote I lz (v - 1) (r + 1) [] false = .ok fee ∧ fee.nativeFee ≤ s.balance + value ∧
        ∃ receipt, replyReceipt I lz s (encodeMessage (v - 1) (r + 1)) fee.nativeFee = some receipt := by
  have hexact : DeliveryExact I lz guid v r (s.balance + value) s
      (apply (.lzReceive lz value origin guid (encodeMessage v r) : Tx I) s) :=
    apply_exact admitted peer fresh (abiDecode_abiEncode v r)
  have hcap := s.cap.isLt
  rw [← cannotReply_iff adds]
  constructor
  · rintro ⟨result, hok⟩ hcannot
    obtain ⟨e, he⟩ := hexact.reverts.mpr (.inr (.inr ⟨pos, lt, hcannot⟩))
    cases hok.symm.trans he
  · intro hcan
    cases hresult : apply (.lzReceive lz value origin guid (encodeMessage v r) : Tx I) s with
    | ok result => exact ⟨result, rfl⟩
    | error e =>
      rcases hexact.reverts.mp ⟨e, hresult⟩ with hball | hmax | ⟨-, -, hcannot⟩
      · exact absurd (hball.symm.trans free) (by decide)
      · omega
      · exact absurd hcannot hcan

theorem quoteDecides (I : Immutables) (lz : OApp) (s : Storage) : QuoteDecides I lz s where
  serve _ _ _ := serve_succeeds_iff
  reply admitted adds _ _ _ _ _ := reply_succeeds_iff admitted adds

theorem priced_commit {c : Commit Storage (Tx I) Sent} (hc : (machine I).Commits c) : Priced c := by
  obtain ⟨s, tx, s', out⟩ := c
  have happly : apply tx s = .ok (s', out) := hc
  constructor
  · rintro lz msg maxRallies options rfl
    have hserve : serve I lz msg.sender msg.value maxRallies options s = .ok (s', out) := happly
    simp only [serve, serveOpen, lzSend, bind_eq_ok, revertIf_eq_ok, okOr_eq_ok, pure_eq_ok,
      Prod.exists, Prod.mk.injEq, exists_const] at hserve
    obtain ⟨t, message, combined, ⟨-, -, _, hcombine, fee, hquote, hvalue, rfl, rfl, rfl⟩, u, sent,
      ⟨receipt, hsend, rfl, rfl⟩, rfl, rfl⟩ := hserve
    exact ⟨fee, _, quote_eq_ok.mpr ⟨_, hcombine, hquote⟩, rfl, rfl, rfl, Nat.not_lt.mp hvalue⟩
  · rintro lz value origin guid message rfl adds
    obtain ⟨-, ⟨-, rfl, rfl⟩ | ⟨-, v, r, -, hdeliver⟩⟩ := lzReceive_cases (lzReceive_of_apply happly)
    · exact List.forall_mem_nil _
    · exact deliver_sent hdeliver adds

theorem quote_is_the_price (I : Immutables) (owner : Address) (balance : Wei) (txs : List (Tx I)) :
    (∀ c ∈ (machine I).history (deployed owner balance) txs, Priced c) ∧
      ∀ lz, QuoteDecides I lz ((machine I).run (deployed owner balance) txs) :=
  ⟨fun _ hc => priced_commit ((machine I).commits_of_mem hc), fun lz => quoteDecides I lz _⟩

end CrossChainPingPong.Evm
