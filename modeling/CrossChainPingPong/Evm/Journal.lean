import CrossChainPingPong.Evm.Causes
import CrossChainPingPong.Evm.Events
import CrossChainPingPong.Evm.Funds

namespace CrossChainPingPong.Evm
open Guard Logged

def OApp.estimates (lz : OApp) (p : Sent) : List Emission :=
  match lz.quote p.dstEid p.message p.options false with
  | some fee => [.event (.feeEstimated fee.nativeFee fee.lzTokenFee)]
  | none => []

section
variable (I : Immutables) (endpoint : Address) (lz : OApp) (now : Uint256)

def handedBack (p : Sent) : Wei := if p.refundAddress = I.self then p.nativeFee - lz.keeps p else 0

def sendLog (p : Sent) : List Emission :=
  .sent p :: if 0 < handedBack I lz p then [.event (.contractFunded endpoint (handedBack I lz p))] else []

def serveLog (maxRallies : Uint256) (p : Sent) : List Emission :=
  .event (.gameStarted initialBallValue maxRallies now) :: (lz.estimates p ++
    (sendLog I endpoint lz p ++ [.event (.ballServed initialBallValue 0 p.guid)]))

def replyLog (v count : Uint256) (p : Sent) : List Emission :=
  lz.estimates p ++ (sendLog I endpoint lz p ++ [.event (.ballReturned v count p.guid)])

def closeLog (v count : Uint256) : List Sent → List Emission
  | [] => [.event (.gameEnded count now (if v = 0 then "Ball reached 0" else "Max rallies reached"))]
  | p :: _ => replyLog I endpoint lz (v - 1) count p

def deliverLog (s : Storage) (v count : Uint256) (out : List Sent) : List Emission :=
  (if s.gameState.gameActive = true then [] else [.event (.gameStarted v maxRalliesCap now)]) ++
    (.event (.ballReceived v count now) :: closeLog I endpoint lz now v count out)

variable {I}

def journal : Tx I → Storage → List Sent → List Emission
  | .serve lz _ maxRallies _, _, out => out.flatMap (serveLog I endpoint lz now maxRallies)
  | .fund msg, _, _ | .receive msg, _, _ | .fallback msg, _, _ =>
      [.event (.contractFunded msg.sender msg.value)]
  | .pauseGame _, s, _ => [.event (.gameEnded s.rallyCount now "Paused by owner")]
  | .sendBackWithValue .., _, _ | .setPeer .., _, _ | .setEnforcedOptions .., _, _ => []
  | .setDelegate .., _, _ | .transferOwnership .., _, _ | .renounceOwnership _, _, _ => []
  | .withdraw _ recipient amount _, _, _ =>
      if recipient = I.self then [.event (.contractFunded I.self amount)] else []
  | .lzReceive lz _ _ guid message, s, out =>
      if s.processedGuid guid = true then []
      else match abiDecode message with
        | some (v, r) => deliverLog I endpoint lz now s v (r + 1) out
        | none => []

end

section
variable {I : Immutables} {endpoint : Address} {lz : OApp} {now : Uint256} {s s' : Storage}
  {log : List Emission}

theorem emit_bind_eq_ok {α : Type} {e : Event} {f : PUnit → Emitting α} {a : α} :
    (emit e >>= f).run = .ok (a, log) ↔
      ∃ rest, (f ⟨⟩).run = .ok (a, rest) ∧ log = .event e :: rest := tell_bind_eq_ok

theorem emitIf_bind_eq_ok {α : Type} {p : Prop} [Decidable p] {e : Event} {f : PUnit → Emitting α}
    {a : α} : (emitIf p e >>= f).run = .ok (a, log) ↔
      ∃ rest, (f ⟨⟩).run = .ok (a, rest) ∧ log = (if p then [.event e] else []) ++ rest :=
  tell_bind_eq_ok

theorem logs_lzSend (message options : Bytes) (value : Wei) (refundAddress : Address) (s : Storage) :
    Logs (Emitting.lzSend I endpoint lz message options ⟨value, 0⟩ refundAddress s)
      (lzSend I lz message options ⟨value, 0⟩ refundAddress s)
      fun r => sendLog I endpoint lz r.2 := by
  rintro ⟨s', p⟩ log
  simp only [Emitting.lzSend, lzSend, lift_bind_eq_ok, tell_bind_eq_ok, emitIf_bind_eq_ok,
    run_pure_eq_ok, Guard.bind_eq_ok, okOr_eq_ok, pure_eq_ok, Prod.mk.injEq]
  constructor
  · rintro ⟨receipt, hsend, _, ⟨_, ⟨⟨rfl, rfl⟩, rfl⟩, rfl⟩, rfl⟩
    refine ⟨⟨receipt, hsend, rfl, rfl⟩, ?_⟩
    simp [sendLog, handedBack, OApp.keeps, hsend]
  · rintro ⟨⟨receipt, hsend, rfl, rfl⟩, rfl⟩
    refine ⟨receipt, hsend, _, ⟨_, ⟨⟨rfl, rfl⟩, rfl⟩, rfl⟩, ?_⟩
    simp [sendLog, handedBack, OApp.keeps, hsend]

theorem lzSend_bind_eq_ok {α : Type} {message options : Bytes} {value : Wei}
    {refundAddress : Address} {f : Storage × Sent → Emitting α} {a : α} :
    (Emitting.lzSend I endpoint lz message options ⟨value, 0⟩ refundAddress s >>= f).run =
        .ok (a, log) ↔
      ∃ r, lzSend I lz message options ⟨value, 0⟩ refundAddress s = .ok r ∧
        ∃ rest, (f r).run = .ok (a, rest) ∧ log = sendLog I endpoint lz r.2 ++ rest :=
  (logs_lzSend message options value refundAddress s).bind_eq_ok

theorem estimates_of_sent {message options : Bytes} {value : Wei} {refundAddress : Address} {p : Sent}
    {fee : MessagingFee} (hquote : lz.quote I.peerEid message options false = some fee)
    (hsend : lzSend I lz message options ⟨value, 0⟩ refundAddress s = .ok (s', p)) :
    lz.estimates p = [.event (.feeEstimated fee.nativeFee fee.lzTokenFee)] := by
  simp only [lzSend, Guard.bind_eq_ok, okOr_eq_ok, pure_eq_ok, Prod.mk.injEq] at hsend
  obtain ⟨receipt, -, -, rfl⟩ := hsend
  simp only [OApp.estimates, hquote]

theorem serve_run {sender : Address} {value : Wei} {maxRallies : Uint256} {options : Bytes} :
    (Emitting.serve I endpoint lz now sender value maxRallies options s).run = .ok (s', log) ↔
      ∃ p, serve I lz sender value maxRallies options s = .ok (s', [p]) ∧
        log = serveLog I endpoint lz now maxRallies p := by
  simp only [Emitting.serve, serve, serveOpen, lift_bind_eq_ok, emit_bind_eq_ok, lzSend_bind_eq_ok,
    run_pure_eq_ok, Guard.bind_eq_ok, okOr_eq_ok, revertIf_eq_ok, pure_eq_ok, Prod.mk.injEq, Prod.exists,
    exists_const]
  constructor
  · rintro ⟨hidle, hcap, _, ⟨combined, hoptions, fee, hquote, _, ⟨hpaid, t, p, hsend, _, ⟨_, ⟨rfl, rfl⟩,
      rfl⟩, rfl⟩, rfl⟩, rfl⟩
    refine ⟨p, ⟨_, _, _, ⟨hidle, hcap, combined, hoptions, fee, hquote, hpaid, rfl, rfl, rfl⟩, t, p,
      hsend, rfl, rfl⟩, ?_⟩
    obtain ⟨-, balance, rfl⟩ := lzSend_message hsend
    rw [serveLog, estimates_of_sent hquote hsend]
    rfl
  · rintro ⟨p, ⟨_, _, _, ⟨hidle, hcap, combined, hoptions, fee, hquote, hpaid, rfl, rfl, rfl⟩, t, q,
      hsend, rfl, hp⟩, rfl⟩
    obtain rfl := List.singleton_inj.mp hp
    refine ⟨hidle, hcap, _, ⟨combined, hoptions, fee, hquote, _, ⟨hpaid, t, q, hsend, _, ⟨_, ⟨rfl, rfl⟩,
      rfl⟩, rfl⟩, rfl⟩, ?_⟩
    obtain ⟨-, balance, rfl⟩ := lzSend_message hsend
    rw [serveLog, estimates_of_sent hquote hsend]
    rfl

theorem sendBackWithValue_run {sender : Address} {value : Wei} {message options : Bytes} :
    (Emitting.sendBackWithValue I endpoint lz sender value message options s).run = .ok (s', log) ↔
      ∃ p, sendBackWithValue I lz sender value message options s = .ok (s', [p]) ∧
        log = sendLog I endpoint lz p ++ [.event (.ballReturned s'.ballValue s'.rallyCount p.guid)] := by
  simp only [Emitting.sendBackWithValue, sendBackWithValue, lift_bind_eq_ok, emit_bind_eq_ok,
    lzSend_bind_eq_ok, run_pure_eq_ok, Guard.bind_eq_ok, revertIf_eq_ok, pure_eq_ok, Prod.mk.injEq,
    Prod.exists, exists_const]
  constructor
  · rintro ⟨hself, t, p, hsend, _, ⟨_, ⟨rfl, rfl⟩, rfl⟩, rfl⟩
    exact ⟨p, ⟨hself, t, p, hsend, rfl, rfl⟩, rfl⟩
  · rintro ⟨p, ⟨hself, t, q, hsend, rfl, hp⟩, rfl⟩
    obtain rfl := List.singleton_inj.mp hp
    exact ⟨hself, t, q, hsend, _, ⟨_, ⟨rfl, rfl⟩, rfl⟩, rfl⟩

theorem sendBack_run : (Emitting.sendBack I endpoint lz s).run = .ok (s', log) ↔
    ∃ p, sendBack I lz s = .ok (s', [p]) ∧
      log = replyLog I endpoint lz s.ballValue s.rallyCount p := by
  simp only [Emitting.sendBack, sendBack, lift_bind_eq_ok, emit_bind_eq_ok, mapError_bind_eq_ok,
    sendBackWithValue_run, run_pure_eq_ok, Guard.bind_eq_ok, mapError_eq_ok, okOr_eq_ok,
    revertIf_eq_ok, pure_eq_ok, Prod.mk.injEq, Prod.exists, exists_const]
  have hlog {fee : MessagingFee} {t : Storage} {p : Sent}
      (hquote : lz.quote I.peerEid (encodeMessage s.ballValue s.rallyCount)
        (combineOptionsEmpty I s) false = some fee)
      (hback : sendBackWithValue I lz I.self fee.nativeFee (encodeMessage s.ballValue s.rallyCount)
        (combineOptionsEmpty I s) s = .ok (t, [p])) :
      replyLog I endpoint lz s.ballValue s.rallyCount p =
        .event (.feeEstimated fee.nativeFee fee.lzTokenFee) :: (sendLog I endpoint lz p ++
          [.event (.ballReturned t.ballValue t.rallyCount p.guid)] ++ []) := by
    simp only [sendBackWithValue, Guard.bind_eq_ok, pure_eq_ok, Prod.mk.injEq, Prod.exists] at hback
    obtain ⟨_, -, t', q, hsend, rfl, hp⟩ := hback
    obtain rfl := List.singleton_inj.mp hp
    rw [replyLog, estimates_of_sent hquote hsend]
    obtain ⟨-, balance, rfl⟩ := lzSend_message hsend
    rw [List.append_nil]
    rfl
  constructor
  · rintro ⟨hactive, hball, hcap, fee, hquote, _, ⟨hfunds, t, _, ⟨p, hback, rfl⟩, _, ⟨rfl, rfl⟩, rfl⟩,
      rfl⟩
    exact ⟨p, ⟨hactive, hball, hcap, fee, hquote, hfunds, t, [p], hback, rfl, rfl⟩,
      (hlog hquote hback).symm⟩
  · rintro ⟨p, ⟨hactive, hball, hcap, fee, hquote, hfunds, t, _, hback, rfl, rfl⟩, rfl⟩
    exact ⟨hactive, hball, hcap, fee, hquote, _, ⟨hfunds, t, _, ⟨p, hback, rfl⟩, _, ⟨rfl, rfl⟩, rfl⟩,
      hlog hquote hback⟩

section
variable {guid : Bytes32} {v r count limit : Uint256}

theorem ended_run {t : Storage} {reason : String} :
    (emit (.gameEnded count now reason) >>= fun _ => pure t : Emitting Storage).run = .ok (s', log) ↔
      t = s' ∧ log = [.event (.gameEnded count now reason)] := by
  simp only [emit_bind_eq_ok, run_pure_eq_ok]
  constructor
  · rintro ⟨_, ⟨rfl, rfl⟩, rfl⟩
    exact ⟨rfl, rfl⟩
  · rintro ⟨rfl, rfl⟩
    exact ⟨_, ⟨rfl, rfl⟩, rfl⟩

theorem settle_run (hl : limit.toNat = s.cap.toNat) :
    (let t := s.received guid v count ⟨s.cap, true, true⟩ s.balance;
      WriterT.run (if t.ballValue = 0 then
        emit (.gameEnded t.rallyCount now "Ball reached 0") >>= fun _ => pure (t.setGameActive false)
      else if limit ≤ t.rallyCount then
        emit (.gameEnded t.rallyCount now "Max rallies reached") >>= fun _ =>
          pure (t.setGameActive false)
      else Emitting.sendBack I endpoint lz { t with ballValue := t.ballValue - 1 })) =
        .ok (s', log) ↔
    ∃ out, (if v = 0 ∨ s.cap.toNat ≤ count.toNat then
        .ok (s.received guid v count ⟨s.cap, true, false⟩ s.balance, [])
      else sendBack I lz (s.received guid (v - 1) count ⟨s.cap, true, true⟩ s.balance)) =
        .ok (s', out) ∧ log = closeLog I endpoint lz now v count out := by
  have hle : limit ≤ count ↔ s.cap.toNat ≤ count.toNat := by rw [BitVec.le_def, hl]
  have hend {reason : String} (hreason : reason = if v = 0 then "Ball reached 0" else "Max rallies reached")
      (hlast : v = 0 ∨ s.cap.toNat ≤ count.toNat) :
      (s.received guid v count ⟨s.cap, true, false⟩ s.balance = s' ∧
        log = [.event (.gameEnded count now reason)]) ↔
      ∃ out, (if v = 0 ∨ s.cap.toNat ≤ count.toNat then
          .ok (s.received guid v count ⟨s.cap, true, false⟩ s.balance, [])
        else sendBack I lz (s.received guid (v - 1) count ⟨s.cap, true, true⟩ s.balance)) =
          .ok (s', out) ∧ log = closeLog I endpoint lz now v count out := by
    rw [if_pos hlast, hreason]
    constructor
    · rintro ⟨rfl, rfl⟩
      exact ⟨[], rfl, rfl⟩
    · rintro ⟨out, ⟨⟩, rfl⟩
      exact ⟨rfl, rfl⟩
  by_cases hz : v = 0
  · rw [← hend (if_pos hz).symm (.inl hz), ← ended_run]
    exact iff_of_eq (congrArg (fun x => WriterT.run x = _) (if_pos hz))
  · by_cases hc : s.cap.toNat ≤ count.toNat
    · rw [← hend (if_neg hz).symm (.inr hc), ← ended_run]
      exact iff_of_eq (congrArg (fun x => WriterT.run x = _)
        ((if_neg hz).trans (if_pos (hle.mpr hc))))
    · rw [if_neg (not_or_intro hz hc)]
      have hrun : ∀ x y z : Emitting Storage, (if v = 0 then x else if limit ≤ count then y else z) = z :=
        fun x y z => (if_neg hz).trans (if_neg (mt hle.mp hc))
      refine (iff_of_eq (congrArg (fun x => WriterT.run x = .ok (s', log)) (hrun _ _ _))).trans ?_
      rw [sendBack_run]
      constructor
      · rintro ⟨p, hp, rfl⟩
        exact ⟨[p], hp, rfl⟩
      · rintro ⟨out, hout, rfl⟩
        obtain ⟨-, p, balance, -, -, rfl⟩ := sendBack_outcome hout
        exact ⟨p, hout, rfl⟩

theorem deliver_eq_ok {out : List Sent} : deliver I lz guid v r s = .ok (s', out) ↔
    ¬ s.gameState.hasBall = true ∧ ∃ count, checkedAdd r 1 = some count ∧
      (if v = 0 ∨ s.cap.toNat ≤ count.toNat then
        .ok (s.received guid v count ⟨s.cap, true, false⟩ s.balance, [])
      else sendBack I lz (s.received guid (v - 1) count ⟨s.cap, true, true⟩ s.balance)) =
        .ok (s', out) := by
  unfold deliver
  by_cases hball : s.gameState.hasBall = true
  · simp only [hball, if_true, reduceCtorEq, not_true, false_and]
  · rw [if_neg hball]
    cases checkedAdd r 1 <;> simp [hball]

theorem receive_run {origin : Origin} {message : Bytes} (peer : origin.srcEid = I.peerEid)
    (fresh : s.processedGuid guid = false) (decoded : abiDecode message = some (v, r)) :
    (Emitting.lzReceive I endpoint lz now origin guid message s).run = .ok (s', log) ↔
      ∃ out, deliver I lz guid v r s = .ok (s', out) ∧
        log = deliverLog I endpoint lz now s v (r + 1) out := by
  simp only [Emitting.lzReceive, lift_bind_eq_ok, revertIf_eq_ok, peer, ne_eq, not_true,
    not_false_iff, Bool.false_eq_true, if_false, fresh, decoded, exists_const, okOr_eq_ok,
    Option.some.injEq, exists_eq_left', true_and, deliver_eq_ok]
  by_cases hact : s.gameState.gameActive = false
  · have hcap : maxRalliesCap.setWidth 128 = s.cap := (Storage.cap_of_idle hact).symm
    have hl : maxRalliesCap.toNat = s.cap.toNat := by rw [← hcap]; rfl
    rw [if_pos hact]
    simp only [Emitting.initializeGameFromPeer, hcap, lift_bind_eq_ok, revertIf_eq_ok, okOr_eq_ok,
      emit_bind_eq_ok, exists_const]
    constructor
    · rintro ⟨hball, count, hadd, _, ⟨rest, hrest, rfl⟩, rfl⟩
      obtain ⟨out, hout, rfl⟩ := (settle_run hl).mp hrest
      obtain rfl := eq_add_one (checkedAdd_eq_some.mp hadd)
      refine ⟨out, ⟨hball, _, hadd, hout⟩, ?_⟩
      simp [deliverLog, hact]
    · rintro ⟨out, ⟨hball, count, hadd, hout⟩, rfl⟩
      obtain rfl := eq_add_one (checkedAdd_eq_some.mp hadd)
      refine ⟨hball, _, hadd, _, ⟨_, (settle_run hl).mpr ⟨out, hout, rfl⟩, rfl⟩, ?_⟩
      simp [deliverLog, hact]
  · have hactive : s.gameState.gameActive = true := Bool.eq_true_of_not_eq_false hact
    have hcap : s.gameState.maxRallies = s.cap := (Storage.cap_of_active hactive).symm
    have hl : (s.cap.setWidth 256).toNat = s.cap.toNat := BitVec.toNat_setWidth_of_le (by decide)
    rw [if_neg hact]
    simp only [hcap, hactive, lift_bind_eq_ok, revertIf_eq_ok, okOr_eq_ok, emit_bind_eq_ok,
      exists_const]
    constructor
    · rintro ⟨hball, count, hadd, rest, hrest, rfl⟩
      obtain ⟨out, hout, rfl⟩ := (settle_run hl).mp hrest
      obtain rfl := eq_add_one (checkedAdd_eq_some.mp hadd)
      refine ⟨out, ⟨hball, _, hadd, hout⟩, ?_⟩
      simp [deliverLog, hactive]
    · rintro ⟨out, ⟨hball, count, hadd, hout⟩, rfl⟩
      obtain rfl := eq_add_one (checkedAdd_eq_some.mp hadd)
      refine ⟨hball, _, hadd, _, (settle_run hl).mpr ⟨out, hout, rfl⟩, ?_⟩
      simp [deliverLog, hactive]

theorem lzReceive_run {origin : Origin} {message : Bytes} :
    (Emitting.lzReceive I endpoint lz now origin guid message s).run = .ok (s', log) ↔
      ∃ out, lzReceive I lz origin guid message s = .ok (s', out) ∧
        log = journal endpoint now (.lzReceive lz 0 origin guid message : Tx I) s out := by
  by_cases peer : origin.srcEid = I.peerEid
  · by_cases done : s.processedGuid guid = true
    · simp only [Emitting.lzReceive, lzReceive, lift_bind_eq_ok, revertIf_eq_ok, peer, ne_eq, not_true,
        not_false_iff, done, if_true, exists_const, true_and, run_pure_eq_ok, Guard.bind_eq_ok,
        pure_eq_ok, Prod.mk.injEq, journal]
      constructor
      · rintro ⟨rfl, rfl⟩
        exact ⟨[], ⟨rfl, rfl⟩, rfl⟩
      · rintro ⟨out, ⟨rfl, -⟩, rfl⟩
        exact ⟨rfl, rfl⟩
    · have fresh : s.processedGuid guid = false := Bool.eq_false_of_not_eq_true done
      cases decoded : abiDecode message with
      | none =>
        simp only [Emitting.lzReceive, lzReceive, lift_bind_eq_ok, Guard.bind_eq_ok, okOr_eq_ok, peer,
          fresh, decoded, Bool.false_eq_true, if_false, reduceCtorEq, false_and, exists_false, and_false]
      | some m =>
        obtain ⟨v, r⟩ := m
        rw [receive_run peer fresh decoded, lzReceive_eq peer fresh decoded]
        simp only [journal, fresh, decoded, Bool.false_eq_true, if_false]
  · simp only [Emitting.lzReceive, lzReceive, lift_bind_eq_ok, Guard.bind_eq_ok, revertIf_eq_ok, peer,
      ne_eq, not_false_iff, not_true, false_and, exists_false]

end

theorem silent_run {x : Except Revert (Storage × List Sent)} :
    (Emitting.silent x).run = .ok (s', log) ↔ ∃ out, x = .ok (s', out) ∧ log = [] := by
  simp only [Emitting.silent, lift_bind_eq_ok, run_pure_eq_ok, Prod.exists]
  constructor
  · rintro ⟨t, out, hout, rfl, rfl⟩
    exact ⟨out, hout, rfl⟩
  · rintro ⟨out, hout, rfl⟩
    exact ⟨s', out, hout, rfl, rfl⟩

theorem apply_run {tx : Tx I} : (Emitting.apply endpoint now tx s).run = .ok (s', log) ↔
    ∃ out, apply tx s = .ok (s', out) ∧ log = journal endpoint now tx s out := by
  cases tx with
  | serve lz msg maxRallies options =>
    rw [Emitting.apply, serve_run]
    constructor
    · rintro ⟨p, hp, rfl⟩
      exact ⟨[p], hp, (List.append_nil _).symm⟩
    · rintro ⟨out, hout, rfl⟩
      cases serve_outcome hout with
      | @serve _ _ _ _ p => exact ⟨p, hout, List.append_nil _⟩
      | aside aside => cases aside
  | lzReceive lz value origin guid message =>
    simp only [Emitting.apply, apply, lift_bind_eq_ok, lzReceive_run, Guard.bind_eq_ok,
      revertIf_eq_ok, exists_const]
    exact exists_and_left.symm.trans (exists_congr fun out => and_assoc.symm)
  | sendBackWithValue lz msg message options =>
    have hreverts : sendBackWithValue I lz msg.sender msg.value message options s =
        .error .onlySelfCall := sendBackWithValue_external msg.external
    simp only [Emitting.apply, apply, sendBackWithValue_run, hreverts, reduceCtorEq, false_and,
      exists_false]
  | fund msg =>
    simp only [Emitting.apply, Emitting.fund, apply, fund, lift_bind_eq_ok, emit_bind_eq_ok,
      run_pure_eq_ok, Guard.bind_eq_ok, revertIf_eq_ok, pure_eq_ok, exists_const, Prod.mk.injEq]
    constructor
    · rintro ⟨hvalue, _, ⟨rfl, rfl⟩, rfl⟩
      exact ⟨[], ⟨hvalue, rfl, rfl⟩, rfl⟩
    · rintro ⟨out, ⟨hvalue, rfl, rfl⟩, rfl⟩
      exact ⟨hvalue, _, ⟨rfl, rfl⟩, rfl⟩
  | receive msg | fallback msg =>
    simp only [Emitting.apply, Emitting.receive, apply, emit_bind_eq_ok, run_pure_eq_ok, pure_eq_ok,
      Prod.mk.injEq]
    constructor
    · rintro ⟨_, ⟨rfl, rfl⟩, rfl⟩
      exact ⟨[], ⟨rfl, rfl⟩, rfl⟩
    · rintro ⟨out, ⟨rfl, rfl⟩, rfl⟩
      exact ⟨_, ⟨rfl, rfl⟩, rfl⟩
  | pauseGame sender =>
    simp only [Emitting.apply, Emitting.pauseGame, apply, pauseGame, onlyOwner, lift_bind_eq_ok,
      emit_bind_eq_ok, run_pure_eq_ok, Guard.bind_eq_ok, require_eq_ok, revertIf_eq_ok, pure_eq_ok,
      exists_const, Prod.mk.injEq]
    constructor
    · rintro ⟨howner, hactive, _, ⟨rfl, rfl⟩, rfl⟩
      exact ⟨[], ⟨howner, hactive, rfl, rfl⟩, rfl⟩
    · rintro ⟨out, ⟨howner, hactive, rfl, rfl⟩, rfl⟩
      exact ⟨howner, hactive, _, ⟨rfl, rfl⟩, rfl⟩
  | setPeer | setEnforcedOptions | setDelegate | transferOwnership | renounceOwnership =>
    exact silent_run
  | withdraw sender recipient amount accepted =>
    simp only [Emitting.apply, Emitting.withdraw, apply, lift_bind_eq_ok, emitIf_bind_eq_ok,
      run_pure_eq_ok, Prod.exists]
    constructor
    · rintro ⟨t, out, hout, _, ⟨rfl, rfl⟩, rfl⟩
      exact ⟨out, hout, List.append_nil _⟩
    · rintro ⟨out, hout, rfl⟩
      exact ⟨s', out, hout, _, ⟨rfl, rfl⟩, (List.append_nil _).symm⟩

end

end CrossChainPingPong.Evm
