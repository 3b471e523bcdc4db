import CrossChainPingPong.Evm.Budget
import CrossChainPingPong.Evm.Quote
import CrossChainPingPong.Evm.Replay
import CrossChainPingPong.Joint.Balls
import CrossChainPingPong.Joint.Games
import CrossChainPingPong.Table.Longest

namespace CrossChainPingPong.Joint
open Guard Machine

variable {d : Deployment} {highest : Evm.Wei}

namespace Act

def oapp : Act d → Option Evm.OApp
  | .evm tx _ => tx.oapp
  | .deliverEvm _ lz _ _ => some lz
  | .svm .. | .deliverSvm .. => none

def isWithdraw : Act d → Bool
  | .evm tx _ => tx.isWithdraw
  | .svm .. | .deliverEvm .. | .deliverSvm .. => false

structure Affordable (highest : Evm.Wei) (a : Act d) : Prop where
  cheap : ∀ lz, a.oapp = some lz → lz.QuotesAtMost highest
  keeps : a.isWithdraw = false

end Act

def NeverPoor (d : Deployment) (highest : Evm.Wei) : Prop :=
  ∀ as : List (Act d), (∀ b ∈ as, b.Affordable highest) → ∀ a : Act d, a.Affordable highest →
    apply a ((machine d).run (fresh d) as) ≠ .error (.evm .insufficientContractBalance)

def repliesPaid (c : Commit State (Act d) Packet) : Nat :=
  match c.action with
  | .deliverEvm .. => c.out.length
  | _ => 0

structure Solvent (highest balance : Evm.Wei) (h : List (Commit State (Act d) Packet)) (s : State) :
    Prop where
  balance : balance ≤ s.evm.balance + (h.map repliesPaid).sum * highest
  messages : (emitted h).countP Packet.sentByEvm =
    h.countP (fun c => c.action.isServe) + (h.map repliesPaid).sum

structure Spends (highest : Evm.Wei) (c : Commit State (Act d) Packet) : Prop where
  balance : c.before.evm.balance ≤ c.after.evm.balance + repliesPaid c * highest
  messages : c.out.countP Packet.sentByEvm =
    (if c.action.isServe = true then 1 else 0) + repliesPaid c

theorem countP_fromEvm (sent : List Evm.Sent) :
    (sent.map fromEvm).countP Packet.sentByEvm = sent.length := by
  rw [List.countP_map, List.countP_eq_length]
  intro p _
  rfl

theorem countP_fromSvm (sent : List Svm.Sent) :
    (sent.map fromSvm).countP Packet.sentByEvm = 0 := by
  rw [List.countP_map, List.countP_eq_zero]
  rintro p _ ⟨⟩

theorem spends_of_commits {c : Commit State (Act d) Packet} (hc : (machine d).Commits c)
    (affordable : c.action.Affordable highest) : Spends highest c := by
  obtain ⟨cheap, keeps⟩ := affordable
  obtain ⟨s, a, s', out⟩ := c
  have happly : apply a s = .ok (s', out) := hc
  cases a with
  | evm tx isLocal =>
    obtain ⟨evm, sent, ho, rfl, rfl⟩ := runEvm_eq_ok.mp happly
    have hspent := Evm.balance_spent (c := ⟨s.evm, tx, evm, sent⟩) ho cheap keeps
    have houtcome := Evm.apply_outcome ho
    constructor
    · cases tx with
      | lzReceive => cases isLocal
      | _ => exact hspent
    · rw [countP_fromEvm]
      cases houtcome with
      | serve => rfl
      | pauseGame => rfl
      | aside aside =>
        cases tx with
        | serve | pauseGame | lzReceive => cases aside
        | _ => rfl
      | replay | finish | reply => cases isLocal
  | svm ix isLocal =>
    obtain ⟨svm, sent, -, rfl, rfl⟩ := runSvm_eq_ok.mp happly
    exact ⟨Nat.le_add_right _ _, countP_fromSvm sent⟩
  | deliverEvm i lz value nonce =>
    simp only [apply, bind_eq_ok, okOr_eq_ok, require_eq_ok, exists_const] at happly
    obtain ⟨p, -, -, happly⟩ := happly
    obtain ⟨evm, sent, ho, rfl, rfl⟩ := runEvm_eq_ok.mp happly
    have hspent := Evm.balance_spent (c := ⟨s.evm, d.delivery p lz value nonce, evm, sent⟩) ho cheap rfl
    have hlength : (sent.map fromEvm).length = sent.length := List.length_map _
    constructor
    · rw [repliesPaid, hlength]
      exact hspent
    · rw [countP_fromEvm, repliesPaid, hlength]
      exact (Nat.zero_add _).symm
  | deliverSvm i oapp accounts nonce extraData =>
    simp only [apply, bind_eq_ok, okOr_eq_ok, require_eq_ok, exists_const] at happly
    obtain ⟨p, -, -, happly⟩ := happly
    obtain ⟨svm, sent, -, rfl, rfl⟩ := runSvm_eq_ok.mp happly
    exact ⟨Nat.le_add_right _ _, countP_fromSvm sent⟩

theorem solvent_run (as : List (Act d)) (affordable : ∀ a ∈ as, a.Affordable highest) :
    Solvent highest d.balance ((machine d).history (fresh d) as) ((machine d).run (fresh d) as) := by
  have hstart : Solvent highest d.balance ([] : List (Commit State (Act d) Packet)) (fresh d) := by
    refine ⟨?_, rfl⟩
    rw [fresh_evm]
    exact Nat.le_add_right _ _
  have hspends : ∀ c ∈ (machine d).history (fresh d) as, Spends highest c := by
    intro c hc
    exact spends_of_commits ((machine d).commits_of_mem hc) (affordable _ ((machine d).action_of_mem hc))
  refine ((machine d).trace (fresh d) as).rule (Q := Spends highest) hstart ?_ hspends
  rintro h c ⟨hbalance, hmessages⟩ - ⟨hspent, hsent⟩
  constructor
  · rw [List.map_append, List.sum_append, List.map_singleton, List.sum_singleton, Nat.add_mul]
    calc d.balance ≤ c.before.evm.balance + (h.map repliesPaid).sum * highest := hbalance
      _ ≤ c.after.evm.balance + repliesPaid c * highest + (h.map repliesPaid).sum * highest :=
        Nat.add_le_add_right hspent _
      _ = c.after.evm.balance + ((h.map repliesPaid).sum * highest + repliesPaid c * highest) := by
        rw [Nat.add_assoc, Nat.add_comm (repliesPaid c * highest)]
  · rw [emitted_append, emitted_singleton, List.countP_append, List.countP_append,
      List.countP_singleton, List.map_append, List.sum_append, List.map_singleton, List.sum_singleton,
      hmessages, hsent]
    omega

theorem runEvm_error {tx : Evm.Tx d.evm} {pool : List Packet} {s : State} {e : Failure}
    (h : runEvm tx pool s = .error e) : ∃ r, Evm.apply tx s.evm = .error r ∧ e = .evm r := by
  rcases bind_eq_error.mp h with hfails | ⟨_, -, hpure⟩
  · obtain ⟨r, hr, rfl⟩ := mapError_eq_error.mp hfails
    exact ⟨r, hr, rfl⟩
  · exact absurd hpure pure_ne_error

theorem runSvm_error {ix : Svm.Ix} {pool : List Packet} {s : State} {e : Failure}
    (h : runSvm d ix pool s = .error e) : ∃ r, e = .svm r := by
  rcases bind_eq_error.mp h with hfails | ⟨_, -, hpure⟩
  · obtain ⟨r, -, rfl⟩ := mapError_eq_error.mp hfails
    exact ⟨r, rfl⟩
  · exact absurd hpure pure_ne_error

theorem deliverEvm_error {i : Nat} {lz : Evm.OApp} {value : Evm.Wei} {nonce : U64} {s : State}
    {r : Evm.Revert} (h : apply (.deliverEvm i lz value nonce : Act d) s = .error (.evm r)) :
    ∃ p, s.inFlight[i]? = some p ∧ p.dst = .evm ∧
      Evm.apply (d.delivery p lz value nonce) s.evm = .error r := by
  rcases bind_eq_error.mp h with hmissing | ⟨p, hp, h⟩
  · cases (okOr_eq_error.mp hmissing).2
  rcases bind_eq_error.mp h with hother | ⟨_, hdst, h⟩
  · cases (require_eq_error.mp hother).2
  obtain ⟨r', hr, hsame⟩ := runEvm_error h
  cases hsame
  exact ⟨p, okOr_eq_ok.mp hp, require_eq_ok.mp hdst, hr⟩

theorem deliverEvm_eq {i : Nat} {p : Packet} {lz : Evm.OApp} {value : Evm.Wei} {nonce : U64} {s : State}
    (here : s.inFlight[i]? = some p) (dst : p.dst = .evm) :
    apply (.deliverEvm i lz value nonce : Act d) s =
      runEvm (d.delivery p lz value nonce) (s.inFlight.eraseIdx i) s := by
  rw [apply, here, okOr_some_bind, dst]
  rfl

theorem poor_act {a : Act d} {s : State}
    (h : apply a s = .error (.evm .insufficientContractBalance)) :
    ∃ p lz value fee, p ∈ s.inFlight ∧ p.dst = .evm ∧ p.ball.rally + 1 < s.evm.cap.toNat ∧
      a.oapp = some lz ∧ (∃ dstEid message options,
        lz.quote dstEid message options false = some fee) ∧ s.evm.balance + value < fee.nativeFee := by
  cases a with
  | evm tx isLocal =>
    obtain ⟨r, hr, hsame⟩ := runEvm_error h
    cases hsame
    obtain ⟨lz, value, origin, guid, message, v, r, rfl, -⟩ := Evm.poor_delivery hr
    cases isLocal
  | svm ix isLocal =>
    obtain ⟨r, hsame⟩ := runSvm_error h
    cases hsame
  | deliverEvm i lz value nonce =>
    obtain ⟨p, hp, hdst, hr⟩ := deliverEvm_error h
    obtain ⟨_, _, _, _, _, v, r, htx, hdec, hlt, message, options, fee, hquote, hpoor⟩ :=
      Evm.poor_delivery hr
    cases htx
    refine ⟨p, lz, value, fee, List.mem_of_getElem? hp, hdst, ?_, rfl, ⟨_, _, _, hquote⟩, hpoor⟩
    rw [ball_of_abiDecode hdec]
    exact hlt
  | deliverSvm i oapp accounts nonce extraData =>
    rcases bind_eq_error.mp h with hmissing | ⟨p, -, h⟩
    · cases (okOr_eq_error.mp hmissing).2
    rcases bind_eq_error.mp h with hother | ⟨_, -, h⟩
    · cases (require_eq_error.mp hother).2
    obtain ⟨r, hsame⟩ := runSvm_error h
    cases hsame

theorem replies_left (as : List (Act d)) :
    (emitted ((machine d).history (fresh d) as)).countP Packet.sentByEvm +
        (((machine d).run (fresh d) as).inFlight.map Packet.ball).countP Ball.low ≤
      ((machine d).history (fresh d) as).countP (fun c => c.action.isServe) + 98 := by
  obtain ⟨-, -, -, hlow, hevm⟩ := Table.bounded_trace (table_trace d as)
  have hserves : (tableHistory d as).countP (fun c => c.action.isServe) =
      ((machine d).history (fresh d) as).countP fun c => c.action.isServe :=
    countP_tableHistory (fun c => isServe_move c.action) as
  have hfromEvm : Ball.toSvm ∘ Packet.ball = Packet.sentByEvm := rfl
  have hflying : ((machine d).run (fresh d) as).table.flying =
      ((machine d).run (fresh d) as).inFlight.map Packet.ball := rfl
  simp only [Table.tally, countP_emitted_tableHistory, hserves, hfromEvm, hflying] at hevm
  simp only [Table.tally, countP_emitted_tableHistory] at hlow
  omega

theorem neverPoor_of_funded (funded : 98 * highest ≤ d.balance) : NeverPoor d highest := by
  intro as affordable a last hfails
  obtain ⟨p, lz, value, fee, hp, hdst, hlt, hlz, ⟨dstEid, message, options, hquote⟩, hpoor⟩ :=
    poor_act hfails
  obtain ⟨hbalance, hmessages⟩ := solvent_run as affordable
  have hsound : Sound d ((machine d).run (fresh d) as) :=
    (simulation d).inv_run (sound_fresh d) as
  have hlow : 0 < (((machine d).run (fresh d) as).inFlight.map Packet.ball).countP Ball.low := by
    refine List.countP_pos_iff.mpr ⟨p.ball, List.mem_map_of_mem hp, decide_eq_true ⟨hdst, ?_⟩⟩
    exact hlt.trans_le hsound.cap_le
  have hleft := replies_left as
  have hfee : fee.nativeFee ≤ highest := last.cheap lz hlz _ _ _ _ hquote
  have hreplies : (((machine d).history (fresh d) as).map repliesPaid).sum ≤ 97 := by omega
  have hrich : highest ≤ ((machine d).run (fresh d) as).evm.balance := by
    refine Nat.le_of_add_le_add_right (b := 97 * highest) ?_
    calc highest + 97 * highest = 98 * highest := by ring
      _ ≤ d.balance := funded
      _ ≤ _ := hbalance
      _ ≤ _ := Nat.add_le_add_left (Nat.mul_le_mul_right highest hreplies) _
  exact absurd ((Nat.le_add_right _ value).trans_lt hpoor) (Nat.not_lt.mpr (hfee.trans hrich))

structure Reaches (highest : Evm.Wei) (n : Nat) (place : Table Bytes32 → Prop) (as : List (Act d)) :
    Prop where
  affordable : ∀ b ∈ as, b.Affordable highest
  place : place ((machine d).run (fresh d) as).table
  spent : ((machine d).run (fresh d) as).evm.balance + n * highest ≤ d.balance

def guidOf (n : Nat) : Bytes32 := BitVec.ofNat 256 n

theorem guidOf_injOn : Set.InjOn guidOf (Set.Iio 98) := by
  intro m hm n hn hsame
  have htoNat : (guidOf m).toNat = (guidOf n).toNat := congrArg BitVec.toNat hsame
  rw [Set.mem_Iio] at hm hn
  rwa [guidOf, guidOf, BitVec.toNat_ofNat, BitVec.toNat_ofNat, Nat.mod_eq_of_lt (by omega),
    Nat.mod_eq_of_lt (by omega)] at htoNat

def paidReply (d : Deployment) (highest : Evm.Wei) : Act d :=
  .deliverEvm 0 (Evm.obligingOApp 0 highest) 0 1

variable {n m : Nat} {P Q : Table Bytes32 → Prop} {as : List (Act d)} {a : Act d}

theorem Reaches.sound (_ : Reaches highest n P as) : Sound d ((machine d).run (fresh d) as) :=
  (simulation d).inv_run (sound_fresh d) as

theorem Reaches.snoc {s' : State} {out : List Packet} (h : Reaches highest n P as)
    (affordable : a.Affordable highest)
    (hok : apply a ((machine d).run (fresh d) as) = .ok (s', out)) (place : Q s'.table)
    (spent : s'.evm.balance + m * highest ≤ d.balance) : Reaches highest m Q (as ++ [a]) := by
  have hrun : (machine d).run (fresh d) (as ++ [a]) = s' := (machine d).run_snoc_ok hok
  refine ⟨fun b hb => ?_, ?_, ?_⟩
  · rcases List.mem_append.mp hb with hb | hb
    · exact h.affordable b hb
    · obtain rfl := List.mem_singleton.mp hb
      exact affordable
  · rwa [hrun]
  · rwa [hrun]

theorem affordable_svm (noOApp : a.oapp = none) (keeps : a.isWithdraw = false) :
    a.Affordable highest := by
  refine ⟨fun lz hlz => ?_, keeps⟩
  cases hlz.symm.trans noOApp

theorem reaches_outbound (d : Deployment) (highest : Evm.Wei) :
    ∃ as : List (Act d), Reaches highest 0 (Table.Outbound guidOf 0) as := by
  let player : Evm.Msg d.evm := Evm.stranger d.evm 0
  have hstart : Reaches highest 0 (· = Table.start) ([] : List (Act d)) := by
    refine ⟨List.forall_mem_nil _, table_fresh d, ?_⟩
    rw [Machine.run, fresh_evm, Nat.zero_mul]
    exact Nat.le_refl _
  have hserve : Succeeds (apply (servesBall player 0 100) (fresh d)) := by
    refine succeeds_runEvm (Evm.serve_succeeds_iff.mpr ?_)
    rw [fresh_evm]
    exact ⟨rfl, by decide, by decide, ⟨⟨0, 0⟩, rfl, Nat.le_refl 0⟩, _, _, rfl, rfl⟩
  obtain ⟨⟨s', out⟩, hok⟩ := hserve
  have heffect : Effect (fresh d) (servesBall player 0 100) s' out := apply_effect hok
  have hstep := refines_effect (sound_fresh d) heffect
  rw [table_fresh] at hstep
  refine ⟨_, hstart.snoc ⟨?_, rfl⟩ hok (Table.outbound_served hstep) ?_⟩
  · rintro _ ⟨⟩
    exact Evm.obligingOApp_quotes 0 (Nat.zero_le _)
  · cases heffect with
    | evm outcome =>
      cases outcome with
      | serve => exact hstart.spent
      | aside aside => cases aside

theorem Reaches.received (h : Reaches highest n (Table.Outbound guidOf n) as) (lt : n < 98) :
    Reaches highest n (Table.AtSvm guidOf n) (as ++ [reachesSvm d]) := by
  obtain ⟨k, r, hflying⟩ := h.place.flying
  obtain ⟨p, hp, hball⟩ := List.map_eq_singleton_iff.mp hflying
  have here : ((machine d).run (fresh d) as).inFlight[0]? = some p := by rw [hp]; rfl
  have hfull : fullBall = 100000000000000000000 := rfl
  have hvalue : p.ball.value = fullBall - 2 * n := congrArg Ball.value hball
  have hrally : ((machine d).run (fresh d) as).svmRallyCount = n := h.place.rally
  have hcap : rallyCap = 100 := rfl
  obtain ⟨⟨s', out⟩, hok⟩ := reachesSvm_accepted h.sound here (congrArg Ball.dst hball)
    (by omega) (by omega) (by omega)
  have heffect : Effect _ (reachesSvm d) s' out := apply_effect hok
  have hstep := refines_effect h.sound heffect
  refine h.snoc (affordable_svm rfl rfl) hok (h.place.received lt hstep) ?_
  cases heffect with
  | deliverSvm => exact h.spent

theorem Reaches.returned (h : Reaches highest n (Table.AtSvm guidOf n) as) (lt : n < 98) :
    ∃ bs : List (Act d), Reaches highest n (Table.Homebound guidOf n) bs := by
  obtain ⟨g, hg, hpaused, -⟩ := h.sound.game
  obtain ⟨peer, hpeer, -⟩ := h.sound.peer
  have hknown : ((machine d).run (fresh d) as).svm.peer d.evmEid = some peer := by
    rw [hpeer, Function.update_self]
  have hfull : fullBall = 100000000000000000000 := rfl
  have hball := h.place.holds
  have hvalue := h.place.value
  simp only [State.table, State.svmHasBall, State.svmBallValue, hg, Option.elim] at hball hvalue
  have hsend : Succeeds (Svm.apply d.rt (.sendBall (Svm.obligingOapp (guidOf n)) []
      ⟨d.evmEid, g.ballValue, [], 0⟩) ((machine d).run (fresh d) as).svm) :=
    Svm.sendBall_accepted (guidOf n) hg hknown hpaused hball (show 0 < g.ballValue.toNat by omega)
  obtain ⟨⟨svm, sent⟩, hsvm⟩ := hsend
  have hok : apply (returnsBall d (guidOf n) g.ballValue) _ = .ok _ :=
    runSvm_eq_ok.mpr ⟨svm, sent, hsvm, rfl, rfl⟩
  have hstep := refines_effect h.sound (apply_effect hok)
  have hmove : (returnsBall d (guidOf n) g.ballValue).move =
      .sendBall ((machine d).run (fresh d) as).table.svmValue := by
    simp only [State.table, State.svmBallValue, hg, Option.elim]
    rfl
  rw [hmove] at hstep
  refine ⟨_, h.snoc (affordable_svm rfl rfl) hok (h.place.returned hstep ?_) h.spent⟩
  intro b hb
  obtain ⟨p, hp, rfl⟩ := List.mem_map.mp hb
  obtain ⟨q, hq, rfl⟩ := List.mem_map.mp hp
  exact Svm.sendBall_guid hsvm q hq

theorem Reaches.answered (h : Reaches highest n (Table.Homebound guidOf n) as) (lt : n < 98)
    (never : NeverPoor d highest) : Reaches highest (n + 1) (Table.Outbound guidOf (n + 1))
      (as ++ [paidReply d highest]) := by
  have hcheap : (paidReply d highest).Affordable highest := by
    refine ⟨?_, rfl⟩
    rintro _ ⟨⟩
    exact Evm.obligingOApp_quotes 0 (Nat.le_refl _)
  obtain ⟨p, hp, hball⟩ := List.map_eq_singleton_iff.mp h.place.flying
  have here : ((machine d).run (fresh d) as).inFlight[0]? = some p := by rw [hp]; rfl
  have hdst : p.dst = .evm := congrArg Ball.dst hball
  obtain ⟨v, r, hm, -, -⟩ := h.sound.wire p (List.mem_of_getElem? here)
  have hguid : p.guid = guidOf n := congrArg Ball.guid hball
  have hv : v.toNat = fullBall - (2 * n + 1) := by
    rw [ball_of_abiEncode hm] at hball
    exact congrArg Ball.value hball
  have hr : r.toNat = n + 1 := by
    rw [ball_of_abiEncode hm] at hball
    exact congrArg Ball.rally hball
  have hcap : ((machine d).run (fresh d) as).evm.cap.toNat = 100 := by
    rw [Evm.Storage.cap_of_active h.place.active]
    exact h.place.cap
  have hpos : v ≠ 0 := by
    rintro rfl
    have hfull : fullBall = 100000000000000000000 := rfl
    have hzero : (0 : Uint256).toNat = 0 := rfl
    omega
  have hunseen : ((machine d).run (fresh d) as).evm.processedGuid p.guid = false := by
    rw [hguid]
    exact h.place.unseen n (Nat.le_refl n) lt
  have hdecoded : abiDecode p.message = some (v, r) := hm ▸ abiDecode_abiEncode v r
  have hreply : Evm.apply (d.delivery p (Evm.obligingOApp 0 highest) 0 1) _ = _ ∨ _ :=
    Evm.reply_paid rfl hunseen h.place.free hdecoded hpos (by omega)
  rcases hreply with hpoor | ⟨evm, sent, hevm, hpaid⟩
  · refine absurd ?_ (never as h.affordable _ hcheap)
    rw [paidReply, deliverEvm_eq here hdst, runEvm, hpoor]
    rfl
  · have hok := (deliverEvm_eq here hdst).trans (runEvm_eq_ok.mpr ⟨evm, sent, hevm, rfl, rfl⟩)
    have hstep := refines_effect h.sound (apply_effect hok)
    refine h.snoc hcheap hok (h.place.answered guidOf_injOn lt hstep) ?_
    rw [Nat.succ_mul, Nat.add_comm (n * highest), ← Nat.add_assoc, hpaid]
    exact h.spent

theorem ninety_eight_fees_are_the_budget (d : Deployment) (highest : Evm.Wei) :
    NeverPoor d highest ↔ 98 * highest ≤ d.balance := by
  refine ⟨fun never => ?_, neverPoor_of_funded⟩
  have hreaches (n : Nat) (le : n ≤ 98) :
      ∃ as : List (Act d), Reaches highest n (Table.Outbound guidOf n) as := by
    induction n with
    | zero => exact reaches_outbound d highest
    | succ n ih =>
      obtain ⟨as, h⟩ := ih (Nat.le_of_succ_le le)
      obtain ⟨bs, hhome⟩ := (h.received le).returned le
      exact ⟨_, hhome.answered le never⟩
  obtain ⟨as, h⟩ := hreaches 98 (Nat.le_refl _)
  exact (Nat.le_add_left _ _).trans h.spent

end CrossChainPingPong.Joint
