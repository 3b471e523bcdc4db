import CrossChainPingPong.Library.Attempt
import CrossChainPingPong.Evm.Causes
import CrossChainPingPong.Evm.Delivery
import CrossChainPingPong.Evm.Invariant

namespace CrossChainPingPong.Evm
open Guard

variable {I : Immutables} {lz : OApp} {s s' : Storage} {out : List Sent}

def Tx.etherless : Tx I → Prop
  | .lzReceive _ value _ _ _ => value = 0
  | _ => True

def replays (past : History I) : Tx I → Bool
  | .lzReceive _ _ _ guid _ => delivered past guid
  | _ => false

theorem remembers_run (owner : Address) (balance : Wei) (txs : List (Tx I)) :
    Remembers ((machine I).history (deployed owner balance) txs)
      ((machine I).run (deployed owner balance) txs) :=
  (machine I).run_induction (remembers_deployed owner balance)
    (fun _ _ hr hc => remembers_commit hr hc) txs

theorem replay_idle {past : History I} {tx : Tx I} (hr : Remembers past s) (free : tx.etherless)
    (replay : replays past tx = true) (h : apply tx s = .ok (s', out)) : s' = s ∧ out = [] := by
  cases tx with
  | lzReceive lz value origin guid message =>
    obtain rfl : value = 0 := free
    have hdone : s.processedGuid guid = true := (hr guid).trans replay
    obtain ⟨-, ⟨-, hstate, hout⟩ | ⟨hfresh, -⟩⟩ := lzReceive_cases (lzReceive_of_apply h)
    · exact ⟨hstate, hout⟩
    · exact absurd (hfresh.symm.trans hdone) (by decide)
  | _ => cases replay

section
variable {origin : Origin} {guid : Bytes32} {message : Bytes} {v r : Uint256}

theorem reached_ball {value : Wei} {e : Revert}
    (reverted : apply (.lzReceive lz value origin guid message : Tx I) s = .error e)
    (late : e = .alreadyHasBall ∨ e = .insufficientContractBalance) :
    origin.srcEid = I.peerEid ∧ s.processedGuid guid = false ∧
      ∃ v r, abiDecode message = some (v, r) := by
  have hlate : e ≠ .oapp ∧ e ≠ .invalidPeer ∧ e ≠ .malformedCalldata := by
    rcases late with rfl | rfl <;> decide
  obtain ⟨hoapp, hinvalid, hmalformed⟩ := hlate
  simp only [apply, lzReceive, revertIf_bind] at reverted
  split at reverted
  case isTrue => exact absurd (Except.error.inj reverted).symm hoapp
  case isFalse =>
    split at reverted
    case isTrue => exact absurd (Except.error.inj reverted).symm hinvalid
    case isFalse hpeer =>
      split at reverted
      case isTrue => cases reverted
      case isFalse hfresh =>
        refine ⟨not_not.mp hpeer, Bool.eq_false_of_not_eq_true hfresh, ?_⟩
        cases hdec : abiDecode message with
        | some m => exact ⟨m.1, m.2, rfl⟩
        | none =>
          rw [hdec] at reverted
          exact absurd (Except.error.inj reverted).symm hmalformed

structure Lands (guid : Bytes32) (r : Uint256) (result : Except Revert (Storage × List Sent)) :
    Prop where
  accepted : Succeeds result
  marks : ∀ s' out, result = .ok (s', out) → s'.processedGuid guid = true
  counts : ∀ s' out, result = .ok (s', out) → s'.rallyCount.toNat = r.toNat + 1

theorem lands_of_free {fee : Wei} (willing : Willing I lz fee) (peer : origin.srcEid = I.peerEid)
    (fresh : s.processedGuid guid = false) (decoded : abiDecode message = some (v, r))
    (fits : r.toNat + 1 < 2 ^ 256) (free : s.gameState.hasBall = false) (funded : fee ≤ s.balance) :
    Lands guid r (apply (.lzReceive lz 0 origin guid message : Tx I) s) := by
  have hexact : DeliveryExact I lz guid v r (s.balance + 0) s
      (apply (.lzReceive lz 0 origin guid message : Tx I) s) :=
    apply_exact willing.admits peer fresh decoded
  refine ⟨willing.accepted peer decoded fits free funded, ?_, ?_⟩
  · intro s' out hresult
    rw [(hexact.marks s' out hresult).1]
    exact Function.update_self guid true s.processedGuid
  · intro s' out hresult
    exact (hexact.marks s' out hresult).2.2

end

theorem self_add_one_ne (I : Immutables) : I.self + 1 ≠ I.self := by
  intro h
  exact absurd (BitVec.add_right_eq_self.mp h) (by decide)

def stranger (I : Immutables) (value : Wei) : Msg I := ⟨I.self + 1, value, self_add_one_ne I⟩

theorem serve_obliged (idle : s.gameState.gameActive = false) :
    ∃ s' out, apply (.serve (obligingOApp 0 0) (stranger I 0) 100 []) s = .ok (s', out) ∧
      s'.gameState.hasBall = false ∧ s'.processedGuid = s.processedGuid := by
  have hok : Succeeds (apply (.serve (obligingOApp 0 0) (stranger I 0) 100 []) s) := by
    simp only [apply, serve, serveOpen, lzSend, obligingOApp, succeeds_bind, bind_eq_ok,
      revertIf_eq_ok, okOr_eq_ok, pure_eq_ok, exists_const, Storage.credit, idle]
    simp [stranger, maxRalliesCap]
  obtain ⟨⟨s', out⟩, hserve⟩ := hok
  refine ⟨s', out, hserve, ?_⟩
  cases apply_outcome hserve with
  | serve => exact ⟨rfl, rfl⟩
  | aside aside => cases aside

structure StillDeliverable (start : Storage) (txs : List (Tx I)) (origin : Origin) (guid : Bytes32)
    (message : Bytes) (v r : Uint256) : Prop where
  unconsumed : ((machine I).run start txs).processedGuid guid = false
  exact : ∀ more lz value, lz.admits = true →
    delivered ((machine I).history start (txs ++ more)) guid = false →
      let s := (machine I).run start (txs ++ more)
      DeliveryExact I lz guid v r (s.balance + value) s
        (apply (.lzReceive lz value origin guid message : Tx I) s)
  lands : r.toNat + 1 < 2 ^ 256 → ∀ lz fee, Willing I lz fee →
    ∃ more : List (Tx I), (∀ tx ∈ more, ∀ g, tx.delivers g = false) ∧
      Lands guid r (apply (.lzReceive lz 0 origin guid message : Tx I)
        ((machine I).run start (txs ++ more)))

section
variable {owner : Address} {balance : Wei} {txs : List (Tx I)} {origin : Origin} {guid : Bytes32}
  {message : Bytes} {v r : Uint256}

theorem run_transfer (s : Storage) (value : Wei) :
    (machine I).run s [.receive (stranger I value)] = { s with balance := s.balance + value } := by
  rw [Machine.run, machine_apply, apply_receive]
  rfl

theorem lands_after_transfer {fee : Wei} (willing : Willing I lz fee)
    (peer : origin.srcEid = I.peerEid) (fresh : s.processedGuid guid = false)
    (decoded : abiDecode message = some (v, r)) (fits : r.toNat + 1 < 2 ^ 256)
    (free : s.gameState.hasBall = false) :
    Lands guid r (apply (.lzReceive lz 0 origin guid message : Tx I)
      ((machine I).run s [.receive (stranger I fee)])) := by
  rw [run_transfer]
  exact lands_of_free willing peer fresh decoded fits free (Nat.le_add_left fee s.balance)

theorem still_deliverable (peer : origin.srcEid = I.peerEid)
    (fresh : ((machine I).run (deployed owner balance) txs).processedGuid guid = false)
    (decoded : abiDecode message = some (v, r)) :
    StillDeliverable (deployed owner balance) txs origin guid message v r := by
  refine ⟨fresh, ?_, ?_⟩
  · intro more lz value admitted hnew
    have hfresh := (remembers_run owner balance (txs ++ more) guid).trans hnew
    exact apply_exact admitted peer hfresh decoded
  · intro fits lz fee willing
    by_cases hball : ((machine I).run (deployed owner balance) txs).gameState.hasBall = true
    · have hidle : ((machine I).run (deployed owner balance) txs).gameState.gameActive = false := by
        by_contra hactive
        have hrallying := consistent_run owner balance txs (Bool.eq_true_of_not_eq_false hactive)
        exact absurd (hball.symm.trans hrallying.noBall) (by decide)
      obtain ⟨s', out, hserve, hfree, hguids⟩ := serve_obliged (I := I) hidle
      have hfresh : s'.processedGuid guid = false := hguids ▸ fresh
      refine ⟨[.serve (obligingOApp 0 0) (stranger I 0) 100 [], .receive (stranger I fee)], ?_, ?_⟩
      · simp [Tx.delivers]
      · have hrun : (machine I).run (deployed owner balance)
            (txs ++ [.serve (obligingOApp 0 0) (stranger I 0) 100 [], .receive (stranger I fee)]) =
              (machine I).run s' [.receive (stranger I fee)] := by
          rw [Machine.run_append, Machine.run, machine_apply, hserve]
        rw [hrun]
        exact lands_after_transfer willing peer hfresh decoded fits hfree
    · refine ⟨[.receive (stranger I fee)], by simp [Tx.delivers], ?_⟩
      rw [Machine.run_append]
      exact lands_after_transfer willing peer fresh decoded fits
        (Bool.eq_false_of_not_eq_true hball)

end

theorem replays_are_transparent (I : Immutables) (owner : Address) (balance : Wei)
    (txs : List (Tx I)) (etherless : ∀ tx ∈ txs, tx.etherless) :
    let start := deployed owner balance
    let rest := (machine I).pruned replays start txs
    ((machine I).run start rest = (machine I).run start txs ∧
      Machine.emitted ((machine I).history start rest) =
        Machine.emitted ((machine I).history start txs) ∧
      ((machine I).attempts start rest).map (machine I).result =
        ((machine I).kept replays start txs).map (machine I).result) ∧
    ∀ lz value origin guid message e,
      let delivery : Tx I := .lzReceive lz value origin guid message
      apply delivery ((machine I).run start txs) = .error e →
      e = .alreadyHasBall ∨ e = .insufficientContractBalance →
      (machine I).run start (txs ++ [delivery]) = (machine I).run start txs ∧
        ∃ v r, abiDecode message = some (v, r) ∧
          StillDeliverable start (txs ++ [delivery]) origin guid message v r := by
  intro start rest
  refine ⟨?_, ?_⟩
  · have hidle (bs : List (Tx I)) (tx : Tx I) (free : tx.etherless)
        (replay : replays ((machine I).history start bs) tx = true) (t : Storage) (out : List Sent)
        (h : (machine I).apply tx ((machine I).run start bs) = .ok (t, out)) :
        t = (machine I).run start bs ∧ out = [] :=
      replay_idle (remembers_run owner balance bs) free replay h
    exact Machine.pruned_same hidle txs etherless
  · intro lz value origin guid message e delivery reverted late
    have hfail : (machine I).apply delivery ((machine I).run start txs) = .error e := reverted
    have hsame : (machine I).run start (txs ++ [delivery]) = (machine I).run start txs := by
      rw [(machine I).run_skip hfail, List.append_nil]
    obtain ⟨hpeer, hfresh, v, r, hdec⟩ := reached_ball reverted late
    rw [← hsame] at hfresh
    exact ⟨hsame, v, r, hdec, still_deliverable hpeer hfresh hdec⟩

def replayedRun : List (Tx sampleImmutables) :=
  [sampleServe 10, sampleDelivery 1 7 3, sampleDelivery 1 9 5, .pauseGame 3, sampleDelivery 1 7 3,
    sampleDelivery 2 0 1]

theorem replayedRun_transparent :
    let start := deployed 3 0
    let rest := (machine sampleImmutables).pruned replays start replayedRun
    rest.length = 4 ∧
      (machine sampleImmutables).run start rest = (machine sampleImmutables).run start replayedRun ∧
      StillDeliverable (I := sampleImmutables) start (replayedRun ++ [sampleDelivery 3 5 2])
        ⟨40168, 9, 1⟩ 3 (abiEncode 5 2) 5 2 := by
  have etherless : ∀ tx ∈ replayedRun, tx.etherless := by
    simp [replayedRun, Tx.etherless, sampleServe, sampleDelivery]
  obtain ⟨⟨hrun, -⟩, hreverted⟩ := replays_are_transparent sampleImmutables 3 0 replayedRun etherless
  refine ⟨by decide +kernel, hrun, ?_⟩
  have herror : (match apply (sampleDelivery 3 5 2)
      ((machine sampleImmutables).run (deployed 3 0) replayedRun) with
      | .error e => decide (e = .alreadyHasBall)
      | .ok _ => false) = true := by
    decide +kernel
  cases hd : apply (sampleDelivery 3 5 2)
      ((machine sampleImmutables).run (deployed 3 0) replayedRun) with
  | ok result =>
    rw [hd] at herror
    cases herror
  | error e =>
    rw [hd] at herror
    obtain ⟨-, v, r, hdec, hstill⟩ := hreverted _ _ _ _ _ e hd (.inl (of_decide_eq_true herror))
    obtain ⟨rfl, rfl⟩ := Prod.mk.inj (Option.some.inj ((abiDecode_abiEncode 5 2).symm.trans hdec))
    exact hstill

end CrossChainPingPong.Evm
