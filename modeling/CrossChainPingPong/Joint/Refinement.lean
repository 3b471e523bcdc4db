import CrossChainPingPong.Joint.System
import Mathlib.Data.List.InsertIdx

namespace CrossChainPingPong.Joint
open Guard

variable {d : Deployment} {s s' : State} {out : List Packet}

inductive Effect (s : State) : Act d → State → List Packet → Prop
  | evm {tx isLocal evm sent} (outcome : Evm.Outcome s.evm tx evm sent) :
      Effect s (.evm tx isLocal) ⟨evm, s.svm, s.inFlight ++ sent.map fromEvm⟩ (sent.map fromEvm)
  | svm {ix isLocal svm sent} (outcome : Svm.Outcome d.rt s.svm ix svm sent) :
      Effect s (.svm ix isLocal) ⟨s.evm, svm, s.inFlight ++ sent.map fromSvm⟩ (sent.map fromSvm)
  | deliverEvm {i lz value nonce p evm sent} (here : s.inFlight[i]? = some p) (dst : p.dst = .evm)
      (outcome : Evm.Outcome s.evm (d.delivery p lz value nonce) evm sent) :
      Effect s (.deliverEvm i lz value nonce)
        ⟨evm, s.svm, s.inFlight.eraseIdx i ++ sent.map fromEvm⟩ (sent.map fromEvm)
  | deliverSvm {i oapp accounts nonce extraData p svm sent} (here : s.inFlight[i]? = some p)
      (dst : p.dst = .svm)
      (outcome : Svm.Outcome d.rt s.svm (d.receipt p oapp accounts nonce extraData) svm sent) :
      Effect s (.deliverSvm i oapp accounts nonce extraData)
        ⟨s.evm, svm, s.inFlight.eraseIdx i ++ sent.map fromSvm⟩ (sent.map fromSvm)

theorem runEvm_eq_ok {tx : Evm.Tx d.evm} {pool : List Packet} :
    runEvm tx pool s = .ok (s', out) ↔ ∃ evm sent, Evm.apply tx s.evm = .ok (evm, sent) ∧
      ⟨evm, s.svm, pool ++ sent.map fromEvm⟩ = s' ∧ sent.map fromEvm = out := by
  simp only [runEvm, bind_eq_ok, mapError_eq_ok, pure_eq_ok, Prod.mk.injEq, Prod.exists]

theorem runSvm_eq_ok {ix : Svm.Ix} {pool : List Packet} :
    runSvm d ix pool s = .ok (s', out) ↔ ∃ svm sent, Svm.apply d.rt ix s.svm = .ok (svm, sent) ∧
      ⟨s.evm, svm, pool ++ sent.map fromSvm⟩ = s' ∧ sent.map fromSvm = out := by
  simp only [runSvm, bind_eq_ok, mapError_eq_ok, pure_eq_ok, Prod.mk.injEq, Prod.exists]

theorem apply_effect {a : Act d} (h : apply a s = .ok (s', out)) : Effect s a s' out := by
  cases a with
  | evm tx isLocal =>
    obtain ⟨evm, sent, ho, rfl, rfl⟩ := runEvm_eq_ok.mp h
    exact .evm (Evm.apply_outcome ho)
  | svm ix isLocal =>
    obtain ⟨svm, sent, ho, rfl, rfl⟩ := runSvm_eq_ok.mp h
    exact .svm (Svm.apply_outcome ho)
  | deliverEvm i lz value nonce =>
    simp only [apply, bind_eq_ok, okOr_eq_ok, require_eq_ok, exists_const] at h
    obtain ⟨p, hp, hdst, h⟩ := h
    obtain ⟨evm, sent, ho, rfl, rfl⟩ := runEvm_eq_ok.mp h
    exact .deliverEvm hp hdst (Evm.apply_outcome ho)
  | deliverSvm i oapp accounts nonce extraData =>
    simp only [apply, bind_eq_ok, okOr_eq_ok, require_eq_ok, exists_const] at h
    obtain ⟨p, hp, hdst, h⟩ := h
    obtain ⟨svm, sent, ho, rfl, rfl⟩ := runSvm_eq_ok.mp h
    exact .deliverSvm hp hdst (Svm.apply_outcome ho)

theorem commits_effect {c : Commit State (Act d) Packet} (hc : (machine d).Commits c) :
    Effect c.before c.action c.after c.out := apply_effect hc

def Packet.ball (p : Packet) : Ball Bytes32 :=
  let m := (abiDecode p.message).getD (0, 0)
  ⟨p.dst, p.guid, m.1.toNat, m.2.toNat⟩

def State.table (s : State) : Table Bytes32 where
  active := s.evm.gameState.gameActive
  evmHolds := s.evm.gameState.hasBall
  cap := s.evm.gameState.maxRallies.toNat
  evmValue := s.evm.ballValue.toNat
  evmRally := s.evm.rallyCount.toNat
  svmHolds := s.svmHasBall
  svmValue := s.svmBallValue
  svmRally := s.svmRallyCount
  flying := s.inFlight.map Packet.ball
  seen := s.evm.processedGuid

def Act.move : Act d → Move
  | .evm (.serve _ _ maxRallies _) _ => .serve maxRallies.toNat
  | .evm (.pauseGame _) _ => .pause
  | .evm _ _ => .idle
  | .svm (.sendBall _ _ params) _ => .sendBall params.ballValue.toNat
  | .svm _ _ => .idle
  | .deliverEvm i .. => .receiveEvm i
  | .deliverSvm i .. => .receiveSvm i

def Packet.Fits (p : Packet) : Prop :=
  ∃ v r, p.message = abiEncode v r ∧ v.toNat < 2 ^ 128 ∧ r.toNat < 2 ^ 64

structure Sound (d : Deployment) (s : State) : Prop where
  game : ∃ g, s.svm.game = some g ∧ g.paused = false ∧ g.maxRallies = Svm.maxRalliesCap
  peer : ∃ p, s.svm.peer = Function.update (fun _ => none) d.evmEid (some p) ∧
    p.peerAddress = d.evmAddress
  cap : s.evm.gameState.maxRallies.toNat ≤ 100
  wire : ∀ p ∈ s.inFlight, p.Fits

@[simp] theorem fresh_evm (d : Deployment) : (fresh d).evm =
    { Evm.deployed d.owner d.balance with
      peers := Function.update (fun _ => 0) d.evm.peerEid d.svmAddress } := by
  simp [fresh, evmSetup, Machine.run, Evm.machine, Evm.apply, Evm.setPeer, Evm.onlyOwner, require,
    Evm.deployed, pure, Except.pure, bind, Except.bind]

@[simp] theorem fresh_svm (d : Deployment) : (fresh d).svm =
    { game := some (Svm.GameState.fresh d.rt ⟨d.admin, d.endpoint, d.evmEid⟩)
      lzReceiveTypesAccounts := some ⟨d.rt.gameAddress.1⟩
      peer := Function.update (fun _ => none) d.evmEid
        (some ⟨d.evmAddress, ⟨[]⟩, (d.rt.peerAddress d.evmEid).2⟩) } := by
  simp [fresh, svmSetup, Machine.run, Svm.machine, Svm.apply, Svm.InitGame.apply,
    Svm.SetPeerConfig.apply, Svm.Ledger.empty, Svm.GameState.fresh, require, okOr, pure,
    Except.pure, bind, Except.bind]

theorem table_fresh (d : Deployment) : (fresh d).table = Table.start := by
  simp only [State.table, State.svmHasBall, State.svmBallValue, State.svmRallyCount, fresh_evm,
    fresh_svm]
  rfl

theorem sound_fresh (d : Deployment) : Sound d (fresh d) where
  game := ⟨_, congrArg Svm.Ledger.game (fresh_svm d), rfl, rfl⟩
  peer := ⟨_, congrArg Svm.Ledger.peer (fresh_svm d), rfl⟩
  cap := by simp [Evm.deployed]
  wire := nofun

theorem ball_of_abiEncode {p : Packet} {v r : Uint256} (h : p.message = abiEncode v r) :
    p.ball = ⟨p.dst, p.guid, v.toNat, r.toNat⟩ := by
  simp [Packet.ball, h]

theorem ball_of_abiDecode {p : Packet} {v r : Uint256} (h : abiDecode p.message = some (v, r)) :
    p.ball = ⟨p.dst, p.guid, v.toNat, r.toNat⟩ := by
  simp [Packet.ball, h]

theorem ball_of_encode {p : Packet} {m : PingPongMessage} (h : p.message = m.encode) :
    p.ball = ⟨p.dst, p.guid, m.ballValue.toNat, m.rallyCount.toNat⟩ := by
  rw [ball_of_abiEncode (h.trans m.encode_eq_abiEncode), BitVec.toNat_setWidth_of_le (by decide),
    BitVec.toNat_setWidth_of_le (by decide)]

theorem fits_snoc {pool : List Packet} {p : Packet} (wire : ∀ q ∈ pool, q.Fits) (hp : p.Fits) :
    ∀ q ∈ pool ++ [p], q.Fits := by
  intro q hq
  rcases List.mem_append.mp hq with hq | hq
  · exact wire q hq
  · obtain rfl := List.mem_singleton.mp hq
    exact hp

theorem fits_fromSvm {sent : Svm.Sent} {m : PingPongMessage}
    (payload : sent.params.message = m.encode) : (fromSvm sent).Fits := by
  refine ⟨_, _, payload.trans m.encode_eq_abiEncode, ?_, ?_⟩
  · rw [BitVec.toNat_setWidth_of_le (by decide)]
    exact m.ballValue.isLt
  · rw [BitVec.toNat_setWidth_of_le (by decide)]
    exact m.rallyCount.isLt

theorem Sound.fits_erase (hs : Sound d s) (i : Nat) : ∀ q ∈ s.inFlight.eraseIdx i, q.Fits :=
  fun q hq => hs.wire q (List.mem_of_mem_eraseIdx hq)

theorem Sound.cap_le (hs : Sound d s) : s.evm.cap.toNat ≤ 100 := by
  unfold Evm.Storage.cap
  split
  · exact hs.cap
  · decide

theorem Sound.sent_to_evm (hs : Sound d s) {ix : Svm.Ix} {svm : Svm.Ledger} {sent : List Svm.Sent}
    (outcome : Svm.Outcome d.rt s.svm ix svm sent) :
    ∀ m ∈ sent, m.params.dstEid = d.evmEid ∧ m.params.receiver = d.evmAddress := by
  obtain ⟨p, hpeer, haddress⟩ := hs.peer
  cases outcome with
  | @sendBall oapp accounts params g peer sent game known running ball pos dst receiver payload =>
    intro m hm
    obtain rfl := List.mem_singleton.mp hm
    have heid : params.dstEid = d.evmEid := by
      by_contra hne
      rw [hpeer, Function.update_of_ne hne] at known
      cases known
    rw [hpeer, heid, Function.update_self] at known
    obtain rfl := Option.some.inj known
    exact ⟨dst.trans heid, receiver.trans haddress⟩
  | initStore | setPeerAddress | setEnforcedOptions | pauseGame | resumeGame | closeGame
  | lzReceive => nofun

theorem sound_effect {a : Act d} (hs : Sound d s) (he : Effect s a s' out) : Sound d s' := by
  obtain ⟨g, hg, hpaused, hmax⟩ := hs.game
  cases he with
  | @evm tx isLocal evm sent outcome =>
    cases outcome with
    | @serve lz msg maxRallies options sent idle pos le payload =>
      have hcap : (maxRallies.setWidth 128).toNat ≤ 100 := by
        rw [BitVec.toNat_setWidth]
        exact (Nat.mod_le _ _).trans le
      exact ⟨hs.game, hs.peer, hcap, fits_snoc hs.wire ⟨_, _, payload, by decide, by decide⟩⟩
    | pauseGame | aside => exact ⟨hs.game, hs.peer, hs.cap, by simpa using hs.wire⟩
    | replay | finish | reply => cases isLocal
  | @svm ix isLocal svm sent outcome =>
    cases outcome with
    | pauseGame | resumeGame => exact ⟨hs.game, hs.peer, hs.cap, by simpa using hs.wire⟩
    | @sendBall oapp accounts params g' peer sent game known running ball pos dst receiver payload =>
      obtain rfl : g = g' := Option.some.inj (hg.symm.trans game)
      exact ⟨⟨_, rfl, hpaused, hmax⟩, hs.peer, hs.cap, fits_snoc hs.wire (fits_fromSvm payload)⟩
    | initStore | setPeerAddress | setEnforcedOptions | closeGame | lzReceive => cases isLocal
  | @deliverEvm i lz value nonce p evm sent here dst outcome =>
    have hcap := hs.cap_le
    cases outcome with
    | aside h => cases h
    | replay => exact ⟨hs.game, hs.peer, hs.cap, by simpa using hs.fits_erase i⟩
    | finish => exact ⟨hs.game, hs.peer, hcap, by simpa using hs.fits_erase i⟩
    | @reply _ _ _ _ _ v r count _ sent peer unseen free decoded next pos lt payload =>
      obtain ⟨v₀, r₀, hm, hv, hr⟩ := hs.wire p (List.mem_of_getElem? here)
      rw [hm, abiDecode_abiEncode] at decoded
      cases decoded
      have hsub := toNat_sub_one pos
      refine ⟨hs.game, hs.peer, hcap, fits_snoc (hs.fits_erase i) ⟨_, _, payload, ?_, ?_⟩⟩ <;> omega
  | @deliverSvm i oapp accounts nonce extraData p svm sent here dst outcome =>
    cases outcome with
    | @lzReceive _ _ _ g' peer m newValue count game known sender running decoded value high next cap =>
      obtain rfl : g = g' := Option.some.inj (hg.symm.trans game)
      exact ⟨⟨_, rfl, hpaused, hmax⟩, hs.peer, hs.cap, by simpa using hs.fits_erase i⟩

theorem table_limit (s : State) : s.table.limit = s.evm.cap.toNat := by
  unfold Table.limit Evm.Storage.cap State.table
  dsimp only
  split <;> rfl

theorem table_flying_erase (s : State) (i : Nat) :
    s.table.flying.eraseIdx i = (s.inFlight.eraseIdx i).map Packet.ball :=
  List.eraseIdx_map _ _ _

theorem map_ball_snoc (pool : List Packet) (p : Packet) :
    pool.map Packet.ball ++ [p.ball] = (pool ++ [p]).map Packet.ball := by
  rw [List.map_append, List.map_singleton]

theorem table_mark (s : State) (k : Bytes32) :
    s.table.mark k = Function.update s.evm.processedGuid k true := rfl

theorem refines_evm {tx : Evm.Tx d.evm} {isLocal : tx.isLocal = true} {evm : Evm.Storage}
    {sent : List Evm.Sent} (outcome : Evm.Outcome s.evm tx evm sent) :
    s.table.Step (Act.evm tx isLocal : Act d).move
      (State.table ⟨evm, s.svm, s.inFlight ++ sent.map fromEvm⟩)
      ((sent.map fromEvm).map Packet.ball) := by
  cases outcome with
  | @serve lz msg maxRallies options sent idle pos le payload =>
    have hb : (fromEvm sent).ball = ⟨.svm, sent.guid, fullBall, 0⟩ :=
      (ball_of_abiEncode (p := fromEvm sent) payload).trans rfl
    have hcap : (maxRallies.setWidth 128).toNat = maxRallies.toNat := by
      rw [BitVec.toNat_setWidth, Nat.mod_eq_of_lt (by omega)]
    simp only [State.table, List.map_append, List.map_cons, List.map_nil, hb, hcap]
    exact .serve idle pos le
  | pauseGame owner active =>
    simp only [State.table, List.map_nil, List.append_nil]
    exact .pause active
  | aside h =>
    have hmove : (Act.evm tx isLocal : Act d).move = .idle := by
      cases tx <;> first | rfl | cases h
    simp only [State.table, hmove, List.map_nil, List.append_nil]
    exact .idle
  | replay | finish | reply => cases isLocal

theorem refines_svm {ix : Svm.Ix} {isLocal : ix.isLocal = true} {svm : Svm.Ledger}
    {sent : List Svm.Sent} (hs : Sound d s) (outcome : Svm.Outcome d.rt s.svm ix svm sent) :
    s.table.Step (Act.svm ix isLocal : Act d).move
      (State.table ⟨s.evm, svm, s.inFlight ++ sent.map fromSvm⟩)
      ((sent.map fromSvm).map Packet.ball) := by
  obtain ⟨g, hg, hpaused, hmax⟩ := hs.game
  cases outcome with
  | pauseGame | resumeGame =>
    simp only [State.table, Act.move, List.map_nil, List.append_nil]
    exact .idle
  | @sendBall oapp accounts params g' peer sent game known running ball pos dst receiver payload =>
    obtain rfl : g = g' := Option.some.inj (hg.symm.trans game)
    have hb : (fromSvm sent).ball = ⟨.evm, sent.guid, params.ballValue.toNat, g.rallyCount.toNat⟩ :=
      ball_of_encode (p := fromSvm sent) payload
    have hstep := Table.Step.sendBall (t := s.table) (k := sent.guid)
      (by simp [State.table, State.svmHasBall, hg, ball]) pos
    simpa [State.table, State.svmHasBall, State.svmBallValue, State.svmRallyCount, hg, hb,
      Act.move] using hstep
  | initStore | setPeerAddress | setEnforcedOptions | closeGame | lzReceive => cases isLocal

theorem refines_deliverEvm {i : Nat} {lz : Evm.OApp} {value : Evm.Wei} {nonce : U64} {p : Packet}
    {evm : Evm.Storage} {sent : List Evm.Sent} (hs : Sound d s) (here : s.inFlight[i]? = some p)
    (dst : p.dst = .evm) (outcome : Evm.Outcome s.evm (d.delivery p lz value nonce) evm sent) :
    s.table.Step (.receiveEvm i)
      (State.table ⟨evm, s.svm, s.inFlight.eraseIdx i ++ sent.map fromEvm⟩)
      ((sent.map fromEvm).map Packet.ball) := by
  have hhere {v r : Uint256} (hdec : abiDecode p.message = some (v, r)) :
      s.table.flying[i]? = some ⟨.evm, p.guid, v.toNat, r.toNat⟩ := by
    simp [State.table, here, ball_of_abiDecode hdec, dst]
  cases outcome with
  | aside h => cases h
  | replay peer done =>
    obtain ⟨v₀, r₀, hm, -, -⟩ := hs.wire p (List.mem_of_getElem? here)
    have hstep := Table.Step.replay (hhere (hm ▸ abiDecode_abiEncode v₀ r₀)) done
    rw [table_flying_erase] at hstep
    rw [List.map_nil, List.append_nil]
    exact hstep
  | @finish _ _ _ _ _ v r count _ peer unseen free decoded next last =>
    have hlast : v.toNat = 0 ∨ s.table.limit ≤ r.toNat + 1 := by
      rw [table_limit, ← next]
      exact last.imp_left fun hv => congrArg BitVec.toNat hv
    have hstep := Table.Step.finish (hhere decoded) unseen free hlast
    rw [table_flying_erase, table_limit, table_mark, ← next] at hstep
    rw [List.map_nil, List.append_nil]
    exact hstep
  | @reply _ _ _ _ _ v r count _ sent peer unseen free decoded next pos lt payload =>
    have hhere := hhere decoded
    rw [← toNat_sub_one pos] at hhere
    have hb : (fromEvm sent).ball = ⟨.svm, sent.guid, (v - 1).toNat, r.toNat + 1⟩ :=
      next ▸ ball_of_abiEncode (p := fromEvm sent) payload
    have hlt : r.toNat + 1 < s.table.limit := by
      rw [table_limit, ← next]
      exact lt
    have hstep := Table.Step.reply (j := sent.guid) hhere unseen free hlt
    rw [table_flying_erase, table_limit, table_mark, ← hb, ← next, map_ball_snoc] at hstep
    exact hstep

theorem refines_deliverSvm {i : Nat} {oapp : Svm.Oapp} {accounts : List Svm.LzAccount} {nonce : U64}
    {extraData : Bytes} {p : Packet} {svm : Svm.Ledger} {sent : List Svm.Sent} (hs : Sound d s)
    (here : s.inFlight[i]? = some p) (dst : p.dst = .svm)
    (outcome : Svm.Outcome d.rt s.svm (d.receipt p oapp accounts nonce extraData) svm sent) :
    s.table.Step (.receiveSvm i)
      (State.table ⟨s.evm, svm, s.inFlight.eraseIdx i ++ sent.map fromSvm⟩)
      ((sent.map fromSvm).map Packet.ball) := by
  obtain ⟨g, hg, hpaused, hmax⟩ := hs.game
  obtain ⟨v, r, hm, hlt, -⟩ := hs.wire p (List.mem_of_getElem? here)
  cases outcome with
  | @lzReceive _ _ _ g' peer m newValue count game known sender running decoded value high next cap =>
    obtain rfl : g = g' := Option.some.inj (hg.symm.trans game)
    have hv : m.ballValue.toNat = v.toNat := by
      have hdec := hm ▸ PingPongMessage.decode_abiEncode v r
      obtain rfl := Except.ok.inj (decoded.symm.trans hdec)
      rw [BitVec.toNat_setWidth, Nat.mod_eq_of_lt hlt]
    have hhere : s.table.flying[i]? = some ⟨.svm, p.guid, newValue.toNat + 1, r.toNat⟩ := by
      simp [State.table, here, ball_of_abiEncode hm, dst, value, hv]
    have hhigh : newValue.toNat + 1 ≤ fullBall := value ▸ high
    have hcount : count.toNat = s.table.svmRally + 1 := by
      simp [State.table, State.svmRallyCount, hg, next]
    have hcap : g.maxRallies.toNat = rallyCap := hmax ▸ rfl
    rw [List.map_nil, List.append_nil]
    by_cases hon : newValue ≠ 0 ∧ count.toNat < g.maxRallies.toNat
    · have hpos : 0 < newValue.toNat :=
        Nat.pos_of_ne_zero fun h0 => hon.1 (BitVec.eq_of_toNat_eq h0)
      have hstep := Table.Step.keep hhere hhigh hpos (hcount ▸ hcap ▸ hon.2)
      rw [table_flying_erase, ← hcount] at hstep
      have hg' : (g.received newValue count).hasBall = true := decide_eq_true hon
      simp only [State.table, State.svmHasBall, State.svmBallValue, State.svmRallyCount,
        Option.elim, hg']
      exact hstep
    · have hlast : newValue.toNat = 0 ∨ s.table.svmRally + 1 = rallyCap := by
        rw [not_and_or, not_not, hcap] at hon
        refine hon.imp (fun h0 => congrArg BitVec.toNat h0) fun hge => ?_
        rw [← hcount]
        exact Nat.le_antisymm cap (Nat.not_lt.mp hge)
      have hlt : s.table.svmRally < rallyCap := by
        have : rallyCap = 100 := rfl
        omega
      have hstep := Table.Step.drop hhere hhigh hlt hlast
      rw [table_flying_erase, ← hcount] at hstep
      have hg' : (g.received newValue count).hasBall = false := decide_eq_false hon
      simp only [State.table, State.svmHasBall, State.svmBallValue, State.svmRallyCount,
        Option.elim, hg']
      exact hstep

theorem refines_effect {a : Act d} (hs : Sound d s) (he : Effect s a s' out) :
    s.table.Step a.move s'.table (out.map Packet.ball) := by
  cases he with
  | evm outcome => exact refines_evm outcome
  | svm outcome => exact refines_svm hs outcome
  | deliverEvm here dst outcome => exact refines_deliverEvm hs here dst outcome
  | deliverSvm here dst outcome => exact refines_deliverSvm hs here dst outcome

def simulation (d : Deployment) : Simulation (machine d) (Table.Step (G := Bytes32)) where
  state := State.table
  move := Act.move
  item := Packet.ball
  Inv := Sound d
  preserved _ hc hs := sound_effect hs (commits_effect hc)
  step _ hc hs := refines_effect hs (commits_effect hc)

theorem isServe_move (a : Act d) : a.move.isServe = a.isServe := by
  cases a with
  | evm tx isLocal => cases tx <;> rfl
  | svm ix isLocal => cases ix <;> rfl
  | deliverEvm | deliverSvm => rfl

theorem isPause_move (a : Act d) : a.move.isPause = a.isPauseGame := by
  cases a with
  | evm tx isLocal => cases tx <;> rfl
  | svm ix isLocal => cases ix <;> rfl
  | deliverEvm | deliverSvm => rfl

theorem sendsStored_commit (c : Commit State (Act d) Packet) :
    Table.sendsStored ((simulation d).commit c) = sendsStored c := by
  obtain ⟨s, a, s', out⟩ := c
  cases a with
  | evm tx isLocal => cases tx <;> rfl
  | svm ix isLocal => cases ix <;> rfl
  | deliverEvm | deliverSvm => rfl

def tableHistory (d : Deployment) (as : List (Act d)) : Table.History Bytes32 :=
  ((machine d).history (fresh d) as).map (simulation d).commit

theorem table_trace (d : Deployment) (as : List (Act d)) :
    Trace Table.Step Table.start (tableHistory d as) ((machine d).run (fresh d) as).table := by
  have htrace := (simulation d).trace (sound_fresh d) as
  rw [← table_fresh d]
  exact htrace

theorem countP_tableHistory {d : Deployment} {p : Commit State (Act d) Packet → Bool}
    {q : Commit (Table Bytes32) Move (Ball Bytes32) → Bool}
    (h : ∀ c, q ((simulation d).commit c) = p c) (as : List (Act d)) :
    (tableHistory d as).countP q = ((machine d).history (fresh d) as).countP p := by
  rw [tableHistory, List.countP_map]
  exact List.countP_congr fun c _ => by rw [Function.comp, h]

theorem forall_commit {p : Commit State (Act d) Packet → Bool}
    {q : Commit (Table Bytes32) Move (Ball Bytes32) → Bool}
    (h : ∀ c, q ((simulation d).commit c) = p c) {v : Bool}
    {k : List (Commit State (Act d) Packet)} (hp : ∀ c ∈ k, p c = v) :
    ∀ c ∈ k.map (simulation d).commit, q c = v := by
  intro c hc
  obtain ⟨c₀, hc₀, rfl⟩ := List.mem_map.mp hc
  rw [h]
  exact hp c₀ hc₀

theorem emitted_tableHistory (d : Deployment) (as : List (Act d)) :
    Machine.emitted (tableHistory d as) =
      (Machine.emitted ((machine d).history (fresh d) as)).map Packet.ball := by
  simp only [Machine.emitted, tableHistory, List.flatMap_map, List.map_flatMap]
  rfl

end CrossChainPingPong.Joint
