import CrossChainPingPong.Svm.Program

namespace CrossChainPingPong.Svm
open Guard

def GameState.received (g : GameState) (newValue : U128) (count : U64) : GameState :=
  let goesOn := decide (newValue ≠ 0 ∧ count.toNat < g.maxRallies.toNat)
  { g with ballValue := newValue, rallyCount := count, hasBall := goesOn, gameActive := goesOn }

def GameState.fresh (rt : Runtime) (params : InitGameParams) : GameState where
  admin := params.admin
  bump := rt.gameAddress.2
  endpointProgram := params.endpoint
  ballValue := 0
  rallyCount := 0
  maxRallies := maxRalliesCap
  hasBall := false
  gameActive := false
  paused := false
  remoteEid := params.remoteEid
  lastReceivedNonce := 0

abbrev History := List (Commit Ledger Ix Sent)

def Ix.isInit : Ix → Bool
  | .initStore _ => true
  | _ => false

def Ix.isReceive : Ix → Bool
  | .lzReceive .. => true
  | _ => false

def Ix.isSend : Ix → Bool
  | .sendBall .. => true
  | _ => false

def Ix.isClose : Ix → Bool
  | .closeGame _ => true
  | _ => false

def Ledger.holdsBall (l : Ledger) : Bool := l.game.elim false GameState.hasBall

def obligingOapp (guid : Bytes32) : Oapp where
  clearMinAccountsLen := 0
  combineOptions _ options := some options
  assertType3 _ := true
  send _ _ _ := some guid
  clear _ _ _ := true

def sampleRuntime : Runtime := ⟨fun seeds => (BitVec.ofNat 256 seeds.length, 255), 21⟩

def sampleSetup : List Ix :=
  [.initStore ⟨3, 4, 40161⟩, .setPeerConfig (obligingOapp 0) 3 ⟨40161, .peerAddress 6⟩]

def sampleReceive (ballValue : U128) (rallyCount : U64) : Ix :=
  .lzReceive (obligingOapp 0) []
    ⟨40161, 6, 1, 8, PingPongMessage.encode ⟨ballValue, rallyCount⟩, []⟩

def sampleSend (ballValue : U128) : Ix := .sendBall (obligingOapp 5) [] ⟨40161, ballValue, [], 0⟩

inductive Outcome (rt : Runtime) (l : Ledger) : Ix → Ledger → List Sent → Prop
  | initStore {params} (absent : l.game = none) : Outcome rt l (.initStore params)
      { l with
        game := some (GameState.fresh rt params)
        lzReceiveTypesAccounts := some ⟨rt.gameAddress.1⟩ } []
  | setPeerAddress {oapp g eid address peer} (game : l.game = some g)
      (set : peer.peerAddress = address) :
      Outcome rt l (.setPeerConfig oapp g.admin ⟨eid, .peerAddress address⟩)
        { l with peer := Function.update l.peer eid (some peer) } []
  | setEnforcedOptions {oapp g eid send peer} (game : l.game = some g)
      (kept : peer.peerAddress = ((l.peer eid).map PeerConfig.peerAddress).getD 0) :
      Outcome rt l (.setPeerConfig oapp g.admin ⟨eid, .enforcedOptions send⟩)
        { l with peer := Function.update l.peer eid (some peer) } []
  | pauseGame {g} (game : l.game = some g) (active : g.gameActive = true) :
      Outcome rt l (.pauseGame g.admin) l []
  | resumeGame {g} (game : l.game = some g) (inactive : g.gameActive = false) :
      Outcome rt l (.resumeGame g.admin) l []
  | closeGame {g} (game : l.game = some g) :
      Outcome rt l (.closeGame g.admin) { l with game := none, lzReceiveTypesAccounts := none } []
  | sendBall {oapp accounts params g peer sent} (game : l.game = some g)
      (known : l.peer params.dstEid = some peer) (running : g.paused = false)
      (ball : g.hasBall = true) (pos : 0 < params.ballValue.toNat)
      (dst : sent.params.dstEid = params.dstEid) (receiver : sent.params.receiver = peer.peerAddress)
      (payload : sent.params.message = PingPongMessage.encode ⟨params.ballValue, g.rallyCount⟩) :
      Outcome rt l (.sendBall oapp accounts params)
        { l with game := some { g with hasBall := false } } [sent]
  | lzReceive {oapp accounts params g peer m newValue count} (game : l.game = some g)
      (known : l.peer params.srcEid = some peer) (sender : params.sender = peer.peerAddress)
      (running : g.paused = false) (decoded : PingPongMessage.decode params.message = .ok m)
      (value : newValue.toNat + 1 = m.ballValue.toNat)
      (high : m.ballValue.toNat ≤ initialBallValue.toNat)
      (next : count.toNat = g.rallyCount.toNat + 1) (cap : count.toNat ≤ 100) :
      Outcome rt l (.lzReceive oapp accounts params)
        { l with game := some (g.received newValue count) } []

structure LzReceive.Admits (rt : Runtime) (oapp : Oapp) (accounts : List LzAccount)
    (params : LzReceiveParams) (l : Ledger) (g : GameState) (peer : PeerConfig)
    (m : PingPongMessage) : Prop where
  game : l.game = some g
  known : l.peer params.srcEid = some peer
  sender : params.sender = peer.peerAddress
  running : g.paused = false
  enough : oapp.clearMinAccountsLen ≤ accounts.length
  verified : oapp.clear rt.gameAddress.1 (accounts.take oapp.clearMinAccountsLen)
    ⟨rt.gameAddress.1, params.srcEid, params.sender, params.nonce, params.guid, params.message⟩ = true
  decoded : PingPongMessage.decode params.message = .ok m
  pos : 0 < m.ballValue.toNat
  high : m.ballValue.toNat ≤ initialBallValue.toNat
  cap : g.rallyCount.toNat < 100

variable {rt : Runtime} {oapp : Oapp} {l l' : Ledger} {out : List Sent}

theorem Outcome.sends_built {ix : Ix} (ho : Outcome rt l ix l' out) :
    ∀ p ∈ out, ∃ oapp accounts params g, ix = .sendBall oapp accounts params ∧ l.game = some g ∧
      p.params.message = PingPongMessage.encode ⟨params.ballValue, g.rallyCount⟩ := by
  intro p hp
  cases ho with
  | sendBall game known running ball pos dst receiver payload =>
    obtain rfl := List.mem_singleton.mp hp
    exact ⟨_, _, _, _, rfl, game, payload⟩
  | initStore | setPeerAddress | setEnforcedOptions | pauseGame | resumeGame | closeGame
  | lzReceive => cases hp

theorem initGame_outcome {params : InitGameParams}
    (h : InitGame.apply rt params l = .ok (l', out)) : Outcome rt l (.initStore params) l' out := by
  simp only [InitGame.apply, bind_eq_ok, require_eq_ok, pure_eq_ok, exists_const, Prod.mk.injEq] at h
  obtain ⟨habsent, -, rfl, rfl⟩ := h
  exact .initStore habsent

theorem setPeerConfig_outcome {admin : Pubkey} {params : SetPeerConfigParams}
    (h : SetPeerConfig.apply rt oapp admin params l = .ok (l', out)) :
    Outcome rt l (.setPeerConfig oapp admin params) l' out := by
  obtain ⟨eid, config⟩ := params
  cases config with
  | peerAddress address =>
    simp only [SetPeerConfig.apply, bind_eq_ok, okOr_eq_ok, require_eq_ok, pure_eq_ok, exists_const,
      Prod.mk.injEq] at h
    obtain ⟨g, hg, rfl, _, rfl, rfl, rfl⟩ := h
    exact .setPeerAddress hg rfl
  | enforcedOptions send =>
    simp only [SetPeerConfig.apply, bind_eq_ok, okOr_eq_ok, require_eq_ok, pure_eq_ok, exists_const,
      Prod.mk.injEq] at h
    obtain ⟨g, hg, rfl, _, -, rfl, rfl, rfl⟩ := h
    refine .setEnforcedOptions hg ?_
    cases l.peer eid <;> rfl

theorem sendBall_outcome {accounts : List LzAccount} {params : SendBallParams}
    (h : SendBall.apply rt oapp accounts params l = .ok (l', out)) :
    Outcome rt l (.sendBall oapp accounts params) l' out := by
  simp only [SendBall.apply, bind_eq_ok, okOr_eq_ok, require_eq_ok, pure_eq_ok, exists_const,
    Prod.mk.injEq] at h
  obtain ⟨g, hg, peer, hpeer, hpaused, hball, hpos, options, -, guid, -, rfl, rfl⟩ := h
  exact .sendBall hg hpeer hpaused hball hpos rfl rfl rfl

theorem endIfOver_received (g : GameState) (newValue : U128) (count : U64) :
    LzReceive.endIfOver newValue { g with
      ballValue := newValue, rallyCount := count, hasBall := true, gameActive := true } =
      g.received newValue count := by
  have hle : g.maxRallies ≤ count ↔ ¬ count.toNat < g.maxRallies.toNat := by
    rw [BitVec.le_def, Nat.not_lt]
  unfold LzReceive.endIfOver GameState.endGame GameState.received
  by_cases hz : newValue = 0 <;> by_cases hm : count.toNat < g.maxRallies.toNat <;>
    simp only [hz, hm, hle, if_true, if_false, not_true, not_false_iff, ne_eq, and_self, and_true,
      and_false, decide_true, decide_false]

theorem checkedAdd_of_saturated_le {a : U64}
    (h : (checkedAdd a 1).getD (BitVec.allOnes 64) ≤ maxRalliesCap) :
    ∃ count, checkedAdd a 1 = some count := by
  cases hc : checkedAdd a 1 with
  | some count => exact ⟨count, rfl⟩
  | none =>
    rw [hc] at h
    exact absurd h (by decide)

theorem lzReceive_outcome {accounts : List LzAccount} {params : LzReceiveParams}
    (h : LzReceive.apply rt oapp accounts params l = .ok (l', out)) :
    Outcome rt l (.lzReceive oapp accounts params) l' out := by
  simp only [LzReceive.apply, bind_eq_ok, okOr_eq_ok, require_eq_ok, mapError_eq_ok, pure_eq_ok,
    exists_const, Prod.mk.injEq, endIfOver_received] at h
  obtain ⟨g, hg, peer, hpeer, hsender, hpaused, -, -, m, hm, -, hhigh, newValue, hnew, hcap, rfl,
    rfl⟩ := h
  have hvalue : newValue.toNat + 1 = m.ballValue.toNat := checkedSub_eq_some.mp hnew
  obtain ⟨count, hcount⟩ := checkedAdd_of_saturated_le hcap
  rw [hcount] at hcap ⊢
  exact .lzReceive hg hpeer hsender hpaused hm hvalue hhigh (checkedAdd_eq_some.mp hcount) hcap

theorem apply_outcome {ix : Ix} (h : apply rt ix l = .ok (l', out)) : Outcome rt l ix l' out := by
  cases ix with
  | initStore params => exact initGame_outcome h
  | setPeerConfig oapp admin params => exact setPeerConfig_outcome h
  | sendBall oapp accounts params => exact sendBall_outcome h
  | lzReceive oapp accounts params => exact lzReceive_outcome h
  | pauseGame admin =>
    simp only [apply, PauseGame.apply, bind_eq_ok, okOr_eq_ok, require_eq_ok, pure_eq_ok,
      exists_const, Prod.mk.injEq] at h
    obtain ⟨g, hg, rfl, hactive, rfl, rfl⟩ := h
    simp only [PauseGame.gameIsMut, writeBack, Bool.false_eq_true, if_false, ← hg]
    exact .pauseGame hg hactive
  | resumeGame admin =>
    simp only [apply, ResumeGame.apply, bind_eq_ok, okOr_eq_ok, require_eq_ok, pure_eq_ok,
      exists_const, Prod.mk.injEq] at h
    obtain ⟨g, hg, rfl, hactive, rfl, rfl⟩ := h
    simp only [ResumeGame.gameIsMut, writeBack, Bool.false_eq_true, if_false, ← hg]
    exact .resumeGame hg hactive
  | closeGame admin =>
    simp only [apply, CloseGame.apply, bind_eq_ok, okOr_eq_ok, require_eq_ok, pure_eq_ok,
      exists_const, Prod.mk.injEq] at h
    obtain ⟨g, hg, rfl, rfl, rfl⟩ := h
    exact .closeGame hg

theorem rallyCount_fits {a : U64} :
    (checkedAdd a 1).getD (BitVec.allOnes 64) ≤ maxRalliesCap ↔ a.toNat < 100 := by
  have hone : (1 : U64).toNat = 1 := rfl
  have hcap : maxRalliesCap.toNat = 100 := rfl
  constructor
  · intro h
    obtain ⟨count, hcount⟩ := checkedAdd_of_saturated_le h
    rw [hcount, Option.getD_some, BitVec.le_def, checkedAdd_eq_some.mp hcount] at h
    omega
  · intro h
    rw [show checkedAdd a 1 = some (a + 1) from if_pos (by omega), Option.getD_some, BitVec.le_def,
      BitVec.toNat_add]
    exact (Nat.mod_le _ _).trans (by omega)

theorem lzReceive_succeeds_iff {accounts : List LzAccount} {params : LzReceiveParams} :
    Succeeds (apply rt (.lzReceive oapp accounts params) l) ↔
    ∃ g peer m, LzReceive.Admits rt oapp accounts params l g peer m := by
  simp only [apply, LzReceive.apply, succeeds_bind, okOr_eq_ok, require_eq_ok, mapError_eq_ok,
    exists_const, succeeds_pure, and_true, rallyCount_fits]
  constructor
  · rintro ⟨g, game, peer, known, sender, running, enough, verified, m, decoded, pos, high, _, -, cap⟩
    exact ⟨g, peer, m, game, known, sender, running, enough, verified, decoded, pos, high, cap⟩
  · rintro ⟨g, peer, m, game, known, sender, running, enough, verified, decoded, pos, high, cap⟩
    exact ⟨g, game, peer, known, sender, running, enough, verified, m, decoded, pos, high, _,
      if_pos pos, cap⟩

section
variable {g : GameState} {peer : PeerConfig}

theorem sendBall_accepted (k : Bytes32) {params : SendBallParams} (game : l.game = some g)
    (known : l.peer params.dstEid = some peer) (running : g.paused = false)
    (ball : g.hasBall = true) (pos : 0 < params.ballValue.toNat) :
    Succeeds (apply rt (.sendBall (obligingOapp k) [] params) l) := by
  have hpos : 0 < params.ballValue := pos
  simp only [apply, SendBall.apply, succeeds_bind, okOr_eq_ok, require_eq_ok, exists_const, game,
    known, running, ball, hpos, obligingOapp, Option.some.injEq, exists_eq_left', succeeds_pure,
    and_self]

theorem sendBall_guid {k : Bytes32} {accounts : List LzAccount} {params : SendBallParams}
    (h : apply rt (.sendBall (obligingOapp k) accounts params) l = .ok (l', out)) :
    ∀ p ∈ out, p.guid = k := by
  simp only [apply, SendBall.apply, bind_eq_ok, okOr_eq_ok, require_eq_ok, pure_eq_ok, exists_const,
    Prod.mk.injEq] at h
  obtain ⟨g, -, peer, -, -, -, -, options, -, guid, hguid, -, rfl⟩ := h
  intro p hp
  obtain rfl := List.mem_singleton.mp hp
  exact (Option.some.inj hguid).symm

theorem lzReceive_accepted {params : LzReceiveParams} {m : PingPongMessage}
    (game : l.game = some g) (known : l.peer params.srcEid = some peer)
    (sender : params.sender = peer.peerAddress) (running : g.paused = false)
    (decoded : PingPongMessage.decode params.message = .ok m) (pos : 0 < m.ballValue.toNat)
    (high : m.ballValue.toNat ≤ initialBallValue.toNat) (lt : g.rallyCount.toNat < 100) :
    Succeeds (apply rt (.lzReceive (obligingOapp 0) [] params) l) := by
  have admits : LzReceive.Admits rt (obligingOapp 0) [] params l g peer m :=
    ⟨game, known, sender, running, Nat.le_refl 0, rfl, decoded, pos, high, lt⟩
  exact lzReceive_succeeds_iff.mpr ⟨g, peer, m, admits⟩

end

end CrossChainPingPong.Svm
