import CrossChainPingPong.Evm.Pause
import CrossChainPingPong.Evm.Quote
import CrossChainPingPong.Evm.Replay
import CrossChainPingPong.Evm.Routing
import CrossChainPingPong.Evm.Serial
import CrossChainPingPong.Svm.Reopening
import CrossChainPingPong.World.System

namespace CrossChainPingPong.World
open Guard Machine

variable {d : Deployment} {owner : Evm.Address} {admin endpoint : Svm.Pubkey} {s t : State}

namespace Act

def closesGame : Act d → Bool
  | .svm (.closeGame _) _ => true
  | _ => false

def sender : Act d → Option Evm.Address
  | .evm tx _ => tx.sender
  | .svm .. | .deliverEvm .. | .deliverSvm .. => none

end Act

-- whose transactions there can be: nobody's come from address zero or from the contract itself
def Signs (d : Deployment) (a : Evm.Address) : Prop := a ≠ 0 ∧ a ≠ d.evm.self

def keepsBall (c : Commit State (Act d) Packet) : Bool :=
  match c.action with
  | .deliverSvm .. => c.after.svm.holdsBall
  | .evm .. | .svm .. | .deliverEvm .. => false

def setUpEvm (d : Deployment) (owner : Evm.Address) : List (Act d) :=
  [.evm (.pauseGame owner) (foreign_of_none rfl),
    .evm (.setPeer owner d.evm.peerEid d.rt.gameAddress.1) (foreign_of_none rfl)]

def setUpSvm (d : Deployment) (admin endpoint : Svm.Pubkey) : List (Act d) :=
  [.svm (.initStore ⟨admin, endpoint, d.evmEid⟩) (foreign_of_none rfl),
    .svm (.setPeerConfig (Svm.obligingOapp 0) admin ⟨d.evmEid, .peerAddress (d.evm.self.setWidth 256)⟩)
      (foreign_of_none rfl)]

def setUp (d : Deployment) (owner : Evm.Address) (admin endpoint : Svm.Pubkey) : List (Act d) :=
  setUpEvm d owner ++ setUpSvm d admin endpoint

def reset (d : Deployment) (owner : Evm.Address) (admin endpoint : Svm.Pubkey) : List (Act d) :=
  .svm (.closeGame admin) (foreign_of_none rfl) :: setUp d owner admin endpoint

def serves (player : Evm.Msg d.evm) : Act d :=
  .evm (.serve (Evm.obligingOApp 0 player.value) player 100 []) (foreign_of_none rfl)

def arrives (d : Deployment) (n : Nat) : Act d := .deliverSvm n (Svm.obligingOapp 0) [] 1 []

def returns (d : Deployment) (guid : Bytes32) : Act d :=
  .svm (.sendBall (Svm.obligingOapp guid) [] ⟨d.evmEid, Svm.initialBallValue - 1, [], 0⟩)
    (foreign_of_none rfl)

def answers (d : Deployment) (n : Nat) (fee : Evm.Wei) : Act d :=
  .deliverEvm n (Evm.obligingOApp 0 fee) fee 1

def exchange (player : Evm.Msg d.evm) (n : Nat) (guid : Bytes32) (fee : Evm.Wei) : List (Act d) :=
  [serves player, arrives d n, returns d guid, answers d n fee]

def CanGoOn (d : Deployment) (s : State) : Prop :=
  ∃ bs : List (Act d),
    (∀ a ∈ bs, a.closesGame = false ∧ ∀ sender, a.sender = some sender → Signs d sender) ∧
      ∃ c ∈ (machine d).history s bs, keepsBall c = true

def roundTrip : List (Chain × Bytes) :=
  [(.evm, abiEncode Evm.initialBallValue 0), (.svm, abiEncode (Evm.initialBallValue - 1) 1),
    (.evm, abiEncode (Evm.initialBallValue - 2) 2)]

theorem intact_step {c : Commit State (Act d) Packet} (intact : c.before.svm.Intact)
    (hc : (machine d).Commits c) : c.after.svm.Intact := by
  obtain ⟨s, a, s', out⟩ := c
  have effect : Effect s a s' out := commits_effect hc
  cases effect with
  | evm | deliverEvm => exact intact
  | svm applied | deliverSvm here reaches applied =>
    exact Svm.intact_outcome (Svm.apply_outcome applied) intact

theorem intact_run (d : Deployment) (owner : Evm.Address) (balance : Evm.Wei) (as : List (Act d)) :
    ((machine d).run (start owner balance) as).svm.Intact :=
  (machine d).invariant_run (I := fun s : State => s.svm.Intact) Svm.intact_empty (fun _ => intact_step) as

theorem yields_apply {a : Act d} {out : List Packet} (h : apply a s = .ok (t, out)) :
    (machine d).Yields s [a] t out := by
  have hok : (machine d).apply a s = .ok (t, out) := h
  exact yields_ok hok

theorem yields_evm {tx : Evm.Tx d.evm} {foreign : ∀ c, tx.origin? ≠ some (d.address c)}
    {evm : Evm.Storage} (h : Evm.apply tx s.evm = .ok (evm, [])) :
    (machine d).Yields s [.evm tx foreign] { s with evm } [] := by
  refine yields_apply (runEvm_eq_ok.mpr ⟨evm, [], h, ?_, rfl⟩)
  rw [List.map_nil, List.append_nil]

theorem yields_svm {ix : Svm.Ix} {foreign : ∀ c, ix.origin? ≠ some (d.address c)}
    {svm : Svm.Ledger} (h : Svm.apply d.rt ix s.svm = .ok (svm, [])) :
    (machine d).Yields s [.svm ix foreign] { s with svm } [] := by
  refine yields_apply (runSvm_eq_ok.mpr ⟨svm, [], h, ?_, rfl⟩)
  rw [List.map_nil, List.append_nil]

theorem yields_evm_error {tx : Evm.Tx d.evm} {foreign : ∀ c, tx.origin? ≠ some (d.address c)}
    {e : Evm.Revert} (h : Evm.apply tx s.evm = .error e) :
    (machine d).Yields s [.evm tx foreign] s [] := by
  refine yields_error (e := .evm e) ?_
  show runEvm tx s.inFlight s = _
  rw [runEvm, h]
  rfl

theorem yields_svm_error {ix : Svm.Ix} {foreign : ∀ c, ix.origin? ≠ some (d.address c)}
    {e : Svm.Error} (h : Svm.apply d.rt ix s.svm = .error e) :
    (machine d).Yields s [.svm ix foreign] s [] := by
  refine yields_error (e := .svm e) ?_
  show runSvm d ix s.inFlight s = _
  rw [runSvm, h]
  rfl

structure Ready (d : Deployment) (rally : Nat) (s : State) : Prop where
  idle : s.evm.gameState.gameActive = false
  evmPeer : s.evm.peers d.evm.peerEid = d.rt.gameAddress.1
  game : ∃ g, s.svm.game = some g ∧ g.paused = false ∧ g.maxRallies = Svm.maxRalliesCap ∧
    g.rallyCount.toNat = rally
  svmPeer : ∃ p, s.svm.peer d.evmEid = some p ∧ p.peerAddress = d.evm.self.setWidth 256

theorem pauseGame_yields (owned : owner = s.evm.owner) :
    ∃ evm, (machine d).Yields s [.evm (.pauseGame owner) (foreign_of_none rfl)] { s with evm } [] ∧
      evm.owner = owner ∧ evm.gameState.gameActive = false ∧ evm.processedGuid = s.evm.processedGuid := by
  cases hactive : s.evm.gameState.gameActive with
  | true => exact ⟨_, yields_evm (Evm.pauseGame_accepted owned hactive), owned.symm, rfl, rfl⟩
  | false => exact ⟨_, yields_evm_error (Evm.pauseGame_refused owned hactive), owned.symm, hactive, rfl⟩

theorem setUpEvm_yields (owned : owner = s.evm.owner) :
    ∃ evm, (machine d).Yields s (setUpEvm d owner) { s with evm } [] ∧
      evm.gameState.gameActive = false ∧ evm.peers d.evm.peerEid = d.rt.gameAddress.1 ∧
      evm.processedGuid = s.evm.processedGuid := by
  obtain ⟨evm, hpause, howner, hidle, hprocessed⟩ := pauseGame_yields (d := d) owned
  exact ⟨_, hpause.append (yields_evm (Evm.setPeer_accepted howner.symm _ _)), hidle,
    Function.update_self _ _ _, hprocessed⟩

theorem initStore_yields (d : Deployment) (admin endpoint : Svm.Pubkey) (intact : s.svm.Intact)
    (authorised : ∀ g, s.svm.game = some g → g.admin = admin) :
    ∃ svm g, (machine d).Yields s [.svm (.initStore ⟨admin, endpoint, d.evmEid⟩) (foreign_of_none rfl)]
        { s with svm } [] ∧
      svm.game = some g ∧ g.admin = admin ∧ g.paused = false ∧ g.maxRallies = Svm.maxRalliesCap ∧
      g.rallyCount.toNat = s.svm.rallyCount := by
  rw [Svm.Ledger.rallyCount]
  cases hgame : s.svm.game with
  | none => exact ⟨_, _, yields_svm (Svm.initStore_opens intact hgame _), rfl, rfl, rfl, rfl, rfl⟩
  | some g =>
    obtain ⟨hpaused, hmax⟩ := intact.running g hgame
    exact ⟨_, g, yields_svm_error (Svm.initStore_refused hgame _), hgame, authorised g hgame, hpaused,
      hmax, rfl⟩

theorem setUpSvm_yields (intact : s.svm.Intact)
    (authorised : ∀ g, s.svm.game = some g → g.admin = admin) :
    ∃ svm g peer, (machine d).Yields s (setUpSvm d admin endpoint) { s with svm } [] ∧
      svm.game = some g ∧ g.paused = false ∧ g.maxRallies = Svm.maxRalliesCap ∧
      g.rallyCount.toNat = s.svm.rallyCount ∧ svm.peer d.evmEid = some peer ∧
      peer.peerAddress = d.evm.self.setWidth 256 := by
  obtain ⟨svm, g, hinit, hgame, rfl, hpaused, hmax, hcount⟩ :=
    initStore_yields d admin endpoint intact authorised
  obtain ⟨peer, haddress, hconnect⟩ : ∃ p : Svm.PeerConfig, p.peerAddress = d.evm.self.setWidth 256 ∧
      Svm.apply d.rt (.setPeerConfig (Svm.obligingOapp 0) g.admin _) svm = .ok (_, []) :=
    Svm.setPeerConfig_connects (Svm.obligingOapp 0) hgame d.evmEid _
  exact ⟨_, g, peer, hinit.append (yields_svm hconnect), hgame, hpaused, hmax, hcount,
    Function.update_self _ _ _, haddress⟩

theorem setUp_yields (d : Deployment) (admin endpoint : Svm.Pubkey) (owned : owner = s.evm.owner)
    (intact : s.svm.Intact) (authorised : ∀ g, s.svm.game = some g → g.admin = admin) :
    ∃ t, (machine d).Yields s (setUp d owner admin endpoint) t [] ∧ Ready d s.svm.rallyCount t ∧
      t.inFlight = s.inFlight ∧ t.evm.processedGuid = s.evm.processedGuid := by
  obtain ⟨evm, hevm, hidle, hevmPeer, hprocessed⟩ := setUpEvm_yields (d := d) owned
  obtain ⟨svm, g, peer, hsvm, hgame, hpaused, hmax, hcount, hpeer, haddress⟩ :=
    setUpSvm_yields (s := { s with evm }) intact authorised
  exact ⟨_, hevm.append hsvm, ⟨hidle, hevmPeer, ⟨g, hgame, hpaused, hmax, hcount⟩, peer, hpeer, haddress⟩,
    rfl, hprocessed⟩

theorem closeGame_yields (intact : s.svm.Intact)
    (authorised : ∀ g, s.svm.game = some g → g.admin = admin) :
    ∃ svm, (machine d).Yields s [.svm (.closeGame admin) (foreign_of_none rfl)] { s with svm } [] ∧
      svm.game = none ∧ svm.Intact := by
  cases hgame : s.svm.game with
  | none => exact ⟨_, yields_svm_error (Svm.closeGame_refused hgame admin), hgame, intact⟩
  | some g =>
    obtain rfl := authorised g hgame
    have hcloses : Svm.apply d.rt (.closeGame g.admin) s.svm = .ok _ := Svm.closeGame_closes hgame
    exact ⟨_, yields_svm hcloses, rfl, Svm.intact_outcome (Svm.apply_outcome hcloses) intact⟩

theorem reset_yields (d : Deployment) (admin endpoint : Svm.Pubkey) (owned : owner = s.evm.owner)
    (intact : s.svm.Intact) (authorised : ∀ g, s.svm.game = some g → g.admin = admin) :
    ∃ t, (machine d).Yields s (reset d owner admin endpoint) t [] ∧ Ready d 0 t ∧
      t.inFlight = s.inFlight ∧ t.evm.processedGuid = s.evm.processedGuid := by
  obtain ⟨svm, hclose, hclosed, hintact⟩ := closeGame_yields (d := d) intact authorised
  have hnobody : ∀ g, svm.game = some g → g.admin = admin := by
    rw [hclosed]
    rintro g ⟨⟩
  obtain ⟨t, hsetUp, hready, hflying, hprocessed⟩ :=
    setUp_yields d admin endpoint (s := { s with svm }) owned hintact hnobody
  rw [Svm.Ledger.rallyCount, hclosed] at hready
  exact ⟨t, hclose.append hsetUp, hready, hflying, hprocessed⟩

theorem taken_last (pool : List Packet) (p : Packet) :
    (pool ++ [p])[pool.length]? = some p ∧ (pool ++ [p]).eraseIdx pool.length = pool := by
  constructor
  · exact List.getElem?_concat_length
  · rw [List.eraseIdx_append_of_length_le (Nat.le_refl _), Nat.sub_self]
    exact List.append_nil _

theorem deliverEvm_ok {pool : List Packet} {p : Packet} {lz : Evm.OApp} {value : Evm.Wei} {nonce : U64}
    {evm : Evm.Storage} {sent : List Evm.Sent} (flying : s.inFlight = pool ++ [p])
    (reaches : p.reaches d .evm = true)
    (h : Evm.apply (d.delivery p lz value nonce) s.evm = .ok (evm, sent)) :
    apply (.deliverEvm pool.length lz value nonce : Act d) s =
      .ok (⟨evm, s.svm, pool ++ sent.map (fromEvm s.evm)⟩, sent.map (fromEvm s.evm)) := by
  obtain ⟨htaken, herased⟩ := taken_last pool p
  simp only [apply, bind_eq_ok, okOr_eq_ok, require_eq_ok, exists_const, flying, herased]
  exact ⟨p, htaken, reaches, runEvm_eq_ok.mpr ⟨evm, sent, h, rfl, rfl⟩⟩

theorem deliverSvm_ok {pool : List Packet} {p : Packet} {oapp : Svm.Oapp} {accounts : List Svm.LzAccount}
    {nonce : U64} {extraData : Bytes} {svm : Svm.Ledger} {sent : List Svm.Sent}
    (flying : s.inFlight = pool ++ [p]) (reaches : p.reaches d .svm = true)
    (h : Svm.apply d.rt (d.receipt p oapp accounts nonce extraData) s.svm = .ok (svm, sent)) :
    apply (.deliverSvm pool.length oapp accounts nonce extraData : Act d) s =
      .ok (⟨s.evm, svm, pool ++ sent.map fromSvm⟩, sent.map fromSvm) := by
  obtain ⟨htaken, herased⟩ := taken_last pool p
  simp only [apply, bind_eq_ok, okOr_eq_ok, require_eq_ok, exists_const, flying, herased]
  exact ⟨p, htaken, reaches, runSvm_eq_ok.mpr ⟨svm, sent, h, rfl, rfl⟩⟩

structure OnTheWay (d : Deployment) (s t : State) (p : Packet) : Prop where
  active : t.evm.gameState.gameActive = true
  free : t.evm.gameState.hasBall = false
  cap : t.evm.gameState.maxRallies.toNat = 100
  evmPeer : t.evm.peers d.evm.peerEid = d.rt.gameAddress.1
  processed : t.evm.processedGuid = s.evm.processedGuid
  svm : t.svm = s.svm
  flying : t.inFlight = s.inFlight ++ [p]
  source : p.src = .evm
  reaches : p.reaches d .svm = true
  message : p.message = abiEncode Evm.initialBallValue 0

theorem serves_ok {r : Nat} (ready : Ready d r s) (player : Evm.Msg d.evm) :
    ∃ t p, apply (serves player) s = .ok (t, [p]) ∧ OnTheWay d s t p := by
  have hserve : Succeeds (Evm.apply
      (.serve (Evm.obligingOApp 0 player.value) player 100 [] : Evm.Tx d.evm) s.evm) :=
    Evm.serve_succeeds_iff.mpr ⟨ready.idle, by decide, by decide,
      ⟨⟨player.value, 0⟩, rfl, Nat.le_refl _⟩, _, _, rfl, rfl⟩
  obtain ⟨⟨evm, sent⟩, ho⟩ := hserve
  have hdst := Evm.apply_dst ho
  have hok : apply (serves player) s = .ok _ := runEvm_eq_ok.mpr ⟨evm, sent, ho, rfl, rfl⟩
  cases Evm.apply_outcome ho with
  | @serve _ _ _ _ q idle pos le payload =>
    refine ⟨_, fromEvm s.evm q, hok, rfl, rfl, rfl, ready.evmPeer, rfl, rfl, rfl, rfl, ?_, payload⟩
    have hpeer : s.evm.peers q.dstEid = d.rt.gameAddress.1 := by
      rw [hdst q (List.mem_singleton_self q), ready.evmPeer]
    refine decide_eq_true (Prod.ext ?_ hpeer)
    exact hdst q (List.mem_singleton_self q)
  | aside aside => cases aside

theorem arrives_ok {r : Nat} {p : Packet} (ready : Ready d r s) (way : OnTheWay d s t p) (le : r ≤ 98) :
    ∃ svm g, apply (arrives d s.inFlight.length) t = .ok (⟨t.evm, svm, s.inFlight⟩, []) ∧
      svm.game = some g ∧ g.paused = false ∧ g.hasBall = true ∧ g.rallyCount.toNat = r + 1 ∧
      svm.peer = s.svm.peer := by
  obtain ⟨g, hgame, hpaused, hmax, hcount⟩ := ready.game
  obtain ⟨peer, hpeer, haddress⟩ := ready.svmPeer
  have hdec : PingPongMessage.decode p.message = .ok _ :=
    way.message ▸ PingPongMessage.decode_abiEncode Evm.initialBallValue 0
  have hknown : s.svm.peer (d.address p.src).1 = some peer := by
    rw [way.source]
    exact hpeer
  have hsender : (d.address p.src).2 = peer.peerAddress := by
    rw [way.source]
    exact haddress.symm
  have hreceive : Succeeds (Svm.apply d.rt (d.receipt p (Svm.obligingOapp 0) [] 1 []) t.svm) := by
    rw [way.svm]
    exact Svm.lzReceive_accepted hgame hknown hsender hpaused hdec (by decide) (by decide) (by omega)
  obtain ⟨⟨svm, sent⟩, ho⟩ := hreceive
  have hok : apply (arrives d s.inFlight.length) t = .ok _ :=
    deliverSvm_ok way.flying way.reaches ho
  rw [way.svm] at ho
  cases Svm.apply_outcome ho with
  | @lzReceive _ _ _ g' _ m newValue count game known sender running decoded value high next cap =>
    obtain rfl : g = g' := Option.some.inj (hgame.symm.trans game)
    obtain rfl := Except.ok.inj (hdec.symm.trans decoded)
    rw [List.map_nil, List.append_nil] at hok
    refine ⟨_, _, hok, rfl, hpaused, ?_, next.trans (congrArg (· + 1) hcount), rfl⟩
    have hvalue : newValue.toNat + 1 = 100000000000000000000 := value.trans (by decide)
    have hlimit : g.maxRallies.toNat = 100 := congrArg BitVec.toNat hmax
    refine decide_eq_true ⟨?_, by omega⟩
    rintro rfl
    cases hvalue

theorem returns_ok {g : Svm.GameState} {peer : Svm.PeerConfig} (game : t.svm.game = some g)
    (running : g.paused = false) (ball : g.hasBall = true) (first : g.rallyCount.toNat = 1)
    (known : t.svm.peer d.evmEid = some peer) (address : peer.peerAddress = d.evm.self.setWidth 256)
    (guid : Bytes32) :
    ∃ svm q, apply (returns d guid) t = .ok (⟨t.evm, svm, t.inFlight ++ [q]⟩, [q]) ∧ q.src = .svm ∧
      q.reaches d .evm = true ∧ q.guid = guid ∧ q.message = abiEncode (Evm.initialBallValue - 1) 1 := by
  have hpos : 0 < (Svm.initialBallValue - 1).toNat := by decide
  obtain ⟨⟨svm, sent⟩, ho⟩ : Succeeds (Svm.apply d.rt (.sendBall (Svm.obligingOapp guid) []
      ⟨d.evmEid, Svm.initialBallValue - 1, [], 0⟩) t.svm) :=
    Svm.sendBall_accepted guid game known running ball hpos
  have hok : apply (returns d guid) t = .ok _ := runSvm_eq_ok.mpr ⟨svm, sent, ho, rfl, rfl⟩
  have hguid := Svm.sendBall_guid ho
  cases Svm.apply_outcome ho with
  | @sendBall _ _ _ g' peer' p game' known' running ball pos dst receiver payload =>
    obtain rfl : g = g' := Option.some.inj (game.symm.trans game')
    obtain rfl : peer = peer' := Option.some.inj (known.symm.trans known')
    have hone : g.rallyCount = 1 := BitVec.eq_of_toNat_eq first
    refine ⟨_, fromSvm p, hok, rfl, ?_, hguid p (List.mem_singleton_self p), ?_⟩
    · exact decide_eq_true (Prod.ext dst (receiver.trans address))
    · refine payload.trans ?_
      rw [PingPongMessage.encode_eq_abiEncode, hone]
      rfl

theorem answers_ok {pool : List Packet} {q : Packet} (flying : t.inFlight = pool ++ [q])
    (source : q.src = .svm) (reaches : q.reaches d .evm = true)
    (message : q.message = abiEncode (Evm.initialBallValue - 1) 1)
    (active : t.evm.gameState.gameActive = true) (free : t.evm.gameState.hasBall = false)
    (cap : t.evm.gameState.maxRallies.toNat = 100) (fresh : t.evm.processedGuid q.guid = false)
    (fee : Evm.Wei) :
    ∃ u p, apply (answers d pool.length fee) t = .ok (u, [p]) ∧ p.src = .evm ∧
      p.message = abiEncode (Evm.initialBallValue - 2) 2 := by
  have hdec : abiDecode q.message = some (Evm.initialBallValue - 1, 1) :=
    message ▸ abiDecode_abiEncode _ _
  have hpeer : (d.address q.src).1 = d.evm.peerEid := by
    rw [source]
    rfl
  obtain ⟨⟨evm, sent⟩, ho⟩ : Succeeds (Evm.apply (d.delivery q (Evm.obligingOApp 0 fee) fee 1) t.evm) :=
    (Evm.obligingOApp_willing 0 fee).accepted hpeer hdec (by decide) free (Nat.le_add_left _ _)
  have hok : apply (answers d pool.length fee) t = .ok _ := deliverEvm_ok flying reaches ho
  have hlimit : t.evm.cap.toNat = 100 := (congrArg BitVec.toNat (Evm.Storage.cap_of_active active)).trans cap
  cases Evm.apply_outcome ho with
  | aside aside => cases aside
  | replay peer done => cases done.symm.trans fresh
  | finish peer unseen free decoded next last =>
    obtain ⟨rfl, rfl⟩ := Prod.mk.inj (Option.some.inj (hdec.symm.trans decoded))
    have hcount := next.trans (show (1 : Uint256).toNat + 1 = 2 from rfl)
    rcases last with hzero | hlast
    · cases hzero
    · omega
  | @reply _ _ _ _ _ v r count _ p peer unseen free decoded next pos lt payload =>
    obtain ⟨rfl, rfl⟩ := Prod.mk.inj (Option.some.inj (hdec.symm.trans decoded))
    have hcount : count = 2 := BitVec.eq_of_toNat_eq next
    refine ⟨_, _, hok, rfl, payload.trans ?_⟩
    rw [hcount]
    rfl

theorem canGoOn (signs : Signs d s.evm.owner) (intact : s.svm.Intact) (le : s.svm.rallyCount ≤ 98) :
    CanGoOn d s := by
  obtain ⟨admin, authorised⟩ : ∃ admin, ∀ g, s.svm.game = some g → g.admin = admin := by
    cases hgame : s.svm.game with
    | none => exact ⟨0, by rintro _ ⟨⟩⟩
    | some g => exact ⟨g.admin, by rintro _ ⟨⟩; rfl⟩
  let player : Evm.Msg d.evm := ⟨s.evm.owner, 0, signs.2⟩
  obtain ⟨t, hsetUp, hready, -⟩ := setUp_yields d admin 0 rfl intact authorised
  obtain ⟨u, p, hserve, way⟩ := serves_ok hready player
  obtain ⟨svm, g, harrive, hgame, -, hball, -⟩ := arrives_ok hready way le
  refine ⟨(setUp d s.evm.owner admin 0 ++ [serves player]) ++ [arrives d t.inFlight.length], ?_, _,
    (hsetUp.append (yields_apply hserve)).mem_history harrive, ?_⟩
  · intro a ha
    simp only [setUp, setUpEvm, setUpSvm, List.mem_append, List.mem_cons, List.not_mem_nil, or_false] at ha
    rcases ha with (((rfl | rfl) | rfl | rfl) | rfl) | rfl
    · exact ⟨rfl, fun _ hsender => Option.some.inj hsender ▸ signs⟩
    · exact ⟨rfl, fun _ hsender => Option.some.inj hsender ▸ signs⟩
    · exact ⟨rfl, fun _ hnone => by cases hnone⟩
    · exact ⟨rfl, fun _ hnone => by cases hnone⟩
    · exact ⟨rfl, fun _ hsender => Option.some.inj hsender ▸ signs⟩
    · exact ⟨rfl, fun _ hnone => by cases hnone⟩
  · simp only [keepsBall, arrives, Svm.Ledger.holdsBall, hgame, Option.elim, hball]

theorem played_out_step {c : Commit State (Act d) Packet} (intact : c.before.svm.Intact)
    (hc : (machine d).Commits c) (stays : c.action.closesGame = false) {g : Svm.GameState}
    (game : c.before.svm.game = some g) (exhausted : g.PlayedOut) :
    (∃ g', c.after.svm.game = some g' ∧ g'.PlayedOut) ∧ keepsBall c = false := by
  obtain ⟨s, a, s', out⟩ := c
  have effect : Effect s a s' out := commits_effect hc
  cases effect with
  | evm | deliverEvm => exact ⟨⟨g, game, exhausted⟩, rfl⟩
  | @svm ix _ svm sent applied =>
    have hstays : ∀ admin, ix ≠ .closeGame admin := by
      rintro admin rfl
      cases stays
    have hover := Svm.playedOut_outcome (Svm.apply_outcome applied) intact hstays game exhausted
    exact ⟨hover.1, rfl⟩
  | deliverSvm here reaches applied =>
    obtain ⟨hover, hlost⟩ :=
      Svm.playedOut_outcome (Svm.apply_outcome applied) intact (by rintro _ ⟨⟩) game exhausted
    exact ⟨hover, hlost rfl⟩

theorem canGoOn_iff (signs : Signs d s.evm.owner) (intact : s.svm.Intact) :
    CanGoOn d s ↔ s.svm.rallyCount ≤ 98 := by
  refine ⟨?_, canGoOn signs intact⟩
  rintro ⟨bs, stays, c, hc, hkeeps⟩
  by_contra hover
  obtain ⟨g, hgame, hg⟩ : ∃ g, s.svm.game = some g ∧ g.PlayedOut := by
    rw [Svm.Ledger.rallyCount] at hover
    cases hgame : s.svm.game with
    | none =>
      rw [hgame] at hover
      exact absurd (Nat.zero_le _) hover
    | some g =>
      rw [hgame] at hover
      exact ⟨g, rfl, Nat.not_le.mp hover⟩
  have hstays : ∀ e ∈ (machine d).history s bs, e.action.closesGame = false := by
    intro e he
    exact (stays _ ((machine d).action_of_mem he)).1
  have htrace := ((machine d).trace s bs).rule (P := fun h t => (t.svm.Intact ∧
    ∃ g, t.svm.game = some g ∧ g.PlayedOut) ∧ ∀ e ∈ h, keepsBall e = false)
    ⟨⟨intact, g, hgame, hg⟩, List.forall_mem_nil _⟩ ?_ hstays
  · cases (htrace.2 c hc).symm.trans hkeeps
  · rintro h e ⟨⟨hintact, g, hgame, hg⟩, hlost⟩ he hstay
    obtain ⟨hafter, hloses⟩ := played_out_step hintact he hstay hgame hg
    refine ⟨⟨intact_step hintact he, hafter⟩, fun f hf => ?_⟩
    rcases List.mem_append.mp hf with hf | hf
    · exact hlost f hf
    · obtain rfl := List.mem_singleton.mp hf
      exact hloses

theorem reset_restarts (owned : owner = s.evm.owner) (intact : s.svm.Intact)
    (authorised : ∀ g, s.svm.game = some g → g.admin = admin) (player : Evm.Msg d.evm) {guid : Bytes32}
    (fresh : s.evm.processedGuid guid = false) (fee : Evm.Wei) :
    (emitted ((machine d).history s (reset d owner admin endpoint ++
      exchange player s.inFlight.length guid fee))).map (fun p => (p.src, p.message)) = roundTrip := by
  obtain ⟨t, hreset, hready, hflying, hprocessed⟩ :=
    reset_yields d admin endpoint owned intact authorised
  obtain ⟨u, p, hserve, way⟩ := serves_ok hready player
  obtain ⟨svm, g, harrive, hgame, hpaused, hball, hcount, hpeers⟩ := arrives_ok hready way (Nat.zero_le _)
  obtain ⟨peer, hpeer, haddress⟩ := hready.svmPeer
  obtain ⟨svm', q, hreturn, hq, hreaches, hguid, hmessage⟩ :=
    returns_ok (t := ⟨u.evm, svm, t.inFlight⟩) hgame hpaused hball hcount (hpeers ▸ hpeer) haddress guid
  have hunseen : u.evm.processedGuid q.guid = false := by
    rw [way.processed, hprocessed, hguid]
    exact fresh
  obtain ⟨v, r, hanswer, hr, hreply⟩ := answers_ok (t := ⟨u.evm, svm', t.inFlight ++ [q]⟩) rfl hq hreaches
    hmessage way.active way.free way.cap hunseen fee
  have hplay : (machine d).Yields t (exchange player t.inFlight.length guid fee) v
      ([p] ++ ([] ++ ([q] ++ [r]))) :=
    (yields_apply hserve).append <| (yields_apply harrive).append <|
      (yields_apply hreturn).append (yields_apply hanswer)
  rw [← hflying, (hreset.append hplay).2]
  simp only [List.nil_append, List.cons_append, List.map_cons, List.map_nil, way.source, way.message, hq,
    hmessage, hr, hreply, roundTrip]

def abandonedGame : List (Act sampleDeployment) :=
  [.evm (.setPeer 11 40168 sampleDeployment.rt.gameAddress.1) (foreign_of_none rfl),
    .svm (.initStore ⟨3, 5, 40161⟩) (foreign_of_none rfl),
    .evm (Evm.sampleServe 10) (foreign_of_none rfl),
    .evm (.transferOwnership 11 12) (foreign_of_none rfl)]

end CrossChainPingPong.World
