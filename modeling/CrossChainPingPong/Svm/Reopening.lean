import CrossChainPingPong.Svm.Outcome

namespace CrossChainPingPong.Svm
open Guard

variable {rt : Runtime} {l l' : Ledger} {ix : Ix} {out : List Sent}

structure Ledger.Intact (l : Ledger) : Prop where
  closed : l.game = none → l.lzReceiveTypesAccounts = none
  running : ∀ g, l.game = some g → g.paused = false ∧ g.maxRallies = maxRalliesCap

def GameState.PlayedOut (g : GameState) : Prop := 98 < g.rallyCount.toNat

def Ledger.rallyCount (l : Ledger) : Nat := l.game.elim 0 fun g => g.rallyCount.toNat

theorem intact_empty : Ledger.empty.Intact := by
  refine ⟨fun _ => rfl, ?_⟩
  rintro g ⟨⟩

theorem intact_outcome (ho : Outcome rt l ix l' out) (intact : l.Intact) : l'.Intact := by
  obtain ⟨hclosed, hrunning⟩ := intact
  cases ho with
  | initStore =>
    refine ⟨?_, ?_⟩
    · rintro ⟨⟩
    · rintro g ⟨⟩
      exact ⟨rfl, rfl⟩
  | setPeerAddress | setEnforcedOptions | pauseGame | resumeGame => exact ⟨hclosed, hrunning⟩
  | closeGame =>
    refine ⟨fun _ => rfl, ?_⟩
    rintro g ⟨⟩
  | sendBall game | lzReceive game =>
    have hsame := hrunning _ game
    refine ⟨?_, ?_⟩
    · rintro ⟨⟩
    · rintro g ⟨⟩
      exact hsame

theorem playedOut_outcome (ho : Outcome rt l ix l' out) (intact : l.Intact)
    (stays : ∀ admin, ix ≠ .closeGame admin) {g : GameState} (game : l.game = some g)
    (exhausted : g.PlayedOut) :
    (∃ g', l'.game = some g' ∧ g'.PlayedOut) ∧ (ix.isReceive = true → l'.holdsBall = false) := by
  cases ho with
  | initStore absent => cases absent.symm.trans game
  | setPeerAddress | setEnforcedOptions | pauseGame | resumeGame =>
    refine ⟨⟨g, game, exhausted⟩, ?_⟩
    rintro ⟨⟩
  | closeGame => exact absurd rfl (stays _)
  | sendBall here =>
    obtain rfl := Option.some.inj (game.symm.trans here)
    refine ⟨⟨_, rfl, exhausted⟩, ?_⟩
    rintro ⟨⟩
  | @lzReceive _ _ _ _ _ m newValue count here known sender running decoded value high next cap =>
    obtain rfl := Option.some.inj (game.symm.trans here)
    have hmax : g.maxRallies.toNat = 100 := congrArg BitVec.toNat (intact.running g game).2
    have hcount : 98 < count.toNat := next ▸ Nat.lt_succ_of_lt exhausted
    refine ⟨⟨_, rfl, hcount⟩, fun _ => ?_⟩
    have hover : ¬ (newValue ≠ 0 ∧ count.toNat < g.maxRallies.toNat) := by
      rintro ⟨-, hlt⟩
      have hfull : 98 < g.rallyCount.toNat := exhausted
      omega
    exact decide_eq_false hover

theorem initStore_opens (intact : l.Intact) (closed : l.game = none) (params : InitGameParams) :
    apply rt (.initStore params) l = .ok ({ l with
      game := some (GameState.fresh rt params)
      lzReceiveTypesAccounts := some ⟨rt.gameAddress.1⟩ }, []) := by
  simp only [apply, InitGame.apply, bind_eq_ok, require_eq_ok, pure_eq_ok, exists_const]
  exact ⟨closed, intact.closed closed, rfl⟩

theorem initStore_refused {g : GameState} (game : l.game = some g) (params : InitGameParams) :
    apply rt (.initStore params) l = .error .accountAlreadyInUse := by
  rw [apply, InitGame.apply, game]
  rfl

theorem setPeerConfig_connects {g : GameState} (oapp : Oapp) (game : l.game = some g) (eid : U32)
    (address : Bytes32) : ∃ peer, peer.peerAddress = address ∧
      apply rt (.setPeerConfig oapp g.admin ⟨eid, .peerAddress address⟩) l =
        .ok ({ l with peer := Function.update l.peer eid (some peer) }, []) := by
  let peer := (l.peer eid).getD ⟨0, ⟨[]⟩, 0⟩
  refine ⟨{ peer with peerAddress := address, bump := (rt.peerAddress eid).2 }, rfl, ?_⟩
  simp only [apply, SetPeerConfig.apply, game, bind_eq_ok, okOr_eq_ok, require_eq_ok, pure_eq_ok,
    exists_const, Option.some.injEq, exists_eq_left', true_and]
  rfl

theorem closeGame_closes {g : GameState} (game : l.game = some g) :
    apply rt (.closeGame g.admin) l = .ok ({ l with game := none, lzReceiveTypesAccounts := none }, []) := by
  simp only [apply, CloseGame.apply, game, bind_eq_ok, okOr_eq_ok, require_eq_ok, pure_eq_ok,
    exists_const, Option.some.injEq, exists_eq_left', true_and]

theorem closeGame_refused (closed : l.game = none) (admin : Pubkey) :
    apply rt (.closeGame admin) l = .error .accountNotInitialized := by
  rw [apply, CloseGame.apply, closed]
  rfl

end CrossChainPingPong.Svm
