import CrossChainPingPong.Svm.Accounts
import CrossChainPingPong.Svm.Outcome
import CrossChainPingPong.Library.Record

namespace CrossChainPingPong.Svm
open Guard

structure Accounts where
  game : Option Bytes
  lzReceiveTypesAccounts : Option Bytes
  peer : U32 → Option Bytes

def Accounts.empty : Accounts := ⟨none, none, fun _ => none⟩

-- an instruction sees only the accounts that it names
def Ledger.ofPeer (game : Option GameState) (eid : U32) (peer : Option PeerConfig) : Ledger :=
  ⟨game, none, Function.update (fun _ => none) eid peer⟩

namespace Stored
variable (rt : Runtime) (d : Discriminators)

def apply : Ix → Accounts → Except AccountError (Accounts × List Sent)
  | .initStore params, a => do
      require (a.game = none) (.handler .accountAlreadyInUse)
      require (a.lzReceiveTypesAccounts = none) (.handler .accountAlreadyInUse)
      let (l, out) ← (InitGame.apply rt params .empty).mapError .handler
      let game ← d.game.storeAll a.game l.game
      let lzReceiveTypesAccounts ← d.lzTypes.storeAll a.lzReceiveTypesAccounts l.lzReceiveTypesAccounts
      pure ({ a with game, lzReceiveTypesAccounts }, out)
  | .setPeerConfig oapp admin params, a => do
      let peer ← d.peer.loadAll (a.peer params.remoteEid)
      let game ← d.game.loadAll a.game
      let (l, out) ← (SetPeerConfig.apply rt oapp admin params
        (Ledger.ofPeer game params.remoteEid peer)).mapError .handler
      let peer ← d.peer.storeAll (a.peer params.remoteEid) (l.peer params.remoteEid)
      pure ({ a with peer := Function.update a.peer params.remoteEid peer }, out)
  | .pauseGame admin, a => do
      let game ← d.game.loadAll a.game
      let (_, out) ← (PauseGame.apply admin ⟨game, none, fun _ => none⟩).mapError .handler
      pure (a, out)
  | .resumeGame admin, a => do
      let game ← d.game.loadAll a.game
      let (_, out) ← (ResumeGame.apply admin ⟨game, none, fun _ => none⟩).mapError .handler
      pure (a, out)
  | .sendBall oapp accounts params, a => do
      let game ← d.game.loadAll a.game
      let peer ← d.peer.loadAll (a.peer params.dstEid)
      let (l, out) ← (SendBall.apply rt oapp accounts params
        (Ledger.ofPeer game params.dstEid peer)).mapError .handler
      let game ← d.game.storeAll a.game l.game
      pure ({ a with game }, out)
  | .lzReceive oapp accounts params, a => do
      let game ← d.game.loadAll a.game
      let peer ← d.peer.loadAll (a.peer params.srcEid)
      let (l, out) ← (LzReceive.apply rt oapp accounts params
        (Ledger.ofPeer game params.srcEid peer)).mapError .handler
      let game ← d.game.storeAll a.game l.game
      pure ({ a with game }, out)
  | .closeGame admin, a => do
      let game ← d.game.loadAll a.game
      let (_, out) ← (CloseGame.apply admin ⟨game, none, fun _ => none⟩).mapError .handler
      pure ({ a with game := none, lzReceiveTypesAccounts := none }, out)

def machine : Machine Accounts Ix AccountError Sent := ⟨apply rt d⟩

end Stored

section
variable (rt : Runtime) (oapp : Oapp) (accounts : List LzAccount) (admin : Pubkey) (l : Ledger)

theorem initGame_eq_ok {params : InitGameParams} {l' : Ledger} {out : List Sent} :
    InitGame.apply rt params l = .ok (l', out) ↔ l.game = none ∧ l.lzReceiveTypesAccounts = none ∧
      out = [] ∧ l' = { l with
        game := some (GameState.fresh rt params)
        lzReceiveTypesAccounts := some ⟨rt.gameAddress.1⟩ } := by
  simp only [InitGame.apply, bind_eq_ok, require_eq_ok, pure_eq_ok, exists_const, Prod.mk.injEq]
  constructor
  · rintro ⟨hgame, hlz, rfl, rfl⟩
    exact ⟨hgame, hlz, rfl, rfl⟩
  · rintro ⟨hgame, hlz, rfl, rfl⟩
    exact ⟨hgame, hlz, rfl, rfl⟩

theorem setPeerConfig_local (params : SetPeerConfigParams) :
    SetPeerConfig.apply rt oapp admin params l =
      (SetPeerConfig.apply rt oapp admin params
        (Ledger.ofPeer l.game params.remoteEid (l.peer params.remoteEid))).map fun r =>
          ({ l with peer := Function.update l.peer params.remoteEid (r.1.peer params.remoteEid) },
            r.2) := by
  obtain ⟨eid, config⟩ := params
  cases config <;>
    simp only [SetPeerConfig.apply, Ledger.ofPeer, map_bind, Guard.map_pure, Function.update_self]

theorem sendBall_local (params : SendBallParams) :
    SendBall.apply rt oapp accounts params l =
      (SendBall.apply rt oapp accounts params
        (Ledger.ofPeer l.game params.dstEid (l.peer params.dstEid))).map fun r =>
          ({ l with game := r.1.game }, r.2) := by
  simp only [SendBall.apply, Ledger.ofPeer, map_bind, Guard.map_pure, Function.update_self]

theorem pauseGame_local : PauseGame.apply admin l =
    (PauseGame.apply admin ⟨l.game, none, fun _ => none⟩).map fun r => (l, r.2) := by
  obtain ⟨game, lzTypes, peer⟩ := l
  cases game with
  | none => rfl
  | some g => simp only [PauseGame.apply, map_bind, Guard.map_pure, okOr_some_bind,
      PauseGame.gameIsMut, writeBack, Bool.false_eq_true, if_false]

theorem resumeGame_local : ResumeGame.apply admin l =
    (ResumeGame.apply admin ⟨l.game, none, fun _ => none⟩).map fun r => (l, r.2) := by
  obtain ⟨game, lzTypes, peer⟩ := l
  cases game with
  | none => rfl
  | some g => simp only [ResumeGame.apply, map_bind, Guard.map_pure, okOr_some_bind,
      ResumeGame.gameIsMut, writeBack, Bool.false_eq_true, if_false]

theorem closeGame_local : CloseGame.apply admin l =
    (CloseGame.apply admin ⟨l.game, none, fun _ => none⟩).map fun r =>
      ({ l with game := none, lzReceiveTypesAccounts := none }, r.2) := by
  simp only [CloseGame.apply, map_bind, Guard.map_pure]

theorem lzReceive_local (params : LzReceiveParams) :
    LzReceive.apply rt oapp accounts params l =
      (LzReceive.apply rt oapp accounts params
        (Ledger.ofPeer l.game params.srcEid (l.peer params.srcEid))).map fun r =>
          ({ l with game := r.1.game }, r.2) := by
  simp only [LzReceive.apply, Ledger.ofPeer, map_bind, Guard.map_pure, Function.update_self]

end

theorem game_sized : GameState.format.Sized fun _ => 112 := by
  have h := ((Format.array_sized 32).pair ((Format.word_sized 1).pair ((Format.array_sized 32).pair
    ((Format.word_sized 16).pair ((Format.word_sized 8).pair ((Format.word_sized 8).pair
      (Format.bool_sized.pair (Format.bool_sized.pair (Format.bool_sized.pair
        ((Format.word_sized 4).pair (Format.word_sized 8))))))))))).iso GameState.fields
  exact h

theorem game_total : GameState.format.Total :=
  ((Format.array_total 32).pair ((Format.word_total 1).pair ((Format.array_total 32).pair
    ((Format.word_total 16).pair ((Format.word_total 8).pair ((Format.word_total 8).pair
      (Format.bool_total.pair (Format.bool_total.pair (Format.bool_total.pair
        ((Format.word_total 4).pair (Format.word_total 8))))))))))).iso GameState.fields

theorem lzTypes_sized : LzReceiveTypesAccounts.format.Sized fun _ => 32 :=
  (Format.array_sized 32).iso LzReceiveTypesAccounts.fields

theorem lzTypes_total : LzReceiveTypesAccounts.format.Total :=
  (Format.array_total 32).iso LzReceiveTypesAccounts.fields

theorem peer_sized : PeerConfig.format.Sized fun p => 32 + (4 + p.enforcedOptions.send.length + 1) :=
  ((Format.array_sized 32).pair (Format.vec_sized.pair (Format.word_sized 1))).iso PeerConfig.fields

theorem peer_written {p : PeerConfig} (h : p.enforcedOptions.send.length < 2 ^ 32) :
    ∃ image, PeerConfig.format.write p = some image := by
  obtain ⟨first, hfirst⟩ := Format.array_total 32 p.peerAddress
  obtain ⟨second, hsecond⟩ := Format.vec_write h
  obtain ⟨third, hthird⟩ := Format.word_total 1 p.bump
  exact ⟨first ++ (second ++ third), by
    simp [PeerConfig.format, Format.iso, Format.pair, PeerConfig.fields, hfirst, hsecond, hthird]⟩

def Ix.fits : Ix → Bool
  | .setPeerConfig _ _ ⟨_, .enforcedOptions send⟩ =>
      decide (send.length ≤ enforcedOptionsSendMaxLen)
  | _ => true

structure Represents (d : Discriminators) (a : Accounts) (l : Ledger) : Prop where
  game : d.game.Kept a.game l.game
  lzTypes : d.lzTypes.Kept a.lzReceiveTypesAccounts l.lzReceiveTypesAccounts
  peer : ∀ eid, d.peer.Kept (a.peer eid) (l.peer eid)

section
variable {rt : Runtime} {d : Discriminators} {a a' : Accounts} {l l' : Ledger} {out : List Sent}
  {ix : Ix}

theorem peer_fits_iff {p : PeerConfig} :
    (∃ body, PeerConfig.format.write p = some body ∧ 8 + body.length ≤ PeerConfig.size) ↔
      p.enforcedOptions.send.length ≤ enforcedOptionsSendMaxLen := by
  constructor
  · rintro ⟨body, hbody, hfits⟩
    have hlen : body.length = 32 + (4 + p.enforcedOptions.send.length + 1) :=
      peer_sized p body hbody
    simp only [PeerConfig.size, EnforcedOptions.initSpace] at hfits
    omega
  · intro h
    have hlt : p.enforcedOptions.send.length < 2 ^ 32 := h.trans_lt (by decide)
    obtain ⟨body, hbody⟩ := peer_written hlt
    refine ⟨body, hbody, ?_⟩
    rw [peer_sized p body hbody]
    simp only [PeerConfig.size, EnforcedOptions.initSpace]
    omega

theorem storeGame_succeeds {data : Option Bytes} {old : Option GameState} (h : d.game.Kept data old)
    (g : GameState) : ∃ data', d.game.storeAll data (some g) = .ok data' := by
  obtain ⟨body, hbody⟩ := game_total g
  have hspace : 8 + 112 ≤ GameState.size := by decide
  exact AccountType.storeAll_succeeds h hbody (game_sized g body hbody ▸ hspace)

theorem storeLzTypes_succeeds {data : Option Bytes} {old : Option LzReceiveTypesAccounts}
    (h : d.lzTypes.Kept data old) (t : LzReceiveTypesAccounts) :
    ∃ data', d.lzTypes.storeAll data (some t) = .ok data' := by
  obtain ⟨body, hbody⟩ := lzTypes_total t
  have hspace : 8 + 32 ≤ LzReceiveTypesAccounts.size := by decide
  exact AccountType.storeAll_succeeds h hbody (lzTypes_sized t body hbody ▸ hspace)

theorem setPeerConfig_peer {oapp : Oapp} {admin : Pubkey} {params : SetPeerConfigParams}
    (h : SetPeerConfig.apply rt oapp admin params l = .ok (l', out)) :
    ∃ p, l'.peer params.remoteEid = some p ∧ p.enforcedOptions.send = match params.config with
      | .peerAddress _ => ((l.peer params.remoteEid).map fun p => p.enforcedOptions.send).getD []
      | .enforcedOptions send => send := by
  obtain ⟨eid, config⟩ := params
  cases config with
  | peerAddress address =>
    simp only [SetPeerConfig.apply, bind_eq_ok, okOr_eq_ok, require_eq_ok, pure_eq_ok, exists_const,
      Prod.mk.injEq] at h
    obtain ⟨g, -, -, p, rfl, rfl, -⟩ := h
    refine ⟨_, Function.update_self .., ?_⟩
    cases l.peer eid <;> rfl
  | enforcedOptions send =>
    simp only [SetPeerConfig.apply, bind_eq_ok, okOr_eq_ok, require_eq_ok, pure_eq_ok, exists_const,
      Prod.mk.injEq] at h
    obtain ⟨g, -, -, p, -, rfl, rfl, -⟩ := h
    exact ⟨_, Function.update_self .., rfl⟩

theorem fits_of_kept {data : Option Bytes} {p : PeerConfig} (h : d.peer.Kept data (some p)) :
    p.enforcedOptions.send.length ≤ enforcedOptionsSendMaxLen := by
  cases data with
  | none => cases h
  | some data => exact peer_fits_iff.mp (AccountType.fits_of_holds h)

theorem stored_sound (hr : Represents d a l) (h : Stored.apply rt d ix a = .ok (a', out)) :
    ∃ l', apply rt ix l = .ok (l', out) ∧ Represents d a' l' ∧ ix.fits = true := by
  cases ix with
  | initStore params =>
    simp only [Stored.apply, bind_eq_ok, require_eq_ok, mapError_eq_ok, pure_eq_ok, Prod.exists,
      Prod.mk.injEq, exists_const] at h
    obtain ⟨hnoGame, hnoLz, r, _, hsmall, game, hgame, lzTypes, hlz, rfl, rfl⟩ := h
    obtain ⟨-, -, rfl, rfl⟩ := (initGame_eq_ok rt .empty).mp hsmall
    have hempty : l.game = none ∧ l.lzReceiveTypesAccounts = none :=
      ⟨(AccountType.kept_none_iff hr.game).mp hnoGame, (AccountType.kept_none_iff hr.lzTypes).mp hnoLz⟩
    refine ⟨_, (initGame_eq_ok rt l).mpr ⟨hempty.1, hempty.2, rfl, rfl⟩, ?_, rfl⟩
    exact ⟨AccountType.kept_of_storeAll hr.game hgame, AccountType.kept_of_storeAll hr.lzTypes hlz,
      hr.peer⟩
  | sendBall oapp accounts params =>
    simp only [Stored.apply, AccountType.loadAll_of_kept hr.game,
      AccountType.loadAll_of_kept (hr.peer params.dstEid), bind_eq_ok, mapError_eq_ok, pure_eq_ok,
      Prod.exists, Prod.mk.injEq, Except.ok.injEq, exists_eq_left'] at h
    obtain ⟨r, _, hsmall, game, hgame, rfl, rfl⟩ := h
    refine ⟨_, (sendBall_local rt oapp accounts l params).trans (map_eq_ok.mpr ⟨_, hsmall, rfl⟩), ?_,
      rfl⟩
    exact ⟨AccountType.kept_of_storeAll hr.game hgame, hr.lzTypes, hr.peer⟩
  | lzReceive oapp accounts params =>
    simp only [Stored.apply, AccountType.loadAll_of_kept hr.game,
      AccountType.loadAll_of_kept (hr.peer params.srcEid), bind_eq_ok, mapError_eq_ok, pure_eq_ok,
      Prod.exists, Prod.mk.injEq, Except.ok.injEq, exists_eq_left'] at h
    obtain ⟨r, _, hsmall, game, hgame, rfl, rfl⟩ := h
    refine ⟨_, (lzReceive_local rt oapp accounts l params).trans (map_eq_ok.mpr ⟨_, hsmall, rfl⟩), ?_,
      rfl⟩
    exact ⟨AccountType.kept_of_storeAll hr.game hgame, hr.lzTypes, hr.peer⟩
  | pauseGame admin =>
    simp only [Stored.apply, AccountType.loadAll_of_kept hr.game, bind_eq_ok, mapError_eq_ok,
      pure_eq_ok, Prod.exists, Prod.mk.injEq, Except.ok.injEq, exists_eq_left'] at h
    obtain ⟨r, _, hsmall, rfl, rfl⟩ := h
    exact ⟨_, (pauseGame_local admin l).trans (map_eq_ok.mpr ⟨_, hsmall, rfl⟩), hr, rfl⟩
  | resumeGame admin =>
    simp only [Stored.apply, AccountType.loadAll_of_kept hr.game, bind_eq_ok, mapError_eq_ok,
      pure_eq_ok, Prod.exists, Prod.mk.injEq, Except.ok.injEq, exists_eq_left'] at h
    obtain ⟨r, _, hsmall, rfl, rfl⟩ := h
    exact ⟨_, (resumeGame_local admin l).trans (map_eq_ok.mpr ⟨_, hsmall, rfl⟩), hr, rfl⟩
  | closeGame admin =>
    simp only [Stored.apply, AccountType.loadAll_of_kept hr.game, bind_eq_ok, mapError_eq_ok,
      pure_eq_ok, Prod.exists, Prod.mk.injEq, Except.ok.injEq, exists_eq_left'] at h
    obtain ⟨r, _, hsmall, rfl, rfl⟩ := h
    exact ⟨_, (closeGame_local admin l).trans (map_eq_ok.mpr ⟨_, hsmall, rfl⟩),
      ⟨trivial, trivial, hr.peer⟩, rfl⟩
  | setPeerConfig oapp admin params =>
    simp only [Stored.apply, AccountType.loadAll_of_kept hr.game,
      AccountType.loadAll_of_kept (hr.peer params.remoteEid), bind_eq_ok, mapError_eq_ok, pure_eq_ok,
      Prod.exists, Prod.mk.injEq, Except.ok.injEq, exists_eq_left'] at h
    obtain ⟨r, _, hsmall, peer, hpeer, rfl, rfl⟩ := h
    have hkept := AccountType.kept_of_storeAll (hr.peer params.remoteEid) hpeer
    refine ⟨_, (setPeerConfig_local rt oapp admin l params).trans (map_eq_ok.mpr ⟨_, hsmall, rfl⟩), ?_,
      ?_⟩
    · refine ⟨hr.game, hr.lzTypes, fun eid => ?_⟩
      by_cases heid : eid = params.remoteEid
      · subst heid
        simpa using hkept
      · simpa [Function.update_of_ne heid] using hr.peer eid
    · obtain ⟨p, hp, hsend⟩ := setPeerConfig_peer hsmall
      rw [hp] at hkept
      obtain ⟨eid, config⟩ := params
      cases config with
      | peerAddress => rfl
      | enforcedOptions send =>
        have hfits := fits_of_kept hkept
        rw [hsend] at hfits
        exact decide_eq_true hfits

theorem stored_complete (hr : Represents d a l) (h : apply rt ix l = .ok (l', out))
    (fits : ix.fits = true) :
    ∃ a', Stored.apply rt d ix a = .ok (a', out) := by
  cases ix with
  | initStore params =>
    obtain ⟨hnoGame, hnoLz, rfl, rfl⟩ := (initGame_eq_ok rt l).mp h
    obtain ⟨game, hgame⟩ := storeGame_succeeds hr.game (GameState.fresh rt params)
    obtain ⟨lzTypes, hlz⟩ := storeLzTypes_succeeds hr.lzTypes ⟨rt.gameAddress.1⟩
    simp only [Stored.apply, bind_eq_ok, require_eq_ok, mapError_eq_ok, pure_eq_ok, Prod.exists,
      Prod.mk.injEq, exists_const]
    exact ⟨_, (AccountType.kept_none_iff hr.game).mpr hnoGame,
      (AccountType.kept_none_iff hr.lzTypes).mpr hnoLz, _, _,
      (initGame_eq_ok rt .empty).mpr ⟨rfl, rfl, rfl, rfl⟩, game, hgame, lzTypes, hlz, rfl, rfl⟩
  | sendBall oapp accounts params =>
    obtain ⟨⟨r, _⟩, hsmall, hr'⟩ :=
      map_eq_ok.mp ((sendBall_local rt oapp accounts l params).symm.trans h)
    obtain ⟨-, rfl⟩ := Prod.mk.inj hr'
    obtain ⟨g, hg⟩ : ∃ g, r.game = some g := by
      cases sendBall_outcome hsmall with
      | sendBall => exact ⟨_, rfl⟩
    obtain ⟨game, hgame⟩ := storeGame_succeeds hr.game g
    rw [← hg] at hgame
    simp only [Stored.apply, AccountType.loadAll_of_kept hr.game,
      AccountType.loadAll_of_kept (hr.peer params.dstEid), bind_eq_ok, mapError_eq_ok, pure_eq_ok,
      Prod.exists, Prod.mk.injEq, Except.ok.injEq, exists_eq_left']
    exact ⟨_, r, _, hsmall, game, hgame, rfl, rfl⟩
  | lzReceive oapp accounts params =>
    obtain ⟨⟨r, _⟩, hsmall, hr'⟩ :=
      map_eq_ok.mp ((lzReceive_local rt oapp accounts l params).symm.trans h)
    obtain ⟨-, rfl⟩ := Prod.mk.inj hr'
    obtain ⟨g, hg⟩ : ∃ g, r.game = some g := by
      cases lzReceive_outcome hsmall with
      | lzReceive => exact ⟨_, rfl⟩
    obtain ⟨game, hgame⟩ := storeGame_succeeds hr.game g
    rw [← hg] at hgame
    simp only [Stored.apply, AccountType.loadAll_of_kept hr.game,
      AccountType.loadAll_of_kept (hr.peer params.srcEid), bind_eq_ok, mapError_eq_ok, pure_eq_ok,
      Prod.exists, Prod.mk.injEq, Except.ok.injEq, exists_eq_left']
    exact ⟨_, r, _, hsmall, game, hgame, rfl, rfl⟩
  | pauseGame admin =>
    obtain ⟨⟨r, _⟩, hsmall, hr'⟩ := map_eq_ok.mp ((pauseGame_local admin l).symm.trans h)
    obtain ⟨-, rfl⟩ := Prod.mk.inj hr'
    simp only [Stored.apply, AccountType.loadAll_of_kept hr.game, bind_eq_ok, mapError_eq_ok,
      pure_eq_ok, Prod.exists, Prod.mk.injEq, Except.ok.injEq, exists_eq_left']
    exact ⟨a, r, _, hsmall, rfl, rfl⟩
  | resumeGame admin =>
    obtain ⟨⟨r, _⟩, hsmall, hr'⟩ := map_eq_ok.mp ((resumeGame_local admin l).symm.trans h)
    obtain ⟨-, rfl⟩ := Prod.mk.inj hr'
    simp only [Stored.apply, AccountType.loadAll_of_kept hr.game, bind_eq_ok, mapError_eq_ok,
      pure_eq_ok, Prod.exists, Prod.mk.injEq, Except.ok.injEq, exists_eq_left']
    exact ⟨a, r, _, hsmall, rfl, rfl⟩
  | closeGame admin =>
    obtain ⟨⟨r, _⟩, hsmall, hr'⟩ := map_eq_ok.mp ((closeGame_local admin l).symm.trans h)
    obtain ⟨-, rfl⟩ := Prod.mk.inj hr'
    simp only [Stored.apply, AccountType.loadAll_of_kept hr.game, bind_eq_ok, mapError_eq_ok,
      pure_eq_ok, Prod.exists, Prod.mk.injEq, Except.ok.injEq, exists_eq_left']
    exact ⟨_, r, _, hsmall, rfl, rfl⟩
  | setPeerConfig oapp admin params =>
    obtain ⟨⟨r, _⟩, hsmall, hr'⟩ :=
      map_eq_ok.mp ((setPeerConfig_local rt oapp admin l params).symm.trans h)
    obtain ⟨-, rfl⟩ := Prod.mk.inj hr'
    obtain ⟨p, hp, hsend⟩ := setPeerConfig_peer hsmall
    have hfits : p.enforcedOptions.send.length ≤ enforcedOptionsSendMaxLen := by
      obtain ⟨eid, config⟩ := params
      rw [hsend]
      cases config with
      | enforcedOptions send => exact of_decide_eq_true fits
      | peerAddress address =>
        have hold := hr.peer eid
        simp only [Ledger.ofPeer, Function.update_self]
        cases hpeer : l.peer eid with
        | none => exact Nat.zero_le _
        | some q =>
          rw [hpeer] at hold
          exact fits_of_kept hold
    obtain ⟨body, hbody, hspace⟩ := peer_fits_iff.mpr hfits
    obtain ⟨peer, hpeer⟩ := AccountType.storeAll_succeeds (hr.peer params.remoteEid) hbody hspace
    rw [← hp] at hpeer
    simp only [Stored.apply, AccountType.loadAll_of_kept hr.game,
      AccountType.loadAll_of_kept (hr.peer params.remoteEid), bind_eq_ok, mapError_eq_ok, pure_eq_ok,
      Prod.exists, Prod.mk.injEq, Except.ok.injEq, exists_eq_left']
    exact ⟨_, r, _, hsmall, peer, hpeer, rfl, rfl⟩

end

theorem stored_refines (rt : Runtime) (d : Discriminators) :
    (Stored.machine rt d).Refines (machine rt) Ix.fits (Represents d) where
  sound hr h := by
    obtain ⟨l', hl, hr', hfits⟩ := stored_sound hr h
    exact ⟨hfits, l', hl, hr'⟩
  complete {_ _ _ r} hr h fits := by
    obtain ⟨l', out⟩ := r
    obtain ⟨a', ha⟩ := stored_complete hr h fits
    exact ⟨_, ha⟩

theorem stored_run_refines (rt : Runtime) (d : Discriminators) (ixs : List Ix) :
    let a := (Stored.machine rt d).run .empty ixs
    let l := (machine rt).run .empty (ixs.filter Ix.fits)
    Represents d a l ∧ d.game.loadAll a.game = .ok l.game ∧
      (∀ eid, d.peer.loadAll (a.peer eid) = .ok (l.peer eid)) ∧
      Machine.emitted ((Stored.machine rt d).history .empty ixs) =
        Machine.emitted ((machine rt).history .empty (ixs.filter Ix.fits)) := by
  intro a l
  have hstart : Represents d .empty .empty := ⟨trivial, trivial, fun _ => trivial⟩
  obtain ⟨hr, hout⟩ := (stored_refines rt d).run_related hstart ixs
  exact ⟨hr, AccountType.loadAll_of_kept hr.game,
    fun eid => AccountType.loadAll_of_kept (hr.peer eid), hout⟩

end CrossChainPingPong.Svm
