import CrossChainPingPong.Svm.Outcome

namespace CrossChainPingPong.Svm
open Guard

def Ix.movesBall : Ix → Bool
  | .sendBall .. | .lzReceive .. => true
  | _ => false

def Ix.liftsPause : Ix → Bool
  | .resumeGame _ | .closeGame _ => true
  | _ => false

def Ledger.Inactive (l : Ledger) : Prop := ∀ g, l.game = some g → g.gameActive = false

structure PauseHolds (l : Ledger) (later : History) : Prop where
  inactive : l.Inactive
  silent : ∀ c ∈ later, c.action.movesBall = false
  lasting : ∀ c ∈ later, c.after.Inactive

def Ledger.setGameActive (l : Ledger) (b : Bool) : Ledger :=
  { l with game := l.game.map fun g => { g with gameActive := b } }

-- send_ball and lz_receive ask for paused, which nothing sets, and not for game_active, which
-- pause_game clears in a copy that is not written back
structure PauseIsLost (rt : Runtime) (l l' : Ledger) : Prop where
  dropped : l' = l
  unflagged : ∀ g, l'.game = some g → g.paused = false
  ignored : ∀ ix, ix.movesBall = true →
    (Succeeds (apply rt ix (l'.setGameActive false)) ↔ Succeeds (apply rt ix l'))

variable {rt : Runtime} {l l' : Ledger} {out : List Sent} {admin : Pubkey}

theorem movesBall_ignores_gameActive (b : Bool) {ix : Ix} (moves : ix.movesBall = true) :
    Succeeds (apply rt ix (l.setGameActive b)) ↔ Succeeds (apply rt ix l) := by
  obtain ⟨game, types, peers⟩ := l
  cases game with
  | none => rfl
  | some g =>
    cases ix with
    | sendBall oapp accounts params =>
      simp only [apply, SendBall.apply, Ledger.setGameActive, Option.map_some, succeeds_bind,
        okOr_eq_ok, require_eq_ok, exists_const, Option.some.injEq, exists_eq_left', succeeds_pure]
    | lzReceive oapp accounts params =>
      simp only [apply, LzReceive.apply, Ledger.setGameActive, Option.map_some, succeeds_bind,
        okOr_eq_ok, require_eq_ok, exists_const, Option.some.injEq, exists_eq_left', succeeds_pure]
    | _ => cases moves

theorem paused_never_set (ixs : List Ix) :
    ∀ g, ((machine rt).run Ledger.empty ixs).game = some g → g.paused = false := by
  refine (machine rt).invariant_run (I := fun l => ∀ g, l.game = some g → g.paused = false)
    (fun g hg => by cases hg) ?_ ixs
  intro c ih hc g hg
  obtain ⟨l, ix, l', out⟩ := c
  have ho : Outcome rt l ix l' out := apply_outcome hc
  cases ho with
  | initStore => cases hg; rfl
  | closeGame => cases hg
  | sendBall game known running | lzReceive game known sender running => cases hg; exact running
  | setPeerAddress | setEnforcedOptions | pauseGame | resumeGame => exact ih g hg

theorem pauseGame_outcome (h : apply rt (.pauseGame admin) l = .ok (l', out)) :
    l' = l ∧ ∃ g, l.game = some g ∧ g.gameActive = true := by
  cases apply_outcome h with
  | @pauseGame g game active => exact ⟨rfl, g, game, active⟩

theorem pauseGame_accepted {g : GameState} (game : l.game = some g) (active : g.gameActive = true) :
    apply rt (.pauseGame g.admin) l = .ok (l, []) := by
  obtain ⟨game', types, peers⟩ := l
  obtain rfl : game' = some g := game
  simp only [apply, PauseGame.apply, PauseGame.gameIsMut, writeBack, bind_eq_ok, okOr_eq_ok,
    require_eq_ok, pure_eq_ok, exists_const, active, Option.some.injEq, exists_eq_left', true_and,
    Bool.false_eq_true, if_false]

theorem pause_never_holds (rt : Runtime) (ixs rest : List Ix) (admin : Pubkey) (l : Ledger)
    (out : List Sent)
    (paused : apply rt (.pauseGame admin) ((machine rt).run Ledger.empty ixs) = .ok (l, out)) :
    PauseIsLost rt ((machine rt).run Ledger.empty ixs) l ∧
      ¬ PauseHolds l ((machine rt).history l rest) := by
  obtain ⟨rfl, g, game, active⟩ := pauseGame_outcome paused
  constructor
  · exact ⟨rfl, paused_never_set ixs, fun ix moves => movesBall_ignores_gameActive false moves⟩
  · intro holds
    exact absurd (active.symm.trans (holds.inactive g game)) (by decide)

def heldBallRun : List Ix := sampleSetup ++ [sampleReceive 5 0]

theorem heldBallRun_paused : apply sampleRuntime (.pauseGame 3)
    ((machine sampleRuntime).run Ledger.empty heldBallRun) =
      .ok ((machine sampleRuntime).run Ledger.empty heldBallRun, []) :=
  pauseGame_accepted (g := ⟨3, 255, 4, 4, 1, 100, true, true, false, 40161, 0⟩) rfl rfl

theorem heldBallRun_pause_lost :
    ¬ PauseHolds ((machine sampleRuntime).run Ledger.empty heldBallRun)
      ((machine sampleRuntime).history ((machine sampleRuntime).run Ledger.empty heldBallRun)
        [sampleSend 4]) :=
  (pause_never_holds sampleRuntime heldBallRun [sampleSend 4] 3 _ [] heldBallRun_paused).2

theorem svm_pause_not_always_holds : ¬ ∀ (rt : Runtime) (ixs rest : List Ix) (admin : Pubkey)
    (l : Ledger) (out : List Sent),
    apply rt (.pauseGame admin) ((machine rt).run Ledger.empty ixs) = .ok (l, out) →
    (∀ c ∈ (machine rt).history l rest, c.action.liftsPause = false) →
    PauseHolds l ((machine rt).history l rest) := by
  intro h
  have hkept : ∀ c ∈ (machine sampleRuntime).history
      ((machine sampleRuntime).run Ledger.empty heldBallRun) [sampleSend 4],
      c.action.liftsPause = false := by
    intro c hc
    rw [((machine sampleRuntime).eq_of_mem_singleton hc).2]
    rfl
  have holds := h sampleRuntime heldBallRun [sampleSend 4] 3 _ [] heldBallRun_paused hkept
  have hmem : true ∈ ((machine sampleRuntime).history ((machine sampleRuntime).run Ledger.empty
      heldBallRun) [sampleSend 4]).map fun c => c.action.movesBall := by
    decide +kernel
  obtain ⟨c, hc, hmoves⟩ := List.mem_map.mp hmem
  exact absurd (hmoves.symm.trans (holds.silent c hc)) (by decide)

end CrossChainPingPong.Svm
