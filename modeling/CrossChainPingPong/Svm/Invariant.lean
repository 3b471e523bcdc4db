import CrossChainPingPong.Svm.Outcome
import Mathlib.Data.List.DropRight

namespace CrossChainPingPong.Svm

def sinceInit (h : History) : History := h.rtakeWhile fun c => !c.action.isInit

def countSince (p : Commit Ledger Ix Sent → Bool) (h : History) : Nat := (sinceInit h).countP p

def receives (h : History) : Nat := countSince (fun c => c.action.isReceive) h

def keptReceives (h : History) : Nat :=
  countSince (fun c => c.action.isReceive && c.after.holdsBall) h

def sends (h : History) : Nat := countSince (fun c => c.action.isSend) h

structure SoundGame (h : History) (g : GameState) : Prop where
  maxRallies : g.maxRallies = maxRalliesCap
  counted : g.rallyCount.toNat = receives h
  bounded : g.rallyCount.toNat ≤ maxRalliesCap.toNat
  ball : g.hasBall = true → 0 < g.ballValue.toNat ∧ g.ballValue.toNat < initialBallValue.toNat ∧
    1 ≤ g.rallyCount.toNat ∧ g.rallyCount.toNat < g.maxRallies.toNat
  once : sends h ≤ keptReceives h

structure Tally (h : History) (g : GameState) : Prop extends SoundGame h g where
  spare : sends h + g.hasBall.toNat ≤ keptReceives h

variable {rt : Runtime} {h : History} {c : Commit Ledger Ix Sent}

theorem countSince_init {p : Commit Ledger Ix Sent → Bool} (hi : c.action.isInit = true) :
    countSince p (h ++ [c]) = 0 := by
  simp [countSince, sinceInit, hi]

theorem countSince_concat {p : Commit Ledger Ix Sent → Bool} (hi : c.action.isInit = false) :
    countSince p (h ++ [c]) = countSince p h + (p c).toNat := by
  cases hp : p c <;> simp [countSince, sinceInit, hi, hp]

theorem tally_fresh {params : InitGameParams} (hi : c.action.isInit = true) :
    Tally (h ++ [c]) (GameState.fresh rt params) where
  maxRallies := rfl
  counted := (countSince_init hi).symm
  bounded := Nat.zero_le _
  ball := nofun
  once := (countSince_init hi).trans_le (Nat.zero_le _)
  spare := by simp [sends, countSince_init hi, GameState.fresh]

theorem tally_same {g : GameState} (tally : Tally h g) (hi : c.action.isInit = false)
    (hr : c.action.isReceive = false) (hs : c.action.isSend = false) : Tally (h ++ [c]) g := by
  have hcount (p : Commit Ledger Ix Sent → Bool) (hp : p c = false) :
      countSince p (h ++ [c]) = countSince p h := by
    simp [countSince_concat hi, hp]
  obtain ⟨⟨hmax, hcounted, hbounded, hball, honce⟩, hspare⟩ := tally
  have hreceives : receives (h ++ [c]) = receives h := hcount _ hr
  have hkept : keptReceives (h ++ [c]) = keptReceives h := hcount _ (by simp [hr])
  have hsends : sends (h ++ [c]) = sends h := hcount _ hs
  constructor
  · exact ⟨hmax, hcounted.trans hreceives.symm, hbounded, hball, by rwa [hsends, hkept]⟩
  · rwa [hsends, hkept]

theorem tally_sent {g : GameState} (tally : Tally h g) (ball : g.hasBall = true)
    (hi : c.action.isInit = false) (hr : c.action.isReceive = false)
    (hs : c.action.isSend = true) : Tally (h ++ [c]) { g with hasBall := false } := by
  obtain ⟨⟨hmax, hcounted, hbounded, -, -⟩, hspare⟩ := tally
  have hreceives : receives (h ++ [c]) = receives h := by simp [receives, countSince_concat hi, hr]
  have hkept : keptReceives (h ++ [c]) = keptReceives h := by
    simp [keptReceives, countSince_concat hi, hr]
  have hsends : sends (h ++ [c]) = sends h + 1 := by simp [sends, countSince_concat hi, hs]
  rw [ball, Bool.toNat_true] at hspare
  constructor
  · exact ⟨hmax, hcounted.trans hreceives.symm, hbounded, nofun, by rwa [hsends, hkept]⟩
  · rwa [hsends, hkept]

theorem tally_received {g : GameState} {newValue : U128} {count : U64} {m : PingPongMessage}
    (tally : Tally h g) (value : newValue.toNat + 1 = m.ballValue.toNat)
    (high : m.ballValue.toNat ≤ initialBallValue.toNat)
    (next : count.toNat = g.rallyCount.toNat + 1) (cap : count.toNat ≤ 100)
    (hi : c.action.isInit = false) (hr : c.action.isReceive = true) (hs : c.action.isSend = false)
    (hafter : c.after.game = some (g.received newValue count)) :
    Tally (h ++ [c]) (g.received newValue count) := by
  obtain ⟨⟨hmax, hcounted, -, -, -⟩, hspare⟩ := tally
  have hball : c.after.holdsBall = (g.received newValue count).hasBall := by
    rw [Ledger.holdsBall, hafter, Option.elim_some]
  have hreceives : receives (h ++ [c]) = receives h + 1 := by
    simp [receives, countSince_concat hi, hr]
  have hkept : keptReceives (h ++ [c]) =
      keptReceives h + (g.received newValue count).hasBall.toNat := by
    simp [keptReceives, countSince_concat hi, hr, hball]
  have hsends : sends (h ++ [c]) = sends h := by simp [sends, countSince_concat hi, hs]
  have hspare' : sends (h ++ [c]) + (g.received newValue count).hasBall.toNat ≤
      keptReceives (h ++ [c]) := by
    omega
  have hsound : SoundGame (h ++ [c]) (g.received newValue count) := by
    refine ⟨hmax, ?_, cap, ?_, (Nat.le_add_right _ _).trans hspare'⟩
    · exact next.trans (by rw [hreceives, hcounted])
    · intro hon
      obtain ⟨hv, hlt⟩ : newValue ≠ 0 ∧ count.toNat < g.maxRallies.toNat := of_decide_eq_true hon
      have hpos : 0 < newValue.toNat := Nat.pos_of_ne_zero (BitVec.toNat_ne.mp hv)
      have hone : 1 ≤ count.toNat := next ▸ Nat.le_add_left 1 _
      exact ⟨hpos, by show newValue.toNat < _; omega, hone, hlt⟩
  exact ⟨hsound, hspare'⟩

theorem tally_step (ih : ∀ g, c.before.game = some g → Tally h g) (hc : (machine rt).Commits c) :
    ∀ g, c.after.game = some g → Tally (h ++ [c]) g := by
  obtain ⟨l, ix, l', out⟩ := c
  have ho : Outcome rt l ix l' out := apply_outcome hc
  intro g hg
  cases ho with
  | initStore => cases hg; exact tally_fresh rfl
  | closeGame => cases hg
  | setPeerAddress | setEnforcedOptions | pauseGame | resumeGame =>
    exact tally_same (ih g hg) rfl rfl rfl
  | sendBall game known running ball => cases hg; exact tally_sent (ih _ game) ball rfl rfl rfl
  | lzReceive game known sender running decoded value high next cap =>
    obtain rfl := Option.some.inj hg
    exact tally_received (ih _ game) value high next cap rfl rfl rfl rfl

theorem svm_game_sound (rt : Runtime) (ixs : List Ix) (g : GameState)
    (game : ((machine rt).run Ledger.empty ixs).game = some g) :
    SoundGame ((machine rt).history Ledger.empty ixs) g := by
  have hbase : ∀ g, Ledger.empty.game = some g → Tally [] g := by
    intro g hg
    cases hg
  have htally := (machine rt).run_induction (P := fun h l => ∀ g, l.game = some g → Tally h g)
    hbase (fun h c ih hc => tally_step ih hc) ixs
  exact (htally g game).toSoundGame

def reopenedRun : List Ix :=
  sampleSetup ++ [sampleReceive 5 0, .closeGame 3, .initStore ⟨7, 4, 40161⟩, sampleReceive 5 0,
    sampleSend 4, sampleReceive 3 2]

theorem reopened_game_sound : SoundGame ((machine sampleRuntime).history Ledger.empty reopenedRun)
    ⟨7, 255, 4, 2, 2, 100, true, true, false, 40161, 0⟩ :=
  svm_game_sound sampleRuntime reopenedRun _ (by decide +kernel)

end CrossChainPingPong.Svm
