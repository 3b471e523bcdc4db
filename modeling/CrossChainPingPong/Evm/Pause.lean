import CrossChainPingPong.Evm.Outcome
import CrossChainPingPong.Library.Past

namespace CrossChainPingPong.Evm

variable {I : Immutables}

def Tx.isServe : Tx I → Bool
  | .serve .. => true
  | _ => false

structure Frozen (s t : Storage) : Prop where
  inactive : t.gameState.gameActive = false
  maxRallies : t.gameState.maxRallies = s.gameState.maxRallies
  ballValue : t.ballValue = s.ballValue

structure HoldsPause (s : Storage) (c : Commit Storage (Tx I) Sent) : Prop where
  frozen : Frozen s c.after
  silent : c.out = []

def Harmless (c : Commit Storage (Tx I) Sent) : Prop :=
  match c.action with
  | .lzReceive _ _ _ guid message => c.before.processedGuid guid = false →
      ∀ v r, abiDecode message = some (v, r) →
        (v.toNat = 0 ∨ maxRalliesCap.toNat ≤ r.toNat + 1) ∧ v = c.before.ballValue ∧
          c.before.gameState.maxRallies = maxRalliesCap.setWidth 128
  | _ => True

variable {s : Storage} {c : Commit Storage (Tx I) Sent}

theorem harmless_of_isAside (h : c.action.isAside = true) : Harmless c := by
  obtain ⟨t, tx, t', out⟩ := c
  cases tx with
  | lzReceive => cases h
  | _ => trivial

theorem holdsPause_iff (hf : Frozen s c.before) (hc : (machine I).Commits c)
    (noServe : c.action.isServe = false) : HoldsPause s c ↔ Harmless c := by
  obtain ⟨t, tx, t', out⟩ := c
  have ho : Outcome t tx t' out := apply_outcome hc
  obtain ⟨hidle, hmax, hball⟩ := hf
  have hcap : t.cap = maxRalliesCap.setWidth 128 := Storage.cap_of_idle hidle
  cases ho with
  | serve => cases noServe
  | pauseGame owner active => exact absurd (hidle.symm.trans active) (by decide)
  | aside aside =>
    exact ⟨fun _ => harmless_of_isAside aside, fun _ => ⟨⟨hidle, hmax, hball⟩, rfl⟩⟩
  | @replay lz value origin guid message balance peer done =>
    refine ⟨fun _ fresh => ?_, fun _ => ⟨⟨hidle, hmax, hball⟩, rfl⟩⟩
    exact absurd (done.symm.trans fresh) (by decide)
  | @finish lz value origin guid message v r count balance peer fresh free decoded next last =>
    constructor
    · rintro ⟨⟨-, hmax', hball'⟩, -⟩ - v' r' hdec
      obtain ⟨rfl, rfl⟩ := Prod.mk.inj (Option.some.inj (decoded.symm.trans hdec))
      refine ⟨?_, hball'.trans hball.symm, ?_⟩
      · rw [hcap, next] at last
        exact last.imp_left fun hv => congrArg BitVec.toNat hv
      · exact hmax.trans (hmax'.symm.trans hcap)
    · intro harmless
      obtain ⟨-, hv, hstored⟩ := harmless fresh v r decoded
      exact ⟨⟨rfl, (hcap.trans hstored.symm).trans hmax, hv.trans hball⟩, rfl⟩
  | @reply lz value origin guid message v r count balance p peer fresh free decoded next pos lt
      payload =>
    constructor
    · rintro ⟨⟨hactive, -, -⟩, -⟩
      cases hactive
    · intro harmless
      obtain ⟨hlast, -⟩ := harmless fresh v r decoded
      rw [hcap, next] at lt
      rcases hlast with hzero | hge
      · exact absurd (BitVec.eq_of_toNat_eq hzero) pos
      · exact absurd hge (Nat.not_le.mpr lt)

theorem pauseGame_accepted {sender : Address} (owner : sender = s.owner)
    (active : s.gameState.gameActive = true) :
    apply (.pauseGame sender : Tx I) s = .ok (s.setGameActive false, []) := by
  have hrequire : onlyOwner sender s = .ok () := if_pos owner
  simp only [apply, pauseGame, hrequire, Guard.bind_eq_ok, Guard.revertIf_eq_ok,
    Guard.pure_eq_ok, exists_const, active, Bool.true_eq_false, not_false_iff, and_self]

theorem pauseGame_refused {sender : Address} (owner : sender = s.owner)
    (idle : s.gameState.gameActive = false) :
    apply (.pauseGame sender : Tx I) s = .error .gameNotActive := by
  have hrequire : onlyOwner sender s = .ok () := if_pos owner
  rw [apply, pauseGame, hrequire]
  exact (Guard.revertIf_bind (f := fun _ => pure (s.setGameActive false, []))).trans (if_pos idle)

theorem pause_holds_iff (I : Immutables) (owner : Address) (balance : Wei) (txs rest : List (Tx I))
    (sender : Address) (s : Storage) (sent : List Sent)
    (paused : apply (.pauseGame sender : Tx I) ((machine I).run (deployed owner balance) txs) =
      .ok (s, sent))
    (noServe : ∀ c ∈ (machine I).history s rest, c.action.isServe = false) :
    (s.gameState.gameActive = false ∧ sent = [] ∧
        ∀ c ∈ (machine I).history s rest, HoldsPause s c) ↔
      ∀ c ∈ (machine I).history s rest, Harmless c := by
  have hinactive : s.gameState.gameActive = false ∧ sent = [] := by
    cases apply_outcome paused with
    | pauseGame => exact ⟨rfl, rfl⟩
    | aside aside => cases aside
  have hiff := ((machine I).trace s rest).forall_iff (I := Frozen s) (P := HoldsPause s)
    (Q := Harmless) ⟨hinactive.1, rfl, rfl⟩ (fun c hf hc hn => holdsPause_iff hf hc hn)
    (fun c _ _ holds => holds.frozen) noServe
  rw [← hiff]
  exact ⟨fun h => h.2.2, fun h => ⟨hinactive.1, hinactive.2, h⟩⟩

def pausedServe : Storage :=
  ((machine sampleImmutables).run (deployed 3 0) [sampleServe 100]).setGameActive false

theorem pausedServe_paused : apply (.pauseGame 3 : Tx sampleImmutables)
    ((machine sampleImmutables).run (deployed 3 0) [sampleServe 100]) = .ok (pausedServe, []) :=
  pauseGame_accepted rfl rfl

theorem delivery_not_serve {t : Storage} {guid : Bytes32} {v r : Uint256} :
    ∀ c ∈ (machine sampleImmutables).history t [sampleDelivery guid v r],
      c.action.isServe = false := by
  intro c hc
  rw [((machine sampleImmutables).eq_of_mem_singleton hc).2]
  rfl

theorem pause_holds_through_last_rally : pausedServe.gameState.gameActive = false ∧
    ∀ c ∈ (machine sampleImmutables).history pausedServe [sampleDelivery 1 initialBallValue 99],
      HoldsPause pausedServe c := by
  have hiff := pause_holds_iff sampleImmutables 3 0 [sampleServe 100]
    [sampleDelivery 1 initialBallValue 99] 3 pausedServe [] pausedServe_paused delivery_not_serve
  have hharmless : ∀ c ∈ (machine sampleImmutables).history pausedServe
      [sampleDelivery 1 initialBallValue 99], Harmless c := by
    intro c hc
    obtain ⟨hbefore, haction⟩ := (machine sampleImmutables).eq_of_mem_singleton hc
    simp only [Harmless, haction, hbefore, sampleDelivery]
    rintro - v r hdec
    obtain ⟨rfl, rfl⟩ := Prod.mk.inj (Option.some.inj ((abiDecode_abiEncode _ _).symm.trans hdec))
    exact ⟨.inr (by decide), rfl, rfl⟩
  obtain ⟨hinactive, -, holds⟩ := hiff.mpr hharmless
  exact ⟨hinactive, holds⟩

theorem pause_not_always_holds : ¬ ∀ (I : Immutables) (owner : Address) (balance : Wei)
    (txs rest : List (Tx I)) (sender : Address) (s : Storage) (sent : List Sent),
    apply (.pauseGame sender : Tx I) ((machine I).run (deployed owner balance) txs) =
      .ok (s, sent) →
    (∀ c ∈ (machine I).history s rest, c.action.isServe = false) →
    s.gameState.gameActive = false ∧ sent = [] ∧
      ∀ c ∈ (machine I).history s rest, HoldsPause s c := by
  intro h
  obtain ⟨-, -, holds⟩ := h sampleImmutables 3 0 [sampleServe 100] [sampleDelivery 1 5 1] 3
    pausedServe [] pausedServe_paused delivery_not_serve
  have hmem : true ∈ ((machine sampleImmutables).history pausedServe [sampleDelivery 1 5 1]).map
      fun c => c.after.gameState.gameActive := by
    decide +kernel
  obtain ⟨c, hc, hactive⟩ := List.mem_map.mp hmem
  exact absurd (hactive.symm.trans (holds c hc).frozen.inactive) (by decide)

end CrossChainPingPong.Evm
