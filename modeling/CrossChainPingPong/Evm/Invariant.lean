import CrossChainPingPong.Evm.Outcome

namespace CrossChainPingPong.Evm

variable {I : Immutables}

structure Rallying (sent : List Sent) (s : Storage) : Prop where
  noBall : s.gameState.hasBall = false
  pos : 1 ≤ s.gameState.maxRallies.toNat
  le : s.gameState.maxRallies.toNat ≤ maxRalliesCap.toNat
  lt : s.rallyCount.toNat < s.gameState.maxRallies.toNat
  last : ∃ p, sent.getLast? = some p ∧ p.message = encodeMessage s.ballValue s.rallyCount

def Consistent (sent : List Sent) (s : Storage) : Prop :=
  s.gameState.gameActive = true → Rallying sent s

theorem cap_bounds {sent : List Sent} {s : Storage} (h : Consistent sent s) :
    1 ≤ s.cap.toNat ∧ s.cap.toNat ≤ maxRalliesCap.toNat := by
  unfold Storage.cap
  split
  case isTrue hactive => exact ⟨(h hactive).pos, (h hactive).le⟩
  case isFalse => decide

theorem consistent_outcome {sent out : List Sent} {s s' : Storage} {tx : Tx I}
    (h : Consistent sent s) (ho : Outcome s tx s' out) : Consistent (sent ++ out) s' := by
  cases ho with
  | @serve lz msg m options p idle pos le payload =>
    intro _
    have hm : (m.setWidth 128).toNat = m.toNat := by
      rw [BitVec.toNat_setWidth]
      omega
    exact ⟨rfl, hm ▸ pos, hm ▸ le, hm ▸ pos, p, by simp, payload⟩
  | pauseGame | finish =>
    intro hactive
    cases hactive
  | aside | replay =>
    intro hactive
    obtain ⟨hb, hp, hl, hlt, hlast⟩ := h hactive
    exact ⟨hb, hp, hl, hlt, by simpa using hlast⟩
  | @reply lz value origin guid message v r count balance p peer fresh free decoded next pos lt payload =>
    intro _
    obtain ⟨hp, hl⟩ := cap_bounds h
    exact ⟨rfl, hp, hl, lt, p, by simp, payload⟩

theorem consistent_run (owner : Address) (balance : Wei) (txs : List (Tx I)) :
    Consistent (Machine.emitted ((machine I).history (deployed owner balance) txs))
      ((machine I).run (deployed owner balance) txs) := by
  refine (machine I).run_induction (P := fun h s => Consistent (Machine.emitted h) s) ?_ ?_ txs
  · intro hactive
    cases hactive
  · intro h c ih hc
    rw [Machine.emitted_append, Machine.emitted_singleton]
    exact consistent_outcome ih (apply_outcome hc)

theorem active_game_is_rallying (I : Immutables) (owner : Address) (balance : Wei)
    (txs : List (Tx I))
    (active : ((machine I).run (deployed owner balance) txs).gameState.gameActive = true) :
    let s := (machine I).run (deployed owner balance) txs
    let sent := Machine.emitted ((machine I).history (deployed owner balance) txs)
    s.gameState.hasBall = false ∧
      1 ≤ s.gameState.maxRallies.toNat ∧ s.gameState.maxRallies.toNat ≤ maxRalliesCap.toNat ∧
      s.rallyCount.toNat < s.gameState.maxRallies.toNat ∧
      ∃ p, sent.getLast? = some p ∧ p.message = encodeMessage s.ballValue s.rallyCount := by
  obtain ⟨hb, hp, hl, hlt, hlast⟩ := consistent_run owner balance txs active
  exact ⟨hb, hp, hl, hlt, hlast⟩

theorem active_game_is_rallying_after_serve :
    let s := (machine sampleImmutables).run (deployed 3 0) [sampleServe 10]
    let sent := Machine.emitted ((machine sampleImmutables).history (deployed 3 0) [sampleServe 10])
    s.gameState.hasBall = false ∧
      1 ≤ s.gameState.maxRallies.toNat ∧ s.gameState.maxRallies.toNat ≤ maxRalliesCap.toNat ∧
      s.rallyCount.toNat < s.gameState.maxRallies.toNat ∧
      ∃ p, sent.getLast? = some p ∧ p.message = encodeMessage s.ballValue s.rallyCount :=
  active_game_is_rallying sampleImmutables 3 0 [sampleServe 10] (by decide)

end CrossChainPingPong.Evm
