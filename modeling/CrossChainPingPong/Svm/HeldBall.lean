import CrossChainPingPong.Library.Past
import CrossChainPingPong.Svm.Outcome

namespace CrossChainPingPong.Svm

def Ix.receivedValue : Ix → Option U128
  | .lzReceive _ _ params => match PingPongMessage.decode params.message with
      | .ok m => some m.ballValue
      | .error _ => none
  | _ => none

def lastReceived (h : List (Commit Ledger Ix Sent)) : Option U128 :=
  (h.filterMap fun c => c.action.receivedValue).getLast?

def ReturnsHeldBall (pre : List (Commit Ledger Ix Sent)) (c : Commit Ledger Ix Sent) : Prop :=
  ∀ oapp accounts params, c.action = .sendBall oapp accounts params →
    ∃ g sent m u, c.before.game = some g ∧ c.out = [sent] ∧
      PingPongMessage.decode sent.params.message = .ok m ∧ m.ballValue = g.ballValue ∧
      lastReceived pre = some u ∧ g.ballValue.toNat + 1 = u.toNat

def SendsStoredValue (c : Commit Ledger Ix Sent) : Prop :=
  ∀ oapp accounts params g, c.action = .sendBall oapp accounts params → c.before.game = some g →
    params.ballValue = g.ballValue

def HoldsLastReceived (h : List (Commit Ledger Ix Sent)) (l : Ledger) : Prop :=
  ∀ g, l.game = some g → g.hasBall = true →
    ∃ u, lastReceived h = some u ∧ g.ballValue.toNat + 1 = u.toNat

theorem lastReceived_append (h : List (Commit Ledger Ix Sent)) (c : Commit Ledger Ix Sent) :
    lastReceived (h ++ [c]) = c.action.receivedValue.or (lastReceived h) := by
  cases hc : c.action.receivedValue <;> simp [lastReceived, hc]

variable {rt : Runtime}

theorem holdsLastReceived_step (h : List (Commit Ledger Ix Sent)) (c : Commit Ledger Ix Sent)
    (ih : HoldsLastReceived h c.before) (hc : (machine rt).Commits c) :
    HoldsLastReceived (h ++ [c]) c.after := by
  obtain ⟨l, ix, l', out⟩ := c
  have ho : Outcome rt l ix l' out := apply_outcome hc
  intro g hg hball
  rw [lastReceived_append]
  cases ho with
  | initStore => cases hg; cases hball
  | closeGame => cases hg
  | sendBall => cases hg; cases hball
  | setPeerAddress | setEnforcedOptions | pauseGame | resumeGame => exact ih g hg hball
  | @lzReceive oapp accounts params g₀ peer m newValue count game known sender running decoded value =>
    cases hg
    exact ⟨m.ballValue, by simp [Ix.receivedValue, decoded], value⟩

theorem returnsHeldBall_commit {pre : List (Commit Ledger Ix Sent)} {c : Commit Ledger Ix Sent}
    (hc : (machine rt).Commits c) (hold : HoldsLastReceived pre c.before) :
    ReturnsHeldBall pre c ↔ SendsStoredValue c := by
  obtain ⟨l, ix, l', out⟩ := c
  have ho : Outcome rt l ix l' out := apply_outcome hc
  constructor
  · rintro hr oapp accounts params g rfl hg
    obtain ⟨g', sent, m, u, hg', hout, hm, hv, -⟩ := hr oapp accounts params rfl
    obtain rfl : g = g' := Option.some.inj (hg.symm.trans hg')
    cases ho with
    | @sendBall _ _ _ _ peer sent' game known running ball pos dst receiver payload =>
      obtain rfl : sent' = sent := (List.cons.inj hout).1
      rw [payload, PingPongMessage.decode_encode] at hm
      cases hm
      exact hv
  · rintro hs oapp accounts params rfl
    cases ho with
    | @sendBall _ _ _ g peer sent game known running ball pos dst receiver payload =>
      obtain ⟨u, hu, hval⟩ := hold g game ball
      have hstored := hs oapp accounts params g rfl game
      exact ⟨g, sent, ⟨params.ballValue, g.rallyCount⟩, u, game, rfl,
        payload ▸ PingPongMessage.decode_encode _, hstored, hu, hval⟩

theorem returns_held_ball_iff (rt : Runtime) (ixs : List Ix) :
    (∀ pre c post, (machine rt).history Ledger.empty ixs = pre ++ c :: post →
        ReturnsHeldBall pre c) ↔
      ∀ c ∈ (machine rt).history Ledger.empty ixs, SendsStoredValue c := by
  have hempty : HoldsLastReceived [] Ledger.empty := by
    intro g hg
    cases hg
  have hiff := ((machine rt).trace Ledger.empty ixs).all_iff (I := HoldsLastReceived)
    (P := ReturnsHeldBall) (Q := fun _ c => SendsStoredValue c) (N := fun _ => True) hempty
    (fun _ _ hold hc _ => returnsHeldBall_commit hc hold)
    (fun h c hold hc _ => holdsLastReceived_step h c hold hc) (fun _ _ => trivial)
  rw [Past.all_mem] at hiff
  exact hiff

def raisedBallRun : List Ix := sampleSetup ++ [sampleReceive 5 0, sampleSend 9]

theorem not_always_returns_held_ball : ¬ ∀ (rt : Runtime) (ixs : List Ix) pre c post,
    (machine rt).history Ledger.empty ixs = pre ++ c :: post → ReturnsHeldBall pre c := by
  intro h
  have hne : (machine sampleRuntime).history Ledger.empty raisedBallRun ≠ [] := by
    intro hnil
    have hlen := congrArg List.length hnil
    exact absurd hlen (by decide +kernel)
  obtain ⟨g, sent, m, u, hg, hout, hm, hv, -⟩ := h sampleRuntime raisedBallRun _ _ []
    (List.dropLast_concat_getLast hne).symm (obligingOapp 5) [] ⟨40161, 9, [], 0⟩ rfl
  have hstored : (((machine sampleRuntime).history Ledger.empty raisedBallRun).getLast
      hne).before.game.map GameState.ballValue = some 4 := rfl
  have hsent : (((machine sampleRuntime).history Ledger.empty raisedBallRun).getLast hne).out.map
      (fun p => PingPongMessage.decode p.params.message) = [.ok ⟨9, 1⟩] := rfl
  rw [hg] at hstored
  rw [hout] at hsent
  obtain rfl : m = ⟨9, 1⟩ := Except.ok.inj (hm.symm.trans (List.cons.inj hsent).1)
  exact absurd (hv.trans (Option.some.inj hstored)) (by decide)

end CrossChainPingPong.Svm
