import CrossChainPingPong.Svm.Overwrite
import CrossChainPingPong.World.Parts

namespace CrossChainPingPong.World

variable {d : Deployment} {s s' : State} {out : List Packet} {c : Commit State (Act d) Packet}

def Packet.comes (d : Deployment) (p : Packet) : Bool := p.reaches d .evm || p.reaches d .svm

def State.inPlay (d : Deployment) (s : State) : Nat :=
  s.inFlight.countP (Packet.comes d) + s.svm.holdsBall.toNat

-- a ball is served only when none is in play and no game is closed that holds one; what is
-- delivered was sent by one of the two contracts
def playsOneBall (c : Commit State (Act d) Packet) : Bool :=
  match c.action with
  | .evm (.serve ..) _ => decide (c.before.inPlay d = 0)
  | .evm (.lzReceive ..) _ | .svm (.lzReceive ..) _ => false
  | .svm (.closeGame _) _ => !c.before.svm.holdsBall
  | _ => true

theorem sent_by_evm {tx : Evm.Tx d.evm} {evm evm' : Evm.Storage} {sent : List Evm.Sent}
    (ho : Evm.Outcome evm tx evm' sent) : sent.length ≤ 1 := by
  cases ho <;> simp

theorem comes_evm {p : Packet} (reaches : p.reaches d .evm = true) : p.comes d = true := by
  rw [Packet.comes, reaches, Bool.true_or]

theorem comes_svm {p : Packet} (reaches : p.reaches d .svm = true) : p.comes d = true := by
  rw [Packet.comes, reaches, Bool.or_true]

theorem inPlay_append (evm : Evm.Storage) (svm : Svm.Ledger) (pool sent : List Packet) :
    State.inPlay d ⟨evm, svm, pool ++ sent⟩ ≤ State.inPlay d ⟨evm, svm, pool⟩ + sent.length := by
  have hle := List.countP_le_length (p := Packet.comes d) (l := sent)
  simp only [State.inPlay, List.countP_append]
  omega

theorem holdsBall_after {rt : Svm.Runtime} {ix : Svm.Ix} {l l' : Svm.Ledger} {sent : List Svm.Sent}
    (ho : Svm.Outcome rt l ix l' sent) (quiet : ix.isReceive = false) :
    l'.holdsBall.toNat + sent.length ≤ l.holdsBall.toNat := by
  cases ho with
  | initStore absent => simp [Svm.Ledger.holdsBall, Svm.GameState.fresh, absent]
  | setPeerAddress | setEnforcedOptions | pauseGame | resumeGame => exact Nat.le_refl _
  | closeGame => exact Nat.zero_le _
  | sendBall game known running ball => simp [Svm.Ledger.holdsBall, game, ball]
  | lzReceive => cases quiet

theorem inPlay_step (single : c.before.inPlay d ≤ 1) (hc : (machine d).Commits c)
    (plays : playsOneBall c = true) : c.after.inPlay d ≤ 1 := by
  obtain ⟨s, a, s', out⟩ := c
  have effect : Effect s a s' out := commits_effect hc
  have hsum : s.inFlight.countP (Packet.comes d) + s.svm.holdsBall.toNat ≤ 1 := single
  cases effect with
  | evm applied =>
    cases Evm.apply_outcome applied with
    | serve =>
      have hnone : s.inPlay d = 0 := of_decide_eq_true plays
      exact (inPlay_append _ _ _ _).trans (Nat.add_le_add_right hnone.le _)
    | pauseGame | aside => exact inPlay_append _ _ _ _ |>.trans single
    | replay | finish | reply => cases plays
  | @svm ix _ svm sent applied =>
    have hquiet : ix.isReceive = false := by
      cases ix with
      | lzReceive => cases plays
      | _ => rfl
    have hafter := holdsBall_after (Svm.apply_outcome applied) hquiet
    have hle := List.countP_le_length (p := Packet.comes d) (l := sent.map fromSvm)
    rw [List.length_map] at hle
    simp only [State.inPlay, List.countP_append]
    omega
  | deliverEvm here reaches applied =>
    have herased := Pool.countP_erase (Packet.comes d) here
    rw [comes_evm reaches, Bool.toNat_true] at herased
    have hsent := sent_by_evm (Evm.apply_outcome applied)
    refine (inPlay_append _ _ _ _).trans ?_
    rw [List.length_map]
    simp only [State.inPlay]
    omega
  | @deliverSvm i oapp accounts nonce extraData p svm sent here reaches applied =>
    have herased := Pool.countP_erase (Packet.comes d) here
    rw [comes_svm reaches, Bool.toNat_true] at herased
    have hheld := Bool.toNat_le svm.holdsBall
    cases Svm.apply_outcome applied with
    | lzReceive =>
      simp only [State.inPlay, List.map_nil, List.append_nil]
      omega

theorem spares_step (single : c.before.inPlay d ≤ 1) (hc : (machine d).Commits c)
    (plays : playsOneBall c = true) {ix : Svm.Ix} (move : svmMove c = some ix) (svm' : Svm.Ledger)
    (sent : List Svm.Sent) : Svm.Spares ⟨c.before.svm, ix, svm', sent⟩ := by
  obtain ⟨s, a, s', out⟩ := c
  have effect : Effect s a s' out := commits_effect hc
  have hsum : s.inFlight.countP (Packet.comes d) + s.svm.holdsBall.toNat ≤ 1 := single
  intro hacts
  cases effect with
  | evm | deliverEvm => cases move
  | @svm ix' =>
    obtain rfl : ix' = ix := Option.some.inj move
    rcases hacts with hreceives | hcloses
    · cases ix' with
      | lzReceive => cases plays
      | _ => cases hreceives
    · cases ix' with
      | closeGame => exact Bool.eq_false_of_not_eq_true (by simpa [playsOneBall] using plays)
      | _ => cases hcloses
  | deliverSvm here reaches =>
    have herased := Pool.countP_erase (Packet.comes d) here
    rw [comes_svm reaches, Bool.toNat_true] at herased
    have hzero : s.svm.holdsBall.toNat = 0 := by omega
    exact Bool.toNat_eq_zero.mp hzero

theorem one_ball_is_never_overwritten (d : Deployment) (owner : Evm.Address) (balance : Evm.Wei)
    (as : List (Act d))
    (single : ∀ c ∈ (machine d).history (start owner balance) as, playsOneBall c = true) :
    Svm.NeverOverwritten ((Svm.machine d.rt).history Svm.Ledger.empty
      (((machine d).history (start owner balance) as).filterMap svmMove)) := by
  refine Svm.neverOverwritten_of_spares ((svmPart d).run_induction
    (Q := fun h s => (∀ c ∈ h, Svm.Spares c) ∧ s.inPlay d ≤ 1) (s := start owner balance)
    ⟨List.forall_mem_nil _, Nat.zero_le _⟩ ?_ ?_ as single).1
  · rintro h c ⟨hspares, hsingle⟩ hc hplays -
    exact ⟨hspares, inPlay_step hsingle hc hplays⟩
  · rintro h c ix sent ⟨hspares, hsingle⟩ hc hplays hmove -
    refine ⟨?_, inPlay_step hsingle hc hplays⟩
    exact List.forall_mem_append.mpr ⟨hspares, List.forall_mem_singleton.mpr
      (spares_step hsingle hc hplays hmove _ _)⟩

def longerGame : List (Act sampleDeployment) :=
  sampleGame ++ [.deliverSvm 0 (Svm.obligingOapp 0) [] 2 [],
    .svm (.sendBall (Svm.obligingOapp 9) [] ⟨40161, 4, [], 0⟩) (foreign_of_none rfl),
    .deliverEvm 0 (Evm.obligingOApp 10 0) 0 2, .deliverSvm 0 (Svm.obligingOapp 0) [] 3 []]

theorem longerGame_never_overwritten :
    let moves := ((machine sampleDeployment).history (start 11 0) longerGame).filterMap svmMove
    moves.countP Svm.Ix.isReceive = 3 ∧
      Svm.NeverOverwritten ((Svm.machine Svm.sampleRuntime).history Svm.Ledger.empty moves) :=
  ⟨by decide +kernel, one_ball_is_never_overwritten sampleDeployment 11 0 longerGame (by decide +kernel)⟩

end CrossChainPingPong.World
