import CrossChainPingPong.Joint.SingleBall
import CrossChainPingPong.Table.Bound

namespace CrossChainPingPong.Joint
open Machine

variable {d : Deployment}

def State.balls (s : State) : Nat := s.inPlay + s.evm.gameState.hasBall.toNat

def abandons (c : Commit State (Act d) Packet) : Bool :=
  c.action.isPauseGame && decide (0 < c.before.inPlay)

def abandoned (h : List (Commit State (Act d) Packet)) : Nat := h.countP abandons

theorem table_balls (s : State) : s.table.balls = s.balls := by
  rw [Table.balls, table_inPlay]
  rfl

theorem abandons_commit (c : Commit State (Act d) Packet) :
    Table.abandons ((simulation d).commit c) = abandons c := by
  have hpause := isPause_move c.action
  have hin := table_inPlay c.before
  simp only [Table.abandons, abandons, Simulation.commit, Commit.map, simulation, hpause, hin]

theorem balls_le_abandoned_add_one (d : Deployment) (as : List (Act d)) :
    ((machine d).run (fresh d) as).balls ≤ abandoned ((machine d).history (fresh d) as) + 1 := by
  have hc := Table.conserved_trace (table_trace d as) Table.conserved_start
  have hb := hc.balls_le
  rw [table_balls, Table.abandoned, countP_tableHistory abandons_commit] at hb
  exact hb

def secondBallRun : List (Act sampleDeployment) :=
  [sampleServe 7 100, pausesGame sampleDeployment, sampleServe 8 100]

theorem not_always_one_ball :
    ¬ ∀ (d : Deployment) (as : List (Act d)), ((machine d).run (fresh d) as).balls ≤ 1 := by
  intro h
  have hballs : ((machine sampleDeployment).run (fresh sampleDeployment) secondBallRun).balls = 2 := by
    decide +kernel
  have hle := h sampleDeployment secondBallRun
  omega

def Packet.sentBySvm (p : Packet) : Bool := decide (p.dst = .evm)

def Packet.sentByEvm (p : Packet) : Bool := decide (p.dst = .svm)

theorem countP_emitted_tableHistory (q : Ball Bytes32 → Bool) (as : List (Act d)) :
    (emitted (tableHistory d as)).countP q =
      (emitted ((machine d).history (fresh d) as)).countP (q ∘ Packet.ball) := by
  rw [emitted_tableHistory, List.countP_map]

theorem messages_bounded (d : Deployment) (as : List (Act d)) :
    let h := (machine d).history (fresh d) as
    (emitted h).countP Packet.sentBySvm ≤ 99 ∧
      (emitted h).countP Packet.sentByEvm ≤ h.countP (fun c => c.action.isServe) + 98 := by
  obtain ⟨-, -, hsvm, hlow, hevm⟩ := Table.bounded_trace (table_trace d as)
  have hserves : (tableHistory d as).countP (fun c => c.action.isServe) =
      ((machine d).history (fresh d) as).countP fun c => c.action.isServe :=
    countP_tableHistory (fun c => isServe_move c.action) as
  have hfromSvm : Ball.toEvm ∘ Packet.ball = Packet.sentBySvm := rfl
  have hfromEvm : Ball.toSvm ∘ Packet.ball = Packet.sentByEvm := rfl
  simp only [Table.tally, countP_emitted_tableHistory, hserves, hfromSvm] at hsvm
  simp only [Table.tally, countP_emitted_tableHistory] at hlow
  simp only [Table.tally, countP_emitted_tableHistory, hserves, hfromEvm] at hevm
  constructor <;> omega

end CrossChainPingPong.Joint
