import CrossChainPingPong.Joint.Refinement
import CrossChainPingPong.Table.Hops

namespace CrossChainPingPong.Joint

variable {d : Deployment}

def hops (h : List (Commit State (Act d) Packet)) : Hops :=
  h.foldl (fun g c => g.after c.action.move c.out.length) Hops.none

-- one subtraction without wrapping for each accepted delivery, save the one that ends a game on EVM
def Exact (c : Commit State (Act d) Packet) : Prop :=
  match c.action with
  | .deliverEvm i .. => ∀ p, c.before.inFlight[i]? = some p →
      c.before.evm.processedGuid p.guid = false →
      c.after.evm.ballValue.toNat + c.out.length = p.ball.value
  | .deliverSvm i .. => ∀ p, c.before.inFlight[i]? = some p →
      c.after.svmBallValue + 1 = p.ball.value
  | _ => True

theorem hops_tableHistory (d : Deployment) (as : List (Act d)) :
    Table.hops (tableHistory d as) = hops ((machine d).history (fresh d) as) := by
  rw [Table.hops, tableHistory, List.foldl_map, hops]
  simp only [Simulation.commit, Commit.map, simulation, List.length_map]

theorem exact_commit {c : Commit State (Act d) Packet}
    (h : Table.Exact ((simulation d).commit c)) : Exact c := by
  obtain ⟨s, a, s', out⟩ := c
  cases a with
  | evm | svm => trivial
  | deliverEvm i lz value nonce =>
    intro p hp fresh
    have hb : s.table.flying[i]? = some p.ball := by simp [State.table, hp]
    have he := h p.ball hb fresh
    simp only [Simulation.commit, Commit.map, simulation, List.length_map] at he
    exact he
  | deliverSvm i oapp accounts nonce extraData =>
    intro p hp
    have hb : s.table.flying[i]? = some p.ball := by simp [State.table, hp]
    exact h p.ball hb

theorem each_hop_costs_one (d : Deployment) (as : List (Act d))
    (honest : ∀ c ∈ (machine d).history (fresh d) as, sendsStored c = true) :
    let h := (machine d).history (fresh d) as
    let s := (machine d).run (fresh d) as
    List.Forall₂ (fun (p : Packet) k => p.ball.value + k = fullBall) s.inFlight (hops h).flying ∧
      (s.svmHasBall = true → s.svmBallValue + (hops h).held = fullBall) ∧ ∀ c ∈ h, Exact c := by
  have htrace := table_trace d as
  have hl := Table.levelled_trace htrace (forall_commit sendsStored_commit honest)
  rw [hops_tableHistory] at hl
  refine ⟨?_, hl.held, ?_⟩
  · exact List.forall₂_map_left_iff.mp hl.flying
  · intro c hc
    exact exact_commit (Table.exact_step (htrace.step_of_mem (List.mem_map_of_mem hc)))

def pausedRally : List (Act sampleDeployment) :=
  [sampleServe 7 100, reachesSvm sampleDeployment,
    returnsBall sampleDeployment 5 99999999999999999999, reachesEvm sampleDeployment 9,
    pausesGame sampleDeployment, sampleServe 10 50, reachesSvm sampleDeployment]

theorem each_hop_costs_one_in_pausedRally :
    ((machine sampleDeployment).run (fresh sampleDeployment) pausedRally).svmBallValue +
      (hops ((machine sampleDeployment).history (fresh sampleDeployment) pausedRally)).held =
        fullBall :=
  (each_hop_costs_one sampleDeployment pausedRally (by decide +kernel)).2.1 (by decide +kernel)

end CrossChainPingPong.Joint
