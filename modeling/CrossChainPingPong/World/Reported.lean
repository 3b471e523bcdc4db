import CrossChainPingPong.Relayer.Report
import CrossChainPingPong.World.Mail

namespace CrossChainPingPong.World
open Relayer (Poll FoundLog Line)

theorem reported_balls_were_sent (d : Deployment) (chain : Relayer.Chain d.evm) (as : List (Act d))
    (logs : Nat → List FoundLog) (first last : Nat) (polls : List Poll)
    (mined : (chain.minedBefore (last + 1)).map Evm.Mined.tx =
      ((machine d).history (start chain.owner chain.balance) as).filterMap evmMove)
    (shown : chain.ShownBy logs) (answers : ∀ p ∈ polls, p.AnswersFrom logs)
    (recent : (Relayer.machine.run (Relayer.started first) polls).lastProcessedBlock ≤ last) :
    let h := (machine d).history (start chain.owner chain.balance) as
    let lines := Machine.emitted (Relayer.machine.history (Relayer.started first) polls)
    ((lines.filterMap Line.report).map (fun r => (r.1, r.2.1)) : Multiset (Uint256 × Uint256)) ≤
      (Machine.emitted h).filterMap (Packet.returned d) + h.filterMap foreignEvm := by
  intro h lines
  have hreported := Relayer.reported_run shown answers first
  have harrivals : chain.arrivalsBefore (last + 1) = Past.tally Evm.arrival
      ((Evm.machine d.evm).history (Evm.deployed chain.owner chain.balance) (h.filterMap evmMove)) := by
    rw [Relayer.Chain.arrivalsBefore, Relayer.Chain.historyBefore, mined]
    rfl
  have hsublist : ((lines.filterMap Line.report).map fun r => (r.1, r.2.1)).Sublist
      (chain.arrivalsBefore (last + 1)) := by
    refine (List.sublist_append_right (chain.arrivalsBefore (first + 1)) _).trans ?_
    rw [hreported]
    exact chain.arrivalsBefore_mono (Nat.succ_le_succ recent)
  rw [harrivals] at hsublist
  exact (Multiset.coe_le.mpr hsublist.subperm).trans (arrivals_le d chain.owner chain.balance as)

def sampleChain : Relayer.Chain sampleDeployment.evm where
  endpoint := 9
  owner := 11
  balance := 0
  blocks block :=
    if block = 3 then
      (((machine sampleDeployment).history (start 11 0) sampleGame).filterMap evmMove).map
        (Evm.Mined.mk 30)
    else []

def sampleLogs (block : Nat) : List FoundLog :=
  ((sampleChain.log block).filterMap Evm.Event.received?).map fun m => ⟨some m, block, 0⟩

theorem sampleChain_reported :
    let d := sampleDeployment
    let h := (machine d).history (start sampleChain.owner sampleChain.balance) sampleGame
    let poll : Poll :=
      { contractState := .ok ⟨5, 2, ⟨9, false, true⟩⟩
        blockNumber := .ok 4
        queryFilter := fun first last =>
          .ok ((List.range' first (last + 1 - first)).flatMap sampleLogs) }
    let lines := Machine.emitted (Relayer.machine.history (Relayer.started 0) [poll])
    (lines.filterMap Line.report).map (fun r => (r.1, r.2.1)) = [(6, 2)] ∧
      ((lines.filterMap Line.report).map (fun r => (r.1, r.2.1)) : Multiset (Uint256 × Uint256)) ≤
        (Machine.emitted h).filterMap (Packet.returned d) + h.filterMap foreignEvm := by
  intro d h poll lines
  have mined : (sampleChain.minedBefore 5).map Evm.Mined.tx = h.filterMap evmMove := by
    have hblock : sampleChain.minedBefore 5 = (h.filterMap evmMove).map (Evm.Mined.mk 30) := by
      simp only [Relayer.Chain.minedBefore, List.range_succ, List.range_zero]
      simp [sampleChain]
      rfl
    rw [hblock, List.map_map]
    exact List.map_id _
  have shown : sampleChain.ShownBy sampleLogs := by
    intro block
    rw [sampleLogs, List.map_map]
    rfl
  have answers : ∀ p ∈ [poll], p.AnswersFrom sampleLogs := by
    intro p hp first last logs hquery
    obtain rfl := List.mem_singleton.mp hp
    exact (Except.ok.inj hquery).symm
  have recent : (Relayer.machine.run (Relayer.started 0) [poll]).lastProcessedBlock ≤ 4 := by
    decide +kernel
  exact ⟨by decide +kernel,
    reported_balls_were_sent d sampleChain sampleGame sampleLogs 0 4 [poll] mined shown answers recent⟩

end CrossChainPingPong.World
