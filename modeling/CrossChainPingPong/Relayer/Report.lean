import CrossChainPingPong.Evm.Announced
import CrossChainPingPong.Relayer.Poll

namespace CrossChainPingPong.Relayer
open Evm

variable {I : Immutables}

structure Chain (I : Immutables) where
  endpoint : Address
  owner : Address
  balance : Wei
  blocks : Nat → List (Mined I)

namespace Chain
variable (chain : Chain I)

def start : Storage := deployed chain.owner chain.balance

def minedBefore (block : Nat) : List (Mined I) := (List.range block).flatMap chain.blocks

def stateBefore (block : Nat) : Storage :=
  (emitting I chain.endpoint).run chain.start (chain.minedBefore block)

def log (block : Nat) : List Event :=
  events (Machine.emitted ((emitting I chain.endpoint).history (chain.stateBefore block)
    (chain.blocks block)))

def historyBefore (block : Nat) : History I :=
  (Evm.machine I).history chain.start ((chain.minedBefore block).map Mined.tx)

def ShownBy (logs : Nat → List FoundLog) : Prop :=
  ∀ block, (logs block).map FoundLog.args = ((chain.log block).filterMap Event.received?).map some

def arrivalsBefore (block : Nat) : List (Uint256 × Uint256) :=
  Past.tally arrival (chain.historyBefore block)

theorem minedBefore_succ (block : Nat) :
    chain.minedBefore (block + 1) = chain.minedBefore block ++ chain.blocks block := by
  simp [minedBefore, List.range_succ]

theorem arrivalsBefore_succ (block : Nat) : chain.arrivalsBefore (block + 1) =
    chain.arrivalsBefore block ++ (chain.log block).filterMap Event.received? := by
  have hreceived (n : Nat) : chain.arrivalsBefore n = (events (Machine.emitted
      ((emitting I chain.endpoint).history chain.start (chain.minedBefore n)))).filterMap
        Event.received? :=
    (received_run I chain.endpoint chain.owner chain.balance (chain.minedBefore n)).2.symm
  rw [hreceived, hreceived, minedBefore_succ, Machine.history_append, Machine.emitted_append,
    events_append, List.filterMap_append]
  rfl

theorem arrivalsBefore_mono {first last : Nat} (le : first ≤ last) :
    (chain.arrivalsBefore first).Sublist (chain.arrivalsBefore last) := by
  induction last, le using Nat.le_induction with
  | base => exact List.Sublist.refl _
  | succ last le ih =>
    rw [arrivalsBefore_succ]
    exact ih.trans (List.sublist_append_left _ _)

variable {chain} {logs : Nat → List FoundLog}

theorem shown_report (shown : chain.ShownBy logs) (block : Nat) :
    (reports logs block).map (fun r => (r.1, r.2.1)) =
      (chain.log block).filterMap Event.received? := by
  have hargs : (logs block).filterMap FoundLog.args =
      ((logs block).map FoundLog.args).filterMap id := by
    rw [List.filterMap_map]
    rfl
  rw [shown block] at hargs
  rw [List.filterMap_map, Function.id_comp, List.filterMap_some] at hargs
  rw [← hargs, reports, List.map_filterMap]
  refine List.filterMap_congr fun log _ => ?_
  cases h : log.args <;> simp [FoundLog.report, h]

end Chain

theorem reported_run {chain : Chain I} {logs : Nat → List FoundLog} {polls : List Poll}
    (shown : chain.ShownBy logs) (answers : ∀ p ∈ polls, p.AnswersFrom logs) (start : Nat) :
    chain.arrivalsBefore (start + 1) ++
        ((Machine.emitted (Relayer.machine.history (started start) polls)).filterMap
          Line.report).map (fun r => (r.1, r.2.1)) =
      chain.arrivalsBefore
        ((Relayer.machine.run (started start) polls).lastProcessedBlock + 1) := by
  obtain ⟨hle, hreports⟩ := run_follows answers start
  have hmap : ((Machine.emitted (Relayer.machine.history (started start) polls)).filterMap
      Line.report).map (fun r => (r.1, r.2.1)) =
      Cursor.between (fun block => (chain.log block).filterMap Event.received?) start
        (Relayer.machine.run (started start) polls).lastProcessedBlock := by
    rw [hreports, Cursor.between, Cursor.between, List.map_flatMap]
    exact congrArg (fun f => List.flatMap f _) (funext (Chain.shown_report shown))
  rw [hmap]
  have hstep (n : Nat) : chain.arrivalsBefore (n + 1 + 1) =
      chain.arrivalsBefore (n + 1) ++ (chain.log (n + 1)).filterMap Event.received? :=
    chain.arrivalsBefore_succ (n + 1)
  exact Cursor.append_between (f := fun block => chain.arrivalsBefore (block + 1)) _ hstep hle

theorem reports_are_first_deliveries (chain : Chain I) (logs : Nat → List FoundLog) (start : Nat)
    (polls : List Poll) (shown : chain.ShownBy logs) (answers : ∀ p ∈ polls, p.AnswersFrom logs) :
    let r := Relayer.machine.run (started start) polls
    let lines := Machine.emitted (Relayer.machine.history (started start) polls)
    chain.arrivalsBefore (start + 1) ++
        (lines.filterMap Line.report).map (fun r => (r.1, r.2.1)) =
      chain.arrivalsBefore (r.lastProcessedBlock + 1) := reported_run shown answers start

def sampleGame : Chain sampleImmutables where
  endpoint := 9
  owner := 3
  balance := 0
  blocks block :=
    if block = 1 then [⟨10, sampleServe 9⟩]
    else if block = 3 then [⟨30, sampleDelivery 1 7 3⟩, ⟨30, sampleDelivery 1 7 3⟩]
    else if block = 4 then [⟨40, sampleDelivery 2 5 5⟩]
    else []

def sampleLogs (block : Nat) : List FoundLog :=
  ((sampleGame.log block).filterMap Event.received?).map fun m => ⟨some m, block, 0⟩

def nodePoll (block : Nat) : Poll where
  contractState := .ok ⟨7, 3, ⟨9, false, true⟩⟩
  blockNumber := .ok block
  queryFilter first last := .ok ((List.range' first (last + 1 - first)).flatMap sampleLogs)

theorem sampleGame_reported :
    let polls := [nodePoll 2, { nodePoll 3 with blockNumber := .error "timeout" }, nodePoll 4]
    let lines := Machine.emitted (Relayer.machine.history (started 1) polls)
    (lines.filterMap Line.report).map (fun r => (r.1, r.2.1)) = [(7, 4), (5, 6)] := by
  intro polls lines
  have shown : sampleGame.ShownBy sampleLogs := by
    intro block
    rw [sampleLogs, List.map_map]
    rfl
  have answers : ∀ p ∈ polls, p.AnswersFrom sampleLogs := by
    intro p hp first last logs hquery
    simp only [polls, List.mem_cons, List.not_mem_nil, or_false] at hp
    rcases hp with rfl | rfl | rfl <;> exact (Except.ok.inj hquery).symm
  have hreports := reports_are_first_deliveries sampleGame sampleLogs 1 polls shown answers
  have hlast : (Relayer.machine.run (started 1) polls).lastProcessedBlock = 4 := by decide +kernel
  have hbefore : sampleGame.arrivalsBefore 2 = [] := by decide +kernel
  have hafter : sampleGame.arrivalsBefore 5 = [(7, 4), (5, 6)] := by decide +kernel
  dsimp only at hreports
  rwa [hlast, hbefore, hafter] at hreports

end CrossChainPingPong.Relayer
