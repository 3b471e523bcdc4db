import CrossChainPingPong.Evm.Contract
import CrossChainPingPong.Library.Cursor

namespace CrossChainPingPong.Relayer
open Evm (GameState)

def checkInterval : Nat := 3000
def maxRetries : Nat := 3
def retryDelay : Nat := 5000

structure ContractState where
  ballValue : Uint256
  rallyCount : Uint256
  gameState : GameState
  deriving DecidableEq, Repr

structure FoundLog where
  args : Option (Uint256 × Uint256)
  blockNumber : Nat
  transactionHash : Bytes32
  deriving DecidableEq, Repr

inductive Line where
  | gameState (state : ContractState)
  | foundEvents (count first last : Nat)
  | ballReceived (ballValue rallyCount : Uint256) (blockNumber : Nat) (transactionHash : Bytes32)
  | errorCheckingEvents (message : String)
  | errorInLoop (message : String)
  | maxRetriesReached
  | sleep (ms : Nat)
  deriving DecidableEq, Repr

structure Poll where
  contractState : Except String ContractState
  blockNumber : Except String Nat
  queryFilter : Nat → Nat → Except String (List FoundLog)

structure EVMRelayer where
  retryCount : Nat
  lastProcessedBlock : Nat
  deriving DecidableEq, Repr

def includes (message part : String) : Bool := message.toList.tails.any part.toList.isPrefixOf

-- shouldSendBall answers false for every state, so what sendBall would do is never reached
def checkGameState (p : Poll) : Except String (List Line) :=
  match p.contractState with
  | .ok state => .ok [.gameState state]
  | .error message => if includes message "call revert exception" = true then .ok [] else .error message

def FoundLog.line (log : FoundLog) : Option Line :=
  log.args.map fun args => .ballReceived args.1 args.2 log.blockNumber log.transactionHash

def checkForEvents (p : Poll) (lastProcessedBlock : Nat) : Nat × List Line :=
  match p.blockNumber with
  | .error message => (lastProcessedBlock, [.errorCheckingEvents message])
  | .ok currentBlock =>
    if currentBlock ≤ lastProcessedBlock then (lastProcessedBlock, [])
    else match p.queryFilter (lastProcessedBlock + 1) currentBlock with
      | .error message => (lastProcessedBlock, [.errorCheckingEvents message])
      | .ok events => (currentBlock,
          if 0 < events.length then
            .foundEvents events.length (lastProcessedBlock + 1) currentBlock ::
              events.filterMap FoundLog.line
          else [])

def turn (p : Poll) (r : EVMRelayer) : EVMRelayer × List Line :=
  match checkGameState p with
  | .ok lines =>
    let (lastProcessedBlock, more) := checkForEvents p r.lastProcessedBlock
    ({ retryCount := 0, lastProcessedBlock }, lines ++ more ++ [.sleep checkInterval])
  | .error message =>
    let retryCount := r.retryCount + 1
    if maxRetries ≤ retryCount then
      ({ r with retryCount := 0 },
        [.errorInLoop message, .maxRetriesReached, .sleep retryDelay, .sleep checkInterval])
    else ({ r with retryCount }, [.errorInLoop message, .sleep checkInterval])

def machine : Machine EVMRelayer Poll Empty Line := ⟨fun p r => .ok (turn p r)⟩

def started (block : Nat) : EVMRelayer := ⟨0, block⟩

def Poll.fails (p : Poll) : Bool :=
  match checkGameState p with
  | .ok _ => false
  | .error _ => true

-- the logs of a block do not change, and a query answers with all of the blocks it asks for
def Poll.AnswersFrom (p : Poll) (chain : Nat → List FoundLog) : Prop :=
  ∀ first last logs, p.queryFilter first last = .ok logs →
    logs = (List.range' first (last + 1 - first)).flatMap chain

structure Poll.Succeeds (p : Poll) (block : Nat) : Prop where
  contractState : p.fails = false
  blockNumber : p.blockNumber = .ok block
  queryFilter : ∀ first last, ∃ logs, p.queryFilter first last = .ok logs

def Line.report : Line → Option (Uint256 × Uint256 × Nat × Bytes32)
  | .ballReceived v count block transactionHash => some (v, count, block, transactionHash)
  | _ => none

def FoundLog.report (log : FoundLog) : Option (Uint256 × Uint256 × Nat × Bytes32) :=
  log.args.map fun args => (args.1, args.2, log.blockNumber, log.transactionHash)

variable {p : Poll} {r : EVMRelayer} {chain : Nat → List FoundLog}

theorem report_line (logs : List FoundLog) :
    (logs.filterMap FoundLog.line).filterMap Line.report = logs.filterMap FoundLog.report := by
  rw [List.filterMap_filterMap]
  refine List.filterMap_congr fun log _ => ?_
  cases h : log.args <;> simp [FoundLog.line, FoundLog.report, h, Line.report]

def reports (chain : Nat → List FoundLog) (block : Nat) : List (Uint256 × Uint256 × Nat × Bytes32) :=
  (chain block).filterMap FoundLog.report

theorem reports_between (a b : Nat) :
    ((List.range' (a + 1) (b - a)).flatMap chain).filterMap FoundLog.report =
      Cursor.between (reports chain) a b := by
  rw [Cursor.between, List.filterMap_flatMap]
  rfl

theorem checkForEvents_follows (answers : p.AnswersFrom chain) (last : Nat) :
    let result := checkForEvents p last
    last ≤ result.1 ∧
      result.2.filterMap Line.report = Cursor.between (reports chain) last result.1 := by
  unfold checkForEvents
  cases hblock : p.blockNumber with
  | error message => exact ⟨Nat.le_refl _, (Cursor.between_self _ _).symm⟩
  | ok current =>
    dsimp only
    split
    case isTrue => exact ⟨Nat.le_refl _, (Cursor.between_self _ _).symm⟩
    case isFalse hlt =>
      cases hquery : p.queryFilter (last + 1) current with
      | error message => exact ⟨Nat.le_refl _, (Cursor.between_self _ _).symm⟩
      | ok events =>
        have hevents := answers _ _ _ hquery
        rw [Nat.add_sub_add_right] at hevents
        refine ⟨(Nat.not_le.mp hlt).le, ?_⟩
        dsimp only
        rw [← reports_between, ← hevents]
        split
        case isTrue => exact report_line events
        case isFalse hnone =>
          rw [List.eq_nil_of_length_eq_zero (Nat.eq_zero_of_not_pos hnone)]
          rfl

theorem checkGameState_silent {lines : List Line} (h : checkGameState p = .ok lines) :
    lines.filterMap Line.report = [] := by
  unfold checkGameState at h
  split at h
  · cases h
    rfl
  · split at h
    · cases h
      rfl
    · cases h

theorem turn_follows (answers : p.AnswersFrom chain) (r : EVMRelayer) :
    let result := turn p r
    r.lastProcessedBlock ≤ result.1.lastProcessedBlock ∧
      result.2.filterMap Line.report =
        Cursor.between (reports chain) r.lastProcessedBlock result.1.lastProcessedBlock := by
  unfold turn
  cases hstate : checkGameState p with
  | ok lines =>
    obtain ⟨hle, hreports⟩ := checkForEvents_follows answers r.lastProcessedBlock
    refine ⟨hle, ?_⟩
    dsimp only
    rw [List.filterMap_append, List.filterMap_append, checkGameState_silent hstate, hreports,
      List.nil_append]
    exact List.append_nil _
  | error message =>
    dsimp only
    split <;> exact ⟨Nat.le_refl _, (Cursor.between_self _ _).symm⟩

theorem turn_of_succeeds {block : Nat} (h : p.Succeeds block) (r : EVMRelayer) :
    block ≤ (turn p r).1.lastProcessedBlock := by
  obtain ⟨hstate, hblock, hquery⟩ := h
  have hok : ∃ lines, checkGameState p = .ok lines := by
    unfold Poll.fails at hstate
    split at hstate
    case h_1 lines hlines => exact ⟨lines, hlines⟩
    case h_2 => cases hstate
  obtain ⟨lines, hlines⟩ := hok
  obtain ⟨logs, hlogs⟩ := hquery (r.lastProcessedBlock + 1) block
  simp only [turn, hlines, checkForEvents, hblock, hlogs]
  split
  case isTrue hle => exact hle
  case isFalse => exact Nat.le_refl block

theorem machine_commits {c : Commit EVMRelayer Poll Line} (h : machine.Commits c) :
    turn c.action c.before = (c.after, c.out) := Except.ok.inj h

theorem run_snoc (r : EVMRelayer) (polls : List Poll) (p : Poll) :
    machine.run r (polls ++ [p]) = (turn p (machine.run r polls)).1 :=
  machine.run_snoc_ok (o := (turn p (machine.run r polls)).2) rfl

theorem checkForEvents_mono (p : Poll) (last : Nat) : last ≤ (checkForEvents p last).1 := by
  unfold checkForEvents
  split
  · exact Nat.le_refl last
  · split
    case isTrue => exact Nat.le_refl last
    case isFalse hlt =>
      split
      · exact Nat.le_refl last
      · exact (Nat.not_le.mp hlt).le

theorem turn_mono (p : Poll) (r : EVMRelayer) :
    r.lastProcessedBlock ≤ (turn p r).1.lastProcessedBlock := by
  unfold turn
  split
  · exact checkForEvents_mono p r.lastProcessedBlock
  · dsimp only
    split <;> exact Nat.le_refl _

theorem reaches_success (r : EVMRelayer) (polls : List Poll) :
    ∀ p ∈ polls, ∀ block, p.Succeeds block → block ≤ (machine.run r polls).lastProcessedBlock := by
  induction polls using List.reverseRecOn with
  | nil => nofun
  | append_singleton polls q ih =>
    intro p hp block hsucceeds
    rw [run_snoc]
    rcases List.mem_append.mp hp with hp | hp
    · exact (ih p hp block hsucceeds).trans (turn_mono q _)
    · obtain rfl := List.mem_singleton.mp hp
      exact turn_of_succeeds hsucceeds _

theorem run_follows {polls : List Poll} (answers : ∀ p ∈ polls, p.AnswersFrom chain) (start : Nat) :
    let r := machine.run (started start) polls
    start ≤ r.lastProcessedBlock ∧
      (Machine.emitted (machine.history (started start) polls)).filterMap Line.report =
        Cursor.between (reports chain) start r.lastProcessedBlock := by
  intro r
  refine Cursor.run_between (reports chain) machine EVMRelayer.lastProcessedBlock Line.report
    (started start) ?_
  intro c hc
  have hturn := turn_follows (answers _ (machine.action_of_mem hc)) c.before
  rw [machine_commits (machine.commits_of_mem hc)] at hturn
  exact hturn

theorem reports_each_event_once (chain : Nat → List FoundLog) (start : Nat) (polls : List Poll)
    (answers : ∀ p ∈ polls, p.AnswersFrom chain) :
    let r := machine.run (started start) polls
    let lines := Machine.emitted (machine.history (started start) polls)
    start ≤ r.lastProcessedBlock ∧
      lines.filterMap Line.report = Cursor.between (reports chain) start r.lastProcessedBlock ∧
      ∀ p ∈ polls, ∀ block, p.Succeeds block → block ≤ r.lastProcessedBlock := by
  obtain ⟨hle, hreports⟩ := run_follows answers start
  exact ⟨hle, hreports, reaches_success _ polls⟩

def sampleChain (block : Nat) : List FoundLog :=
  if block = 5 then [⟨some (7, 3), 5, 1⟩, ⟨none, 5, 2⟩] else if block = 8 then [⟨some (5, 5), 8, 3⟩]
  else []

def samplePoll (block : Nat) : Poll where
  contractState := .ok ⟨7, 3, ⟨100, false, true⟩⟩
  blockNumber := .ok block
  queryFilter first last := .ok ((List.range' first (last + 1 - first)).flatMap sampleChain)

def samplePolls : List Poll :=
  [samplePoll 4, { samplePoll 6 with queryFilter := fun _ _ => .error "timeout" },
    { samplePoll 6 with contractState := .error "timeout" }, samplePoll 6, samplePoll 3, samplePoll 9]

theorem samplePolls_reported :
    let lines := Machine.emitted (machine.history (started 2) samplePolls)
    lines.filterMap Line.report = [(7, 3, 5, 1), (5, 5, 8, 3)] := by
  have answers : ∀ p ∈ samplePolls, p.AnswersFrom sampleChain := by
    intro p hp first last logs hquery
    simp only [samplePolls, List.mem_cons, List.not_mem_nil, or_false] at hp
    rcases hp with rfl | rfl | rfl | rfl | rfl | rfl
    all_goals first
      | exact (Except.ok.inj hquery).symm
      | cases hquery
  obtain ⟨-, hreports, -⟩ := reports_each_event_once sampleChain 2 samplePolls answers
  have hlast : (machine.run (started 2) samplePolls).lastProcessedBlock = 9 := by decide +kernel
  rw [hlast] at hreports
  refine hreports.trans ?_
  decide +kernel

theorem turn_retryCount (p : Poll) (r : EVMRelayer) : (turn p r).1.retryCount =
    if p.fails = true then if maxRetries ≤ r.retryCount + 1 then 0 else r.retryCount + 1 else 0 := by
  unfold turn Poll.fails
  cases checkGameState p with
  | ok lines => rfl
  | error message =>
    dsimp only
    rw [if_pos rfl]
    split <;> rfl

theorem retryCount_eq (start : Nat) (polls : List Poll) :
    (machine.run (started start) polls).retryCount = Cursor.streak Poll.fails polls % maxRetries := by
  induction polls using List.reverseRecOn with
  | nil => rfl
  | append_singleton polls p ih =>
    rw [run_snoc, turn_retryCount, ih, Cursor.streak_concat]
    split
    · have hmod : (Cursor.streak Poll.fails polls + 1) % 3 =
          if 3 ≤ Cursor.streak Poll.fails polls % 3 + 1 then 0
          else Cursor.streak Poll.fails polls % 3 + 1 := by
        split <;> omega
      exact hmod.symm
    · rfl

theorem checkForEvents_awake (p : Poll) (last ms : Nat) :
    Line.sleep ms ∉ (checkForEvents p last).2 := by
  unfold checkForEvents
  split
  · simp
  · split
    · simp
    · split
      · simp
      · dsimp only
        split <;> simp [FoundLog.line]

theorem checkGameState_awake {lines : List Line} (h : checkGameState p = .ok lines) (ms : Nat) :
    Line.sleep ms ∉ lines := by
  unfold checkGameState at h
  split at h
  · cases h
    simp
  · split at h
    · cases h
      simp
    · cases h

theorem sleeps_iff (p : Poll) (r : EVMRelayer) : Line.sleep retryDelay ∈ (turn p r).2 ↔
    p.fails = true ∧ maxRetries ≤ r.retryCount + 1 := by
  unfold turn Poll.fails
  cases hstate : checkGameState p with
  | ok lines =>
    have hlines := checkGameState_awake hstate retryDelay
    have hmore := checkForEvents_awake p r.lastProcessedBlock retryDelay
    have hdelays : retryDelay ≠ checkInterval := by decide
    simp [hlines, hmore, hdelays]
  | error message =>
    dsimp only
    split
    case isTrue hmax => simp [hmax]
    case isFalse hmax => simp [hmax, retryDelay, checkInterval]

theorem backs_off_every_third_failure (start : Nat) (polls : List Poll) (p : Poll) :
    let r := machine.run (started start) polls
    r.retryCount = Cursor.streak Poll.fails polls % maxRetries ∧
      (Line.sleep retryDelay ∈ (turn p r).2 ↔
        p.fails = true ∧ maxRetries ∣ Cursor.streak Poll.fails (polls ++ [p])) := by
  intro r
  have hretry := retryCount_eq start polls
  refine ⟨hretry, ?_⟩
  rw [sleeps_iff, hretry, Cursor.streak_concat]
  refine and_congr_right fun hfails => ?_
  rw [if_pos hfails]
  simp only [maxRetries]
  omega

end CrossChainPingPong.Relayer
