import CrossChainPingPong.Library.Failure
import CrossChainPingPong.Svm.Lamports
import CrossChainPingPong.Svm.Pause
import CrossChainPingPong.Svm.Quote
import CrossChainPingPong.Svm.ReceiveTypes

namespace CrossChainPingPong.Svm
open Guard

inductive Instruction where
  | initStore | registerOapp | setPeerConfig | pauseGame | resumeGame | fundContract | quoteSend
  | sendBall | lzReceive | lzReceiveTypes | closeGame
  deriving DecidableEq, Repr

structure RegisterOAppParams where
  delegate : Pubkey

abbrev EndpointRegister := Pubkey → List LzAccount → RegisterOAppParams → Bool

def registerOapp (rt : Runtime) (register : EndpointRegister) (remainingAccounts : List LzAccount)
    (l : Ledger) : Except Error Unit := do
  let game ← okOr l.game .accountNotInitialized
  let params : RegisterOAppParams := { delegate := game.admin }
  require (register rt.gameAddress.1 remainingAccounts params = true) .oapp

def lzReceiveTypes (rt : Runtime) (endpoint : Endpoint) (params : LzReceiveParams) (l : Ledger) :
    Except Error (List LzAccount) := do
  let _ ← okOr l.game .accountNotInitialized
  pure (LzReceiveTypes.apply rt endpoint rt.gameAddress.1 params)

inductive Request where
  | ix (payer : Pubkey) (wallet : Nat) (ix : Ix)
  | registerOapp (register : EndpointRegister) (remainingAccounts : List LzAccount)
  | fundContract (funder : Pubkey) (wallet : Nat) (amount : U64)
  | quoteSend (oapp : Oapp) (quote : EndpointQuote) (endpoint : Pubkey)
      (remainingAccounts : List LzAccount) (params : QuoteSendParams)
  | lzReceiveTypes (endpoint : Endpoint) (params : LzReceiveParams)

def Ix.instruction : Ix → Instruction
  | .initStore _ => .initStore
  | .setPeerConfig .. => .setPeerConfig
  | .pauseGame _ => .pauseGame
  | .resumeGame _ => .resumeGame
  | .sendBall .. => .sendBall
  | .lzReceive .. => .lzReceive
  | .closeGame _ => .closeGame

namespace Request

def instruction : Request → Instruction
  | .ix _ _ i => i.instruction
  | .registerOapp .. => .registerOapp
  | .fundContract .. => .fundContract
  | .quoteSend .. => .quoteSend
  | .lzReceiveTypes .. => .lzReceiveTypes

def run (rt : Runtime) (rent : Rent) : Request → Holdings → Except Lamports.Failure Unit
  | .ix payer wallet i, h => (Lamports.apply rt rent (.ix payer wallet i) h).map fun _ => ()
  | .registerOapp register accounts, h =>
      (Svm.registerOapp rt register accounts h.ledger).mapError .program
  | .fundContract funder wallet amount, h =>
      (Lamports.FundContract.apply funder wallet amount h).map fun _ => ()
  | .quoteSend oapp quote endpoint accounts params, h =>
      ((QuoteSend.apply rt oapp quote endpoint accounts params h.ledger).mapError .program).map
        fun _ => ()
  | .lzReceiveTypes endpoint params, h =>
      ((Svm.lzReceiveTypes rt endpoint params h.ledger).mapError .program).map fun _ => ()

end Request

def Instruction.errors : Instruction → List PingPongError
  | .initStore | .registerOapp | .fundContract | .quoteSend | .lzReceiveTypes => []
  | .setPeerConfig | .closeGame => [.notAuthorised]
  | .pauseGame => [.notAuthorised, .gameNotActive]
  | .resumeGame => [.notAuthorised, .gameNotPaused]
  | .sendBall => [.doesNotHaveBall, .ballValueZero]
  | .lzReceive => [.gameNotActive, .ballValueZero, .ballValueTooHigh, .maxRalliesExceeded]

def undeclared : List Error :=
  [.accountNotInitialized, .accountAlreadyInUse, .notEndpointSettings, .constraintRaw, .oapp, .panic,
    .program (.custom 6000), .program .invalidInstructionData]

def Instruction.failures (i : Instruction) : List Error := i.errors.map .pingPong ++ undeclared

theorem mem_failures {i : Instruction} {e : PingPongError} :
    .pingPong e ∈ i.failures ↔ e ∈ i.errors := by
  simp [Instruction.failures, undeclared]

variable {rt : Runtime} {rent : Rent} {l : Ledger}

def Unpaused (l : Ledger) : Prop := ∀ g, l.game = some g → g.paused = false

theorem decode_failsIn (data : Bytes) :
    FailsIn [.invalidInstructionData] (PingPongMessage.decode data) := by
  refine failsIn_bind (failsIn_revertIf fun _ => by decide) fun _ _ => ?_
  refine failsIn_bind (failsIn_okOr fun _ => by decide) fun _ _ => ?_
  exact failsIn_bind (failsIn_okOr fun _ => by decide) fun _ _ => failsIn_pure _

theorem sendBall_failsIn (unpaused : Unpaused l) (oapp : Oapp) (accounts : List LzAccount)
    (params : SendBallParams) :
    FailsIn Instruction.sendBall.failures (SendBall.apply rt oapp accounts params l) := by
  refine failsIn_bind (failsIn_okOr fun _ => by decide) fun g hgame => ?_
  have hrunning : g.paused = false := unpaused g (okOr_eq_ok.mp hgame)
  refine failsIn_bind (failsIn_okOr fun _ => by decide) fun _ _ => ?_
  refine failsIn_bind (failsIn_require fun hpaused => absurd hrunning hpaused) fun _ _ => ?_
  refine failsIn_bind (failsIn_require fun _ => by decide) fun _ _ => ?_
  refine failsIn_bind (failsIn_require fun _ => by decide) fun _ _ => ?_
  refine failsIn_bind (failsIn_okOr fun _ => by decide) fun _ _ => ?_
  exact failsIn_bind (failsIn_okOr fun _ => by decide) fun _ _ => failsIn_pure _

theorem lzReceive_failsIn (unpaused : Unpaused l) (oapp : Oapp) (accounts : List LzAccount)
    (params : LzReceiveParams) :
    FailsIn Instruction.lzReceive.failures (LzReceive.apply rt oapp accounts params l) := by
  refine failsIn_bind (failsIn_okOr fun _ => by decide) fun g hgame => ?_
  have hrunning : g.paused = false := unpaused g (okOr_eq_ok.mp hgame)
  refine failsIn_bind (failsIn_okOr fun _ => by decide) fun _ _ => ?_
  refine failsIn_bind (failsIn_require fun _ => by decide) fun _ _ => ?_
  refine failsIn_bind (failsIn_require fun hpaused => absurd hrunning hpaused) fun _ _ => ?_
  refine failsIn_bind (failsIn_require fun _ => by decide) fun _ _ => ?_
  refine failsIn_bind (failsIn_require fun _ => by decide) fun _ _ => ?_
  refine failsIn_bind (failsIn_mapError ?_) fun m _ => ?_
  · intro e he
    obtain rfl := List.mem_singleton.mp (decode_failsIn params.message e he)
    decide
  refine failsIn_bind (failsIn_require fun _ => by decide) fun _ hpos => ?_
  refine failsIn_bind (failsIn_require fun _ => by decide) fun _ _ => ?_
  have hsub : checkedSub m.ballValue 1 ≠ none := by
    have hone : (1 : U128).toNat ≤ m.ballValue.toNat := require_eq_ok.mp hpos
    rw [checkedSub, if_pos hone]
    exact Option.some_ne_none _
  refine failsIn_bind (failsIn_okOr fun hnone => absurd hnone hsub) fun _ _ => ?_
  exact failsIn_bind (failsIn_require fun _ => by decide) fun _ _ => failsIn_pure _

theorem setPeerConfig_failsIn (oapp : Oapp) (admin : Pubkey) (params : SetPeerConfigParams) :
    FailsIn Instruction.setPeerConfig.failures (SetPeerConfig.apply rt oapp admin params l) := by
  refine failsIn_bind (failsIn_okOr fun _ => by decide) fun _ _ => ?_
  refine failsIn_bind (failsIn_require fun _ => by decide) fun _ _ => ?_
  obtain ⟨eid, config⟩ := params
  cases config with
  | peerAddress address => exact failsIn_pure _
  | enforcedOptions send =>
    exact failsIn_bind (failsIn_require fun _ => by decide) fun _ _ => failsIn_pure _

theorem apply_failsIn (unpaused : Unpaused l) (ix : Ix) :
    FailsIn ix.instruction.failures (apply rt ix l) := by
  cases ix with
  | initStore params =>
    show FailsIn Instruction.initStore.failures _
    refine failsIn_bind (failsIn_require fun _ => by decide) fun _ _ => ?_
    exact failsIn_bind (failsIn_require fun _ => by decide) fun _ _ => failsIn_pure _
  | setPeerConfig oapp admin params => exact setPeerConfig_failsIn oapp admin params
  | pauseGame admin =>
    show FailsIn Instruction.pauseGame.failures _
    refine failsIn_bind (failsIn_okOr fun _ => by decide) fun _ _ => ?_
    refine failsIn_bind (failsIn_require fun _ => by decide) fun _ _ => ?_
    exact failsIn_bind (failsIn_require fun _ => by decide) fun _ _ => failsIn_pure _
  | resumeGame admin =>
    show FailsIn Instruction.resumeGame.failures _
    refine failsIn_bind (failsIn_okOr fun _ => by decide) fun _ _ => ?_
    refine failsIn_bind (failsIn_require fun _ => by decide) fun _ _ => ?_
    exact failsIn_bind (failsIn_require fun _ => by decide) fun _ _ => failsIn_pure _
  | sendBall oapp accounts params => exact sendBall_failsIn unpaused oapp accounts params
  | lzReceive oapp accounts params => exact lzReceive_failsIn unpaused oapp accounts params
  | closeGame admin =>
    show FailsIn Instruction.closeGame.failures _
    refine failsIn_bind (failsIn_okOr fun _ => by decide) fun _ _ => ?_
    exact failsIn_bind (failsIn_require fun _ => by decide) fun _ _ => failsIn_pure _

def Instruction.outcomes (i : Instruction) : List Lamports.Failure :=
  .insufficientLamports :: i.failures.map .program

theorem failsIn_program {α : Type} {i : Instruction} {x : Except Error α}
    (h : FailsIn i.failures x) : FailsIn i.outcomes (x.mapError Lamports.Failure.program) :=
  failsIn_mapError fun e he => List.mem_cons_of_mem _ (List.mem_map_of_mem (h e he))

theorem failsIn_move {i : Instruction} (ts : List LamportTransfer) (h : Holdings) :
    FailsIn i.outcomes (Lamports.move ts h) :=
  failsIn_bind (failsIn_okOr fun _ => List.mem_cons_self) fun _ _ => failsIn_pure _

theorem request_failsIn {h : Holdings} (unpaused : Unpaused h.ledger) (request : Request) :
    FailsIn request.instruction.outcomes (request.run rt rent h) := by
  cases request with
  | ix payer wallet i =>
    refine failsIn_map (failsIn_bind (failsIn_program (apply_failsIn unpaused i)) fun _ _ => ?_)
    refine failsIn_bind (failsIn_require fun _ => List.mem_cons_self) fun _ _ => ?_
    exact failsIn_bind (failsIn_move _ _) fun _ _ => failsIn_pure _
  | registerOapp register accounts =>
    show FailsIn Instruction.registerOapp.outcomes _
    refine failsIn_program (failsIn_bind (failsIn_okOr fun _ => by decide) fun _ _ => ?_)
    exact failsIn_require fun _ => by decide
  | fundContract funder wallet amount =>
    show FailsIn Instruction.fundContract.outcomes _
    refine failsIn_map (failsIn_bind (failsIn_okOr fun _ => by decide) fun _ _ => ?_)
    refine failsIn_bind (failsIn_require fun _ => List.mem_cons_self) fun _ _ => ?_
    exact failsIn_bind (failsIn_move _ _) fun _ _ => failsIn_pure _
  | quoteSend oapp quote endpoint accounts params =>
    show FailsIn Instruction.quoteSend.outcomes _
    refine failsIn_map (failsIn_program ?_)
    refine failsIn_bind (failsIn_okOr fun _ => by decide) fun _ _ => ?_
    refine failsIn_bind (failsIn_okOr fun _ => by decide) fun _ _ => ?_
    refine failsIn_bind (failsIn_require fun _ => by decide) fun _ _ => ?_
    refine failsIn_bind (failsIn_okOr fun _ => by decide) fun _ _ => ?_
    exact failsIn_okOr fun _ => by decide
  | lzReceiveTypes endpoint params =>
    show FailsIn Instruction.lzReceiveTypes.outcomes _
    refine failsIn_map (failsIn_program ?_)
    exact failsIn_bind (failsIn_okOr fun _ => by decide) fun _ _ => failsIn_pure _

theorem unpaused_run (rt : Runtime) (rent : Rent) (acts : List Lamports.Act) :
    Unpaused ((Lamports.machine rt rent).run Lamports.empty acts).ledger := by
  obtain ⟨hrun, -⟩ := (Lamports.play rt rent).run_eq Lamports.empty acts
  have hledger : ((Lamports.machine rt rent).run Lamports.empty acts).ledger = _ := hrun.symm
  rw [hledger]
  exact paused_never_set _

def fullGame : List Ix :=
  sampleSetup ++ (List.range 100).map fun n => .lzReceive (obligingOapp 0) []
    ⟨40161, 6, BitVec.ofNat 64 (n + 1), BitVec.ofNat 256 (n + 9), PingPongMessage.encode ⟨5, 0⟩, []⟩

def sampleRent : Rent := ⟨fun space => space + 128⟩

def sampleActs (ixs : List Ix) : List Lamports.Act := ixs.map fun ix => .ix 3 2000 ix

def Instruction.refusals : Instruction → List (List Ix × Ix × PingPongError)
  | .initStore | .registerOapp | .fundContract | .quoteSend | .lzReceiveTypes => []
  | .setPeerConfig =>
      [(sampleSetup, .setPeerConfig (obligingOapp 0) 4 ⟨40161, .peerAddress 6⟩, .notAuthorised)]
  | .pauseGame =>
      [(sampleSetup, .pauseGame 4, .notAuthorised), (sampleSetup, .pauseGame 3, .gameNotActive)]
  | .resumeGame =>
      [(sampleSetup, .resumeGame 4, .notAuthorised),
        (sampleSetup ++ [sampleReceive 5 0], .resumeGame 3, .gameNotPaused)]
  | .sendBall =>
      [(sampleSetup, sampleSend 4, .doesNotHaveBall),
        (sampleSetup ++ [sampleReceive 5 0], sampleSend 0, .ballValueZero)]
  | .lzReceive =>
      [(sampleSetup, .lzReceive (obligingOapp 0) [] ⟨40161, 7, 1, 8, [], []⟩, .gameNotActive),
        (sampleSetup, sampleReceive 0 0, .ballValueZero),
        (sampleSetup, sampleReceive (initialBallValue + 1) 0, .ballValueTooHigh),
        (fullGame, sampleReceive 5 0, .maxRalliesExceeded)]
  | .closeGame => [(sampleSetup, .closeGame 4, .notAuthorised)]

theorem refusals_list (i : Instruction) : i.refusals.map (fun x => x.2.2) = i.errors := by
  cases i <;> rfl

theorem refusals_instruction (i : Instruction) : ∀ x ∈ i.refusals, x.2.1.instruction = i := by
  cases i <;> decide

theorem refusals_raised (i : Instruction) : ∀ x ∈ i.refusals,
    raises ((Request.ix 3 2000 x.2.1).run sampleRuntime sampleRent
      ((Lamports.machine sampleRuntime sampleRent).run Lamports.empty (sampleActs x.1)))
      (.program (.pingPong x.2.2)) = true := by
  cases i <;> decide +kernel

theorem errors_are_the_ones_listed (i : Instruction) (e : PingPongError) :
    e ∈ i.errors ↔ ∃ (rt : Runtime) (rent : Rent) (acts : List Lamports.Act) (request : Request),
      request.instruction = i ∧
        request.run rt rent ((Lamports.machine rt rent).run Lamports.empty acts) =
          .error (.program (.pingPong e)) := by
  constructor
  · intro hmem
    rw [← refusals_list i] at hmem
    obtain ⟨⟨ixs, ix, e'⟩, hx, rfl⟩ := List.mem_map.mp hmem
    exact ⟨sampleRuntime, sampleRent, sampleActs ixs, .ix 3 2000 ix, refusals_instruction i _ hx,
      raises_iff.mp (refusals_raised i _ hx)⟩
  · rintro ⟨rt, rent, acts, request, rfl, herror⟩
    have hmem := request_failsIn (unpaused_run rt rent acts) request _ herror
    simpa [Instruction.outcomes, mem_failures] using hmem

end CrossChainPingPong.Svm
