import CrossChainPingPong.Library.Client
import CrossChainPingPong.Library.Failure
import CrossChainPingPong.Svm.Quote

namespace CrossChainPingPong.Svm
open Guard

structure Connection where
  oapp : Oapp
  quote : EndpointQuote
  balance : Nat

inductive SendScript where
  | connected
  | fetched (ballValue : U128)
  | quoted (ballValue : U128)
  | affordable (ballValue : U128)
  | finished
  deriving DecidableEq, Repr

namespace SendScript

def sepoliaEid : U32 := 40161
def estimatedFee : U64 := 1000000

def sendBallParams (ballValue : U128) : SendBallParams := ⟨sepoliaEid, ballValue, [], estimatedFee⟩

-- the account that the script passes as the endpoint
def solanaEndpoint : Pubkey := 0x5aad76da514b6e1dcf11037e904dac3d375f525c9fbafcb19507b78907d8c18b

-- send_ball checks the endpoint account just as quote_send does
def step (rt : Runtime) (endpoint : Pubkey) : Script Ledger Ix Connection SendScript
  | _, l, .connected => match l.game with
      | none => (.finished, none)
      | some g =>
          (if g.gameActive = false then .finished
            else if g.hasBall = false then .finished else .fetched g.ballValue, none)
  | x, l, .fetched v => match QuoteSend.apply rt x.oapp x.quote endpoint [] ⟨sepoliaEid, v, []⟩ l with
      | .ok _ => (.quoted v, none)
      | .error _ => (.finished, none)
  | x, _, .quoted v => (if x.balance < estimatedFee.toNat then .finished else .affordable v, none)
  | x, _, .affordable v =>
      (.finished,
        if endpoint = rt.endpointSettings then some (.sendBall x.oapp [] (sendBallParams v)) else none)
  | _, _, .finished => (.finished, none)

def ball : SendScript → Option U128
  | .fetched v | .quoted v | .affordable v => some v
  | _ => none

def asked : SendScript → Bool
  | .quoted _ | .affordable _ => true
  | _ => false

def Sees (Q : U128 → Ledger → Prop) (p : SendScript) (l : Ledger) : Prop := ∀ v, p.ball = some v → Q v l

end SendScript

def Replaces (c : Commit Ledger Ix Sent) : Prop :=
  c.action.isReceive = true ∨ c.action.isClose = true

def TakesBall (c : Commit Ledger Ix Sent) : Prop :=
  c.before.holdsBall = true ∧ c.after.holdsBall = false

structure Playable (l : Ledger) : Prop where
  running : ∀ g, l.game = some g → g.paused = false
  ball : ∀ g, l.game = some g → g.hasBall = true → 0 < g.ballValue.toNat

variable {rt : Runtime} {endpoint : Pubkey}

theorem playable_commit {c : Commit Ledger Ix Sent} (hc : (machine rt).Commits c)
    (playable : Playable c.before) : Playable c.after := by
  obtain ⟨l, ix, l', out⟩ := c
  have ho : Outcome rt l ix l' out := apply_outcome hc
  obtain ⟨hrunning, hball⟩ := playable
  cases ho with
  | initStore =>
    constructor
    · rintro g ⟨⟩
      rfl
    · rintro g ⟨⟩ hheld
      cases hheld
  | closeGame =>
    constructor
    · rintro g ⟨⟩
    · rintro g ⟨⟩
  | setPeerAddress | setEnforcedOptions | pauseGame | resumeGame => exact ⟨hrunning, hball⟩
  | sendBall game known running =>
    constructor
    · rintro g ⟨⟩
      exact running
    · rintro g ⟨⟩ hheld
      cases hheld
  | @lzReceive _ _ _ g _ m newValue count game known sender running =>
    constructor
    · rintro g' ⟨⟩
      exact running
    · rintro g' ⟨⟩ hheld
      obtain ⟨hv, -⟩ : newValue ≠ 0 ∧ count.toNat < g.maxRallies.toNat := of_decide_eq_true hheld
      exact Nat.pos_of_ne_zero (BitVec.toNat_ne.mp hv)

theorem playable_empty : Playable Ledger.empty := by
  constructor
  · rintro g ⟨⟩
  · rintro g ⟨⟩

section
variable {x : Connection} {l : Ledger} {p : SendScript}

theorem step_ball {v : U128} (h : (SendScript.step rt endpoint x l p).1.ball = some v) :
    p.ball = some v ∨ p = .connected ∧ ∃ g, l.game = some g ∧ g.ballValue = v ∧ g.hasBall = true := by
  cases p with
  | connected =>
    refine .inr ⟨rfl, ?_⟩
    simp only [SendScript.step] at h
    split at h
    · cases h
    · rename_i g hgame
      dsimp only at h
      split at h
      · cases h
      · split at h
        · cases h
        · rename_i hball
          exact ⟨g, hgame, Option.some.inj h, Bool.eq_true_of_not_eq_false hball⟩
  | fetched w =>
    simp only [SendScript.step] at h
    split at h
    · exact .inl h
    · cases h
  | quoted w =>
    simp only [SendScript.step] at h
    split at h
    · cases h
    · exact .inl h
  | affordable w | finished => cases h

theorem step_acts {a : Ix} (h : (SendScript.step rt endpoint x l p).2 = some a) :
    ∃ v, p = .affordable v ∧ a = .sendBall x.oapp [] (SendScript.sendBallParams v) ∧
      (SendScript.step rt endpoint x l p).1 = .finished := by
  cases p with
  | affordable v =>
    simp only [SendScript.step] at h
    split at h
    · exact ⟨v, rfl, (Option.some.inj h).symm, rfl⟩
    · cases h
  | connected | fetched w =>
    simp only [SendScript.step] at h
    split at h <;> cases h
  | quoted | finished => cases h

theorem connected_not_asked : (SendScript.step rt endpoint x l .connected).1.asked = false := by
  simp only [SendScript.step]
  split
  · rfl
  · dsimp only
    split
    · rfl
    · split <;> rfl

theorem sees_remembers {Q : U128 → Ledger → Prop} {Rival : Commit Ledger Ix Sent → Prop}
    (look : ∀ l g, Playable l → l.game = some g → g.hasBall = true → Q g.ballValue l)
    (keep : ∀ v c, (machine rt).Commits c → ¬ Rival c → Q v c.before → Q v c.after) :
    Script.Remembers (machine rt) (SendScript.step rt endpoint) (fun p => p = .connected) Playable
      (SendScript.Sees Q) Rival where
  inv _ := playable_commit
  look := by
    rintro x l p playable rfl v hv
    rcases step_ball hv with hold | ⟨-, g, hgame, rfl, hball⟩
    · cases hold
    · exact look l g playable hgame hball
  turn := by
    intro x l p playable hsees v hv
    rcases step_ball hv with hold | ⟨-, g, hgame, rfl, hball⟩
    · exact hsees v hold
    · exact look l g playable hgame hball
  act := by
    intro x l p a t _ hact v hv
    obtain ⟨w, -, -, hfinished⟩ := step_acts hact
    rw [hfinished] at hv
    cases hv
  keep p c hc hrival hsees v hv := keep v c hc hrival (hsees v hv)

end

section
variable {c : Commit Ledger Ix Sent}

theorem ballValue_kept {v : U128} (hc : (machine rt).Commits c) (kept : ¬ Replaces c)
    (before : ∃ g, c.before.game = some g ∧ g.ballValue = v) :
    ∃ g, c.after.game = some g ∧ g.ballValue = v := by
  obtain ⟨l, ix, l', out⟩ := c
  have ho : Outcome rt l ix l' out := apply_outcome hc
  obtain ⟨g, hgame, hvalue⟩ := before
  cases ho with
  | initStore absent => cases hgame.symm.trans absent
  | setPeerAddress | setEnforcedOptions | pauseGame | resumeGame => exact ⟨g, hgame, hvalue⟩
  | sendBall game =>
    obtain rfl := Option.some.inj (hgame.symm.trans game)
    exact ⟨_, rfl, hvalue⟩
  | closeGame => exact absurd (.inr rfl) kept
  | lzReceive => exact absurd (.inl rfl) kept

theorem peer_kept {eid : U32} (hc : (machine rt).Commits c) (before : (c.before.peer eid).isSome) :
    (c.after.peer eid).isSome := by
  obtain ⟨l, ix, l', out⟩ := c
  have ho : Outcome rt l ix l' out := apply_outcome hc
  cases ho with
  | @setPeerAddress oapp g other | @setEnforcedOptions oapp g other =>
    by_cases heid : eid = other
    · subst heid
      simp
    · simpa [Function.update_of_ne heid] using before
  | initStore | pauseGame | resumeGame | closeGame | sendBall | lzReceive => exact before

theorem value_remembers : Script.Remembers (machine rt) (SendScript.step rt endpoint)
    (fun p => p = .connected) Playable
    (SendScript.Sees fun v l => ∃ g, l.game = some g ∧ g.ballValue = v) Replaces :=
  sees_remembers (fun _ g _ hgame _ => ⟨g, hgame, rfl⟩) fun _ _ hc hkept => ballValue_kept hc hkept

theorem ball_remembers : Script.Remembers (machine rt) (SendScript.step rt endpoint)
    (fun p => p = .connected) Playable (SendScript.Sees fun _ l => l.holdsBall = true) TakesBall := by
  refine sees_remembers ?_ ?_
  · intro l g _ hgame hball
    rwa [Ledger.holdsBall, hgame]
  · intro v c _ htakes hbefore
    exact Bool.eq_true_of_not_eq_false fun hafter => htakes ⟨hbefore, hafter⟩

theorem positive_remembers : Script.Remembers (machine rt) (SendScript.step rt endpoint)
    (fun p => p = .connected) Playable (SendScript.Sees fun v _ => 0 < v.toNat) fun _ => False :=
  sees_remembers (fun _ g playable hgame hball => playable.ball g hgame hball) fun _ _ _ _ hpos => hpos

theorem quoteSend_accepted {oapp : Oapp} {quote : EndpointQuote} {accounts : List LzAccount}
    {params : QuoteSendParams} {l : Ledger} {fee : MessagingFee}
    (h : QuoteSend.apply rt oapp quote endpoint accounts params l = .ok fee) :
    (l.peer params.dstEid).isSome ∧ endpoint = rt.endpointSettings := by
  simp only [QuoteSend.apply, bind_eq_ok, okOr_eq_ok, require_eq_ok, exists_const] at h
  obtain ⟨g, -, peer, hpeer, hsettings, -⟩ := h
  exact ⟨hpeer ▸ rfl, hsettings⟩

theorem asked_remembers : Script.Remembers (machine rt) (SendScript.step rt endpoint)
    (fun p => p = .connected) Playable
    (fun p l => p.asked = true →
      (l.peer SendScript.sepoliaEid).isSome ∧ endpoint = rt.endpointSettings) fun _ => False where
  inv _ := playable_commit
  look := by
    rintro x l p - rfl hasked
    cases connected_not_asked.symm.trans hasked
  turn := by
    intro x l p _ hknown hasked
    cases p with
    | connected => cases connected_not_asked.symm.trans hasked
    | fetched v =>
      cases hquote : QuoteSend.apply rt x.oapp x.quote endpoint [] ⟨SendScript.sepoliaEid, v, []⟩ l with
      | error e =>
        simp only [SendScript.step, hquote] at hasked
        cases hasked
      | ok fee => exact quoteSend_accepted hquote
    | quoted v => exact hknown rfl
    | affordable | finished => cases hasked
  act := by
    intro x l p a t _ hact hasked
    obtain ⟨w, -, -, hfinished⟩ := step_acts hact
    rw [hfinished] at hasked
    cases hasked
  keep _ _ hc _ hknown hasked := ⟨peer_kept hc (hknown hasked).1, (hknown hasked).2⟩

end

variable {K : Type} [DecidableEq K]

def scripted (rt : Runtime) (endpoint : Pubkey) (K : Type) [DecidableEq K] :
    Machine (Script.Shared Ledger SendScript K) (Script.Move Ix Connection K) Error Sent :=
  Script.machine (machine rt) fun _ => SendScript.step rt endpoint

def connected (K : Type) : Script.Shared Ledger SendScript K := ⟨Ledger.empty, fun _ => .connected⟩

abbrev ScriptedCommit (K : Type) := Script.SharedCommit Ledger Ix Sent Connection SendScript K

def Since (rt : Runtime) (endpoint : Pubkey) (Rival : Commit Ledger Ix Sent → Prop) (k : K)
    (past : List (ScriptedCommit K)) : Prop :=
  Past.Pending (Script.Overtaken (machine rt) (fun _ => SendScript.step rt endpoint) Rival)
    (Script.Looks (fun p => p = SendScript.connected) k) past

structure SendsFairly (rt : Runtime) (endpoint : Pubkey) (k : K) (x : Connection) (v : U128)
    (past : List (ScriptedCommit K)) (c : ScriptedCommit K) : Prop where
  returns : ∀ p ∈ c.out, ∃ g, c.before.state.game = some g ∧ g.hasBall = true ∧
    p.params.message = PingPongMessage.encode ⟨v, g.rallyCount⟩ ∧
      (v = g.ballValue ∨ Since rt endpoint Replaces k past)
  refused : ∀ e, apply rt (.sendBall x.oapp [] (SendScript.sendBallParams v)) c.before.state = .error e →
    e = .pingPong .doesNotHaveBall ∧ Since rt endpoint TakesBall k past ∨
      e = .accountNotInitialized ∧ Since rt endpoint Replaces k past ∨ e = .constraintRaw ∨ e = .oapp

structure Informed (rt : Runtime) (endpoint : Pubkey) (k : K) (past : List (ScriptedCommit K))
    (s : Script.Shared Ledger SendScript K) : Prop where
  playable : Playable s.state
  value : SendScript.Sees (fun v l => ∃ g, l.game = some g ∧ g.ballValue = v) (s.memory k) s.state ∨
    Since rt endpoint Replaces k past
  ball : SendScript.Sees (fun _ l => l.holdsBall = true) (s.memory k) s.state ∨
    Since rt endpoint TakesBall k past
  positive : SendScript.Sees (fun v _ => 0 < v.toNat) (s.memory k) s.state
  asked : (s.memory k).asked = true →
    (s.state.peer SendScript.sepoliaEid).isSome ∧ endpoint = rt.endpointSettings

section
variable {k : K} {x : Connection} {v : U128} {past : List (ScriptedCommit K)} {c : ScriptedCommit K}

omit [DecidableEq K] in
theorem not_since_never : ¬ Since rt endpoint (fun _ => False) k past := by
  rintro ⟨_, _, _, -, ⟨_, -, hfalse⟩, -⟩
  exact hfalse

theorem informed_run (moves : List (Script.Move Ix Connection K)) :
    Informed rt endpoint k ((scripted rt endpoint K).history (connected K) moves)
      ((scripted rt endpoint K).run (connected K) moves) := by
  have hstart (Q : U128 → Ledger → Prop) : SendScript.Sees Q .connected Ledger.empty := by
    rintro v ⟨⟩
  have hplayable := (machine rt).invariant_run playable_empty
    (fun c hp hc => playable_commit hc hp)
    (((scripted rt endpoint K).history (connected K) moves).filterMap
      (Script.landed (machine rt) fun _ => SendScript.step rt endpoint))
  obtain ⟨hstate, -⟩ :=
    Script.shared_run (machine rt) (fun _ => SendScript.step rt endpoint) (connected K) moves
  have hasked : SendScript.connected.asked = true →
      (Ledger.empty.peer SendScript.sepoliaEid).isSome ∧ endpoint = rt.endpointSettings := by
    rintro ⟨⟩
  refine ⟨hstate ▸ hplayable, ?_, ?_, ?_, ?_⟩
  · exact Script.seen_unless_overtaken _ k value_remembers playable_empty (hstart _) moves
  · exact Script.seen_unless_overtaken _ k ball_remembers playable_empty (hstart _) moves
  · exact (Script.seen_unless_overtaken _ k positive_remembers playable_empty (hstart _)
      moves).resolve_right not_since_never
  · exact (Script.seen_unless_overtaken _ k asked_remembers (s := connected K) playable_empty hasked
      moves).resolve_right not_since_never

theorem sendBall_error {oapp : Oapp} {accounts : List LzAccount} {params : SendBallParams} {l : Ledger}
    {e : Error} (h : apply rt (.sendBall oapp accounts params) l = .error e) :
    e = .accountNotInitialized ∧ (l.game = none ∨ l.peer params.dstEid = none) ∨
      (∃ g, l.game = some g ∧ (g.paused = true ∧ e = .pingPong .gamePaused ∨
        g.hasBall = false ∧ e = .pingPong .doesNotHaveBall)) ∨
      params.ballValue.toNat = 0 ∧ e = .pingPong .ballValueZero ∨ e = .constraintRaw ∨ e = .oapp := by
  simp only [apply, SendBall.apply] at h
  rcases bind_eq_error.mp h with hgame | ⟨g, hgame, h⟩
  · obtain ⟨habsent, rfl⟩ := okOr_eq_error.mp hgame
    exact .inl ⟨rfl, .inl habsent⟩
  have hgame : l.game = some g := okOr_eq_ok.mp hgame
  rcases bind_eq_error.mp h with hpeer | ⟨peer, -, h⟩
  · obtain ⟨habsent, rfl⟩ := okOr_eq_error.mp hpeer
    exact .inl ⟨rfl, .inr habsent⟩
  rcases bind_eq_error.mp h with hpaused | ⟨_, -, h⟩
  · obtain ⟨hnot, rfl⟩ := require_eq_error.mp hpaused
    exact .inr (.inl ⟨g, hgame, .inl ⟨Bool.eq_true_of_not_eq_false hnot, rfl⟩⟩)
  rcases bind_eq_error.mp h with hball | ⟨_, -, h⟩
  · obtain ⟨hnot, rfl⟩ := require_eq_error.mp hball
    exact .inr (.inl ⟨g, hgame, .inr ⟨Bool.eq_false_of_not_eq_true hnot, rfl⟩⟩)
  rcases bind_eq_error.mp h with hzero | ⟨_, -, h⟩
  · obtain ⟨hnot, rfl⟩ := require_eq_error.mp hzero
    exact .inr (.inr (.inl ⟨Nat.eq_zero_of_not_pos hnot, rfl⟩))
  rcases bind_eq_error.mp h with hoptions | ⟨_, -, h⟩
  · obtain ⟨-, rfl⟩ := okOr_eq_error.mp hoptions
    exact .inr (.inr (.inr (.inl rfl)))
  rcases bind_eq_error.mp h with hsend | ⟨_, -, h⟩
  · obtain ⟨-, rfl⟩ := okOr_eq_error.mp hsend
    exact .inr (.inr (.inr (.inr rfl)))
  · exact absurd h pure_ne_error

theorem sendsFairly_commit (hc : (scripted rt endpoint K).Commits c) (turn : c.action = .turn k x)
    (known : c.before.memory k = .affordable v) (informed : Informed rt endpoint k past c.before) :
    SendsFairly rt endpoint k x v past c := by
  have effect := Script.commits_effect hc
  obtain ⟨s, move, s', out⟩ := c
  dsimp only at turn known informed effect
  subst turn
  obtain ⟨hplayable, hvalue, hball, hpositive, hasked⟩ := informed
  rw [known] at hvalue hball hpositive hasked
  obtain ⟨hpeer, hsettings⟩ := hasked rfl
  have hstep : SendScript.step rt endpoint x s.state (s.memory k) =
      (.finished, some (.sendBall x.oapp [] (SendScript.sendBallParams v))) := by
    rw [known, SendScript.step, if_pos hsettings]
  constructor
  · intro p hp
    cases effect with
    | thinks | refused => cases hp
    | @lands _ _ _ a t out hscript ok =>
      obtain rfl := Option.some.inj ((congrArg Prod.snd hscript).symm.trans (congrArg Prod.snd hstep))
      have ho : Outcome rt s.state (.sendBall x.oapp [] (SendScript.sendBallParams v)) t out :=
        apply_outcome ok
      cases ho with
      | @sendBall _ _ _ g _ sent game _ _ held _ _ _ payload =>
        obtain rfl := List.mem_singleton.mp hp
        refine ⟨g, game, held, payload, hvalue.imp_left fun hsees => ?_⟩
        obtain ⟨g', hgame', hvalue'⟩ := hsees v rfl
        obtain rfl := Option.some.inj (game.symm.trans hgame')
        exact hvalue'.symm
  · intro e he
    rcases sendBall_error he with ⟨rfl, hgone | hunknown⟩ | ⟨g, hgame, ⟨hpaused, rfl⟩ | ⟨hnone, rfl⟩⟩ |
      ⟨hzero, rfl⟩ | hendpoint
    · refine .inr (.inl ⟨rfl, hvalue.resolve_left fun hsees => ?_⟩)
      obtain ⟨g, hgame, -⟩ := hsees v rfl
      cases hgame.symm.trans hgone
    · rw [show s.state.peer SendScript.sepoliaEid = none from hunknown] at hpeer
      cases hpeer
    · cases hpaused.symm.trans (hplayable.running g hgame)
    · refine .inl ⟨rfl, hball.resolve_left fun hsees => ?_⟩
      have hheld : s.state.holdsBall = true := hsees v rfl
      rw [Ledger.holdsBall, hgame] at hheld
      cases hnone.symm.trans hheld
    · exact absurd hzero (Nat.ne_of_gt (hpositive v rfl))
    · exact .inr (.inr hendpoint)

theorem turn_without_settings (hc : (scripted rt endpoint K).Commits c) (turn : c.action = .turn k x)
    (informed : Informed rt endpoint k past c.before) (wrong : endpoint ≠ rt.endpointSettings) :
    c.out = [] ∧ c.after.state = c.before.state := by
  have effect := Script.commits_effect hc
  obtain ⟨s, move, s', out⟩ := c
  dsimp only at turn informed effect ⊢
  subst turn
  cases effect with
  | thinks | refused => exact ⟨rfl, rfl⟩
  | lands hscript =>
    obtain ⟨v, hknown, -, -⟩ := step_acts (congrArg Prod.snd hscript)
    have hasked : (s.memory k).asked = true := by
      rw [hknown]
      rfl
    exact absurd (informed.asked hasked).2 wrong

end

def sampleConnection : Connection := ⟨obligingOapp 5, fun _ _ => some ⟨5000, 0⟩, 2000000⟩

def staleRun : List (Script.Move Ix Connection Bool) :=
  sampleSetup.map .other ++ [.other (sampleReceive 5 0)] ++
    List.replicate 3 (.turn false sampleConnection) ++ List.replicate 4 (.turn true sampleConnection) ++
    [.other (sampleReceive 3 2), .turn false sampleConnection]

def staleSends (endpoint : Pubkey) : List Sent :=
  Machine.emitted ((scripted sampleRuntime endpoint Bool).history (connected Bool) staleRun)

example : (staleSends sampleRuntime.endpointSettings).map
      (fun p => PingPongMessage.decode p.params.message) = [.ok ⟨4, 1⟩, .ok ⟨4, 2⟩] ∧
    (staleSends SendScript.solanaEndpoint).map Sent.guid = [] := by
  decide +kernel

end CrossChainPingPong.Svm
