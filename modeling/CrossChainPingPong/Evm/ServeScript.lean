import CrossChainPingPong.Evm.Quote
import CrossChainPingPong.Library.Client

namespace CrossChainPingPong.Evm
open Guard

variable {I : Immutables}

structure Signer (I : Immutables) where
  address : Address
  external : address ≠ I.self

structure Provider where
  lz : OApp
  balance : Wei

inductive ServeScript where
  | connected
  | checked
  | quoted (nativeFee : Wei)
  | affordable (nativeFee : Wei)
  | finished
  deriving DecidableEq, Repr

namespace ServeScript

def maxRallies : Uint256 := 100

def msg (signer : Signer I) (nativeFee : Wei) : Msg I := ⟨signer.address, nativeFee, signer.external⟩

-- a node takes no transaction whose value the signer cannot pay
def step (signer : Signer I) : Script Storage (Tx I) Provider ServeScript
  | _, s, .connected => (if s.gameState.gameActive = true then .finished else .checked, none)
  | x, _, .checked => match quote I x.lz initialBallValue 0 [] false with
      | .ok fee => (.quoted fee.nativeFee, none)
      | .error _ => (.finished, none)
  | x, _, .quoted nativeFee =>
      (if x.balance < nativeFee then .finished else .affordable nativeFee, none)
  | x, _, .affordable nativeFee =>
      (.finished, if x.balance < nativeFee then none
        else some (.serve x.lz (msg signer nativeFee) maxRallies []))
  | _, _, .finished => (.finished, none)

def found : ServeScript → Bool
  | .connected | .finished => false
  | _ => true

def Seen (p : ServeScript) (s : Storage) : Prop := p.found = true → s.gameState.gameActive = false

end ServeScript

def Opens (c : Commit Storage (Tx I) Sent) : Prop :=
  c.before.gameState.gameActive = false ∧ c.after.gameState.gameActive = true

section
variable {K : Type} [DecidableEq K]

def scripted (signer : K → Signer I) :
    Machine (Script.Shared Storage ServeScript K) (Script.Move (Tx I) Provider K) Revert Sent :=
  Script.machine (machine I) fun k => ServeScript.step (signer k)

def connected (K : Type) (owner : Address) (balance : Wei) : Script.Shared Storage ServeScript K :=
  ⟨deployed owner balance, fun _ => .connected⟩

abbrev ScriptedCommit (I : Immutables) (K : Type) :=
  Script.SharedCommit Storage (Tx I) Sent Provider ServeScript K

def OutrunSince (signer : K → Signer I) (k : K) (past : List (ScriptedCommit I K)) : Prop :=
  Past.Pending (Script.Overtaken (machine I) (fun k => ServeScript.step (signer k)) Opens)
    (Script.Looks (fun p => p = ServeScript.connected) k) past

structure ServesFairly (signer : K → Signer I) (k : K) (x : Provider) (nativeFee : Wei)
    (past : List (ScriptedCommit I K)) (c : ScriptedCommit I K) : Prop where
  outrun : c.before.state.gameState.gameActive = true → OutrunSince signer k past
  lands : c.before.state.gameState.gameActive = false →
    (∃ fee, quote I x.lz initialBallValue 0 [] false = .ok fee ∧ fee.nativeFee ≤ nativeFee) →
      x.lz.takesServe I (ServeScript.msg (signer k) nativeFee) [] →
        c.after.state = { c.before.state with
          ballValue := initialBallValue
          rallyCount := 0
          gameState := ⟨ServeScript.maxRallies.setWidth 128, false, true⟩ } ∧
        ∃ p, c.out = [p] ∧ p.message = encodeMessage initialBallValue 0 ∧ p.nativeFee = nativeFee
  refused : c.before.state.gameState.gameActive = true → c.after.state = c.before.state ∧ c.out = []

end

theorem serveScript_remembers (signer : Signer I) :
    Script.Remembers (machine I) (ServeScript.step signer) (fun p => p = .connected)
      (fun _ => True) ServeScript.Seen Opens where
  inv _ _ _ := trivial
  look := by
    rintro x s p - rfl hfound
    by_cases hactive : s.gameState.gameActive = true
    · simp [ServeScript.step, hactive, ServeScript.found] at hfound
    · exact Bool.eq_false_of_not_eq_true hactive
  turn := by
    intro x s p _ hseen hfound
    cases p with
    | connected =>
      by_cases hactive : s.gameState.gameActive = true
      · simp [ServeScript.step, hactive, ServeScript.found] at hfound
      · exact Bool.eq_false_of_not_eq_true hactive
    | checked | quoted => exact hseen rfl
    | affordable | finished => cases hfound
  act := by
    intro x s p a t _ hact hfound
    cases p with
    | affordable => cases hfound
    | checked =>
      simp only [ServeScript.step] at hact
      split at hact <;> cases hact
    | connected | quoted | finished => cases hact
  keep := by
    intro p c _ hrival hseen hfound
    exact Bool.eq_false_of_not_eq_true fun hactive => hrival ⟨hseen hfound, hactive⟩

theorem serve_lands {s s' : Storage} {out : List Sent} {lz : OApp} {msg : Msg I}
    {maxRallies : Uint256} {options : Bytes}
    (h : apply (.serve lz msg maxRallies options) s = .ok (s', out)) :
    s' = { s with
        ballValue := initialBallValue
        rallyCount := 0
        gameState := ⟨maxRallies.setWidth 128, false, true⟩ } ∧
      ∃ p, out = [p] ∧ p.message = encodeMessage initialBallValue 0 ∧ p.nativeFee = msg.value := by
  have hpriced : Priced ⟨s, .serve lz msg maxRallies options, s', out⟩ := priced_commit h
  obtain ⟨fee, p, -, hout, hmessage, hvalue, -⟩ := hpriced.serve _ _ _ _ rfl
  refine ⟨?_, p, hout, hmessage, hvalue⟩
  cases apply_outcome h with
  | serve => rfl
  | aside aside => cases aside

section
variable {K : Type} [DecidableEq K] {signer : K → Signer I} {k : K} {x : Provider} {nativeFee : Wei}
  {past : List (ScriptedCommit I K)} {c : ScriptedCommit I K}

theorem servesFairly_commit (hc : (scripted signer).Commits c) (turn : c.action = .turn k x)
    (known : c.before.memory k = .affordable nativeFee) (afford : nativeFee ≤ x.balance)
    (seen : ServeScript.Seen (c.before.memory k) c.before.state ∨ OutrunSince signer k past) :
    ServesFairly signer k x nativeFee past c := by
  have effect := Script.commits_effect hc
  obtain ⟨s, move, s', out⟩ := c
  dsimp only at turn known seen effect
  subst turn
  have hstep : ServeScript.step (signer k) x s.state (s.memory k) = (.finished,
      some (.serve x.lz (ServeScript.msg (signer k) nativeFee) ServeScript.maxRallies [])) := by
    rw [known, ServeScript.step, if_neg (Nat.not_lt.mpr afford)]
  have hresult : (∃ t, s'.state = t ∧ apply (.serve x.lz (ServeScript.msg (signer k) nativeFee)
        ServeScript.maxRallies []) s.state = .ok (t, out)) ∨
      (¬ Succeeds (apply (.serve x.lz (ServeScript.msg (signer k) nativeFee)
        ServeScript.maxRallies []) s.state) ∧ s'.state = s.state ∧ out = []) := by
    cases effect with
    | thinks hscript => cases (congrArg Prod.snd hscript).symm.trans (congrArg Prod.snd hstep)
    | lands hscript ok =>
      obtain rfl := Option.some.inj ((congrArg Prod.snd hscript).symm.trans (congrArg Prod.snd hstep))
      exact .inl ⟨_, rfl, ok⟩
    | refused hscript error =>
      obtain rfl := Option.some.inj ((congrArg Prod.snd hscript).symm.trans (congrArg Prod.snd hstep))
      refine .inr ⟨?_, rfl, rfl⟩
      rintro ⟨r, hok⟩
      cases hok.symm.trans error
  constructor
  · intro hactive
    rcases seen with hseen | houtrun
    · rw [known] at hseen
      cases hactive.symm.trans (hseen rfl)
    · exact houtrun
  · intro hidle hprice htakes
    have hsucceeds : Succeeds (apply (.serve x.lz (ServeScript.msg (signer k) nativeFee)
        ServeScript.maxRallies []) s.state) :=
      serve_succeeds_iff.mpr ⟨hidle, by decide, by decide, hprice, htakes⟩
    obtain ⟨t, rfl, hok⟩ | ⟨hfails, -⟩ := hresult
    · exact serve_lands hok
    · exact absurd hsucceeds hfails
  · intro hactive
    obtain ⟨t, rfl, hok⟩ | ⟨-, hsame⟩ := hresult
    · cases hactive.symm.trans (serve_succeeds_iff.mp ⟨_, hok⟩).1
    · exact hsame

theorem scripted_serves_lose_only_to_rivals (K : Type) [DecidableEq K] (I : Immutables)
    (signer : K → Signer I) (owner : Address) (balance : Wei)
    (moves : List (Script.Move (Tx I) Provider K)) :
    let h := (scripted signer).history (connected K owner balance) moves
    (∃ txs, ((scripted signer).run (connected K owner balance) moves).state =
        (machine I).run (deployed owner balance) txs ∧
      Machine.emitted h = Machine.emitted ((machine I).history (deployed owner balance) txs)) ∧
    ∀ past c later, h = past ++ c :: later → ∀ k x nativeFee, c.action = .turn k x →
      c.before.memory k = .affordable nativeFee → nativeFee ≤ x.balance →
        ServesFairly signer k x nativeFee past c := by
  intro h
  constructor
  · obtain ⟨hrun, hout⟩ := Script.shared_run (machine I) (fun k => ServeScript.step (signer k))
      (connected K owner balance) moves
    exact ⟨_, hrun, hout⟩
  · intro past c later hsplit k x nativeFee turn known afford
    have hstart : ServeScript.Seen .connected (deployed owner balance) := by
      intro hfound
      cases hfound
    have hseen (bs : List (Script.Move (Tx I) Provider K)) :
        let s := (scripted signer).run (connected K owner balance) bs
        ServeScript.Seen (s.memory k) s.state ∨
          OutrunSince signer k ((scripted signer).history (connected K owner balance) bs) :=
      Script.seen_unless_overtaken (fun k => ServeScript.step (signer k)) k
        (serveScript_remembers (signer k)) trivial hstart bs
    have hall : Past.All (fun past c => c.action = .turn k x →
        c.before.memory k = .affordable nativeFee → nativeFee ≤ x.balance →
          ServesFairly signer k x nativeFee past c) h :=
      (scripted signer).all_history
        (I := fun past s => ServeScript.Seen (s.memory k) s.state ∨ OutrunSince signer k past) hseen
        fun past c hi hc turn known afford => servesFairly_commit hc turn known afford hi
    exact hall past c later hsplit turn known afford

end

def racingMoves : List (Script.Move (Tx sampleImmutables) Provider Bool) :=
  List.replicate 3 (.turn false ⟨obligingOApp 7 5, 9⟩) ++
    List.replicate 4 (.turn true ⟨obligingOApp 8 5, 9⟩) ++ [.turn false ⟨obligingOApp 7 5, 9⟩]

example : ((Machine.emitted ((scripted fun _ => ⟨2, by decide⟩).history (connected Bool 3 0)
    racingMoves)).map Sent.guid) = [8] := by
  decide +kernel

end CrossChainPingPong.Evm
