import CrossChainPingPong.Evm.Delivery
import CrossChainPingPong.Joint.SingleBall
import CrossChainPingPong.Rally.Play

namespace CrossChainPingPong.Joint
open Machine Guard

variable {d : Deployment} {as bs : List (Act d)} {s : State}

def Act.goesOn (a : Act d) (s : State) : Prop :=
  match a with
  | .deliverEvm .. | .deliverSvm .. => True
  | .svm (.sendBall _ _ params) _ => params.ballValue.toNat = s.svmBallValue
  | _ => False

def Finished (d : Deployment) (s : State) : Prop :=
  ∀ a : Act d, a.goesOn s → ¬ Succeeds (apply a s)

theorem finished_of_inPlay (h : s.inPlay = 0) : Finished d s := by
  obtain ⟨hfly, hball⟩ := Nat.add_eq_zero_iff.mp h
  rw [List.length_eq_zero_iff] at hfly
  rintro a hgo ⟨⟨s', out⟩, ha⟩
  cases apply_effect ha with
  | evm => cases hgo
  | deliverEvm here | deliverSvm here =>
    rw [hfly] at here
    cases here
  | svm outcome =>
    cases outcome with
    | sendBall game known running ball =>
      rw [State.svmHasBall, game] at hball
      simp [ball] at hball
    | pauseGame | resumeGame => cases hgo
    | initStore | setPeerAddress | setEnforcedOptions | closeGame | lzReceive => cases hgo

theorem succeeds_runEvm {tx : Evm.Tx d.evm} {pool : List Packet}
    (h : Succeeds (Evm.apply tx s.evm)) : Succeeds (runEvm tx pool s) := by
  obtain ⟨r, hr⟩ := h
  exact ⟨_, runEvm_eq_ok.mpr ⟨r.1, r.2, hr, rfl, rfl⟩⟩

theorem succeeds_runSvm {ix : Svm.Ix} {pool : List Packet}
    (h : Succeeds (Svm.apply d.rt ix s.svm)) : Succeeds (runSvm d ix pool s) := by
  obtain ⟨r, hr⟩ := h
  exact ⟨_, runSvm_eq_ok.mpr ⟨r.1, r.2, hr, rfl, rfl⟩⟩

theorem returnsBall_accepted (hs : Sound d s) (ball : s.svmHasBall = true)
    (pos : 0 < s.svmBallValue) : ∃ a : Act d, a.goesOn s ∧ Succeeds (apply a s) := by
  obtain ⟨g, hg, hpaused, -⟩ := hs.game
  obtain ⟨peer, hpeer, -⟩ := hs.peer
  have hknown : s.svm.peer d.evmEid = some peer := by rw [hpeer, Function.update_self]
  rw [State.svmHasBall, hg] at ball
  rw [State.svmBallValue, hg] at pos
  refine ⟨returnsBall d 0 g.ballValue, ?_, ?_⟩
  · simp only [Act.goesOn, returnsBall, State.svmBallValue, hg, Option.elim]
  · exact succeeds_runSvm (Svm.sendBall_accepted 0 hg hknown hpaused ball pos)

theorem deliverSvm_accepted {i : Nat} {p : Packet} (hs : Sound d s) (here : s.inFlight[i]? = some p)
    (dst : p.dst = .svm) (pos : 0 < p.ball.value) (high : p.ball.value ≤ fullBall)
    (lt : s.svmRallyCount < rallyCap) :
    Succeeds (apply (.deliverSvm i (Svm.obligingOapp 0) [] 1 [] : Act d) s) := by
  obtain ⟨g, hg, hpaused, -⟩ := hs.game
  obtain ⟨peer, hpeer, haddress⟩ := hs.peer
  have hknown : s.svm.peer d.evmEid = some peer := by rw [hpeer, Function.update_self]
  obtain ⟨v, r, hm, hv, -⟩ := hs.wire p (List.mem_of_getElem? here)
  have hdec := hm ▸ PingPongMessage.decode_abiEncode v r
  have hvalue : (v.setWidth 128).toNat = p.ball.value := by
    rw [ball_of_abiEncode hm, BitVec.toNat_setWidth, Nat.mod_eq_of_lt hv]
  rw [State.svmRallyCount, hg] at lt
  rw [← hvalue] at pos high
  have hix : Succeeds (Svm.apply d.rt (d.receipt p (Svm.obligingOapp 0) [] 1 []) s.svm) :=
    Svm.lzReceive_accepted hg hknown haddress.symm hpaused hdec pos high lt
  simp only [apply, succeeds_bind, okOr_eq_ok, require_eq_ok, exists_const, here,
    Option.some.injEq, exists_eq_left', dst, true_and]
  exact succeeds_runSvm hix

theorem reachesSvm_accepted {p : Packet} (hs : Sound d s) (here : s.inFlight[0]? = some p)
    (dst : p.dst = .svm) (pos : 0 < p.ball.value) (high : p.ball.value ≤ fullBall)
    (lt : s.svmRallyCount < rallyCap) : Succeeds (apply (reachesSvm d) s) :=
  deliverSvm_accepted hs here dst pos high lt

theorem deliverEvm_accepted {i : Nat} {p : Packet} (hs : Sound d s) (here : s.inFlight[i]? = some p)
    (dst : p.dst = .evm)
    (free : s.evm.gameState.hasBall = false ∨ s.evm.processedGuid p.guid = true) :
    Succeeds (apply (.deliverEvm i (Evm.obligingOApp 0 0) 0 1 : Act d) s) := by
  obtain ⟨v, r, hm, -, hr⟩ := hs.wire p (List.mem_of_getElem? here)
  simp only [apply, succeeds_bind, okOr_eq_ok, require_eq_ok, exists_const, here,
    Option.some.injEq, exists_eq_left', dst, true_and]
  have hdec : abiDecode p.message = some (v, r) := hm ▸ abiDecode_abiEncode v r
  refine succeeds_runEvm ?_
  rcases free with hfree | hdone
  · exact (Evm.obligingOApp_willing 0 0).accepted rfl hdec (by omega) hfree (Nat.zero_le _)
  · exact ⟨_, Evm.apply_replay p.message rfl rfl hdone⟩

theorem reachesEvm_accepted {p : Packet} (hs : Sound d s) (here : s.inFlight[0]? = some p)
    (dst : p.dst = .evm) (free : s.evm.gameState.hasBall = false) : Succeeds (apply (reachesEvm d 0) s) :=
  deliverEvm_accepted hs here dst (.inl free)

theorem next_of_finished (hs : Sound d s) (hc : Table.Conserved 0 s.table)
    (finished : Finished d s) : s.table.rally.next = none := by
  cases hplace : s.table.place with
  | parked | dead => simp [Rally.next, Table.rally, hplace]
  | held v =>
    obtain ⟨hball, rfl⟩ := Table.holds_of_held hplace
    by_contra hnext
    have hpos : 0 < s.svmBallValue := by
      refine Nat.pos_of_ne_zero fun h0 => hnext ?_
      have h0' : s.table.svmValue = 0 := h0
      simp [Rally.next, Table.rally, hplace, h0']
    obtain ⟨a, hgo, hok⟩ := returnsBall_accepted hs hball hpos
    exact finished a hgo hok
  | toEvm v r =>
    have hact := Table.active_of_place (t := s.table) (by simp [hplace])
    obtain ⟨k, hk⟩ := Table.flying_of_toEvm hplace
    obtain ⟨p, hp, hball⟩ := Option.map_eq_some_iff.mp ((List.getElem?_map ..).symm.trans hk)
    have hdst : p.dst = .evm := congrArg Ball.dst hball
    exact absurd (reachesEvm_accepted hs hp hdst (hc.free hact)) (finished (reachesEvm d 0) trivial)
  | toSvm v r =>
    obtain ⟨k, hk⟩ := Table.flying_of_toSvm hplace
    obtain ⟨p, hp, hball⟩ := Option.map_eq_some_iff.mp ((List.getElem?_map ..).symm.trans hk)
    have hdst : p.dst = .svm := congrArg Ball.dst hball
    have hvalue : p.ball.value = v := congrArg Ball.value hball
    by_contra hnext
    have hopen : ¬ (v = 0 ∨ fullBall < v ∨ rallyCap ≤ s.table.svmRally) := by
      intro hblocked
      exact hnext (by simp [Rally.next, Table.rally, hplace, hblocked])
    simp only [not_or, Nat.not_lt, Nat.not_le] at hopen
    obtain ⟨hpos, hhigh, hlt⟩ := hopen
    rw [← hvalue] at hpos hhigh
    exact finished (reachesSvm d) trivial
      (reachesSvm_accepted hs hp hdst (Nat.pos_of_ne_zero hpos) hhigh hlt)

structure Game (d : Deployment) (s : State) (m : Uint256) (as : List (Act d)) : Prop where
  opening : ((machine d).history s as).head?.bind (fun c => c.action.served) = some m
  rest : ∀ c ∈ ((machine d).history s as).tail,
    c.action.isServe = false ∧ c.action.isPauseGame = false ∧ sendsStored c = true
  finished : Finished d ((machine d).run s as)

def State.endsOn (s : State) : Option Chain :=
  if s.evm.gameState.hasBall = true then some .evm
  else if s.inPlay = 0 then some .svm
  else none

structure Record where
  messages : List (Nat × Nat)
  endsOn : Option Chain
  evmRallyCount : Nat
  svmRallyCount : Nat
  deriving DecidableEq

def record (d : Deployment) (s : State) (as : List (Act d)) : Record where
  messages := (emitted ((machine d).history s as)).map Packet.content
  endsOn := ((machine d).run s as).endsOn
  evmRallyCount := ((machine d).run s as).evm.rallyCount.toNat
  svmRallyCount := ((machine d).run s as).svmRallyCount

theorem endsOn_rally (hc : Table.Conserved 0 s.table) : s.table.rally.endsOn = s.endsOn := by
  have hquiet := Table.quiet_iff_place hc
  rw [table_inPlay] at hquiet
  simp only [Rally.endsOn, State.endsOn, hquiet]
  rfl

theorem served_move {a : Act d} {m : Uint256} (h : a.served = some m) :
    a.move = .serve m.toNat := by
  cases a with
  | evm tx isLocal =>
    cases tx with
    | serve lz msg maxRallies options =>
      cases h
      rfl
    | _ => cases h
  | svm | deliverEvm | deliverSvm => cases h

theorem isPauseGame_of_served {a : Act d} {m : Uint256} (h : a.served = some m) :
    a.isPauseGame = false := by
  rw [← isPause_move, served_move h]
  rfl

theorem returns_view {c : Commit State (Act d) Packet}
    (hs : (view c).before.Step (view c).action (view c).after (view c).out)
    (honest : sendsStored c = true) : Rally.Returns (view c) := by
  intro w hw
  have hstored : Table.sendsStored ((simulation d).commit c) = true :=
    (sendsStored_commit c).trans honest
  have hmove : c.action.move = .sendBall w := hw
  rw [Table.sendsStored] at hstored
  simp only [Simulation.commit, Commit.map, simulation, hmove, decide_eq_true_eq] at hstored
  rw [hw] at hs
  obtain ⟨v, here⟩ := Rally.held_of_step hs
  obtain ⟨-, hvalue⟩ := Table.holds_of_held here
  rw [here, hstored, hvalue]

theorem returns_trace {h : List (Commit State (Act d) Packet)} {g g' : Rally}
    (trace : Trace Rally.Step g (h.map view) g') (honest : ∀ e ∈ h, sendsStored e = true) :
    ∀ e ∈ h.map view, Rally.Returns e := by
  intro e he
  obtain ⟨e₀, he₀, rfl⟩ := List.mem_map.mp he
  exact returns_view (trace.step_of_mem he) (honest e₀ he₀)

theorem served_trace {m : Uint256} {c : Commit State (Act d) Packet}
    {h : List (Commit State (Act d) Packet)}
    (hc : Table.Conserved 0 ((machine d).run (fresh d) as).table)
    (distinct : GuidsDistinct ((machine d).history (fresh d) (as ++ bs)))
    (hhist : (machine d).history ((machine d).run (fresh d) as) bs = c :: h)
    (serve : c.action.served = some m)
    (undisturbed : ∀ e ∈ h, e.action.isServe = false ∧ e.action.isPauseGame = false) :
    let s := (machine d).run (fresh d) as
    let g := Rally.served m.toNat s.svmRallyCount
    Table.Conserved 0 ((machine d).run s bs).table ∧ (view c).after = g ∧
      (view c).out = [(fullBall, 0)] ∧
      Trace Rally.Step g (h.map view) ((machine d).run s bs).table.rally ∧
      ∀ e ∈ h.map view, e.action.isServe = false := by
  intro s g
  have hnoPause : ∀ e ∈ (machine d).history s bs, e.action.isPauseGame = false := by
    intro e he
    rw [hhist] at he
    rcases List.mem_cons.mp he with rfl | he
    · exact isPauseGame_of_served serve
    · exact (undisturbed e he).2
  obtain ⟨hend, htrace⟩ := single_ball hc distinct hnoPause
  rw [hhist, List.map_cons] at htrace
  obtain ⟨-, hstep, hplayed⟩ := htrace.of_cons
  have hmove : (view c).action = .serve m.toNat := served_move serve
  rw [hmove] at hstep
  obtain ⟨hafter, hout⟩ := Rally.served_of_step hstep
  rw [hafter] at hplayed
  refine ⟨hend, hafter, hout, hplayed, fun e he => ?_⟩
  obtain ⟨e₀, he₀, rfl⟩ := List.mem_map.mp he
  exact (isServe_move e₀.action).trans (undisturbed e₀ he₀).1

theorem Game.opened {m : Uint256} (game : Game d s m bs) :
    ∃ c h, (machine d).history s bs = c :: h ∧ c.action.served = some m ∧
      ∀ e ∈ h, e.action.isServe = false ∧ e.action.isPauseGame = false ∧ sendsStored e = true := by
  obtain ⟨opening, rest, -⟩ := game
  cases hhist : (machine d).history s bs with
  | nil =>
    rw [hhist] at opening
    cases opening
  | cons c h =>
    rw [hhist] at opening rest
    exact ⟨c, h, rfl, opening, rest⟩

theorem Game.play {m : Uint256} (game : Game d ((machine d).run (fresh d) as) m bs)
    (hc : Table.Conserved 0 ((machine d).run (fresh d) as).table)
    (distinct : GuidsDistinct ((machine d).history (fresh d) (as ++ bs))) :
    let s := (machine d).run (fresh d) as
    ∃ out, Play Rally.next (Rally.served m.toNat s.svmRallyCount) out
        ((machine d).run s bs).table.rally ∧
      ((machine d).run s bs).table.rally.next = none ∧
      (emitted ((machine d).history s bs)).map Packet.content = (fullBall, 0) :: out ∧
      ((machine d).run s bs).table.rally.endsOn = ((machine d).run s bs).endsOn := by
  intro s
  obtain ⟨c, h, hhist, hserve, hrest⟩ := game.opened
  obtain ⟨hend, -, hout, hplayed, hnoServe⟩ := served_trace hc distinct hhist hserve
    fun e he => ⟨(hrest e he).1, (hrest e he).2.1⟩
  have hsound : Sound d ((machine d).run s bs) := by
    rw [← run_append]
    exact (simulation d).inv_run (sound_fresh d) (as ++ bs)
  have hreturns := returns_trace hplayed fun e he => (hrest e he).2.2
  refine ⟨emitted (h.map view), Rally.play_of_trace hplayed hnoServe hreturns,
    next_of_finished hsound hend game.finished, ?_, endsOn_rally hend⟩
  rw [← emitted_view, hhist, List.map_cons, emitted, List.flatMap_cons, hout]
  rfl

theorem games_independent_iff (d : Deployment) (as bs cs : List (Act d)) (m : Uint256)
    (idle : ((machine d).run (fresh d) as).evm.gameState.gameActive = false)
    (quiet : ((machine d).run (fresh d) as).inPlay = 0)
    (later : Game d ((machine d).run (fresh d) as) m bs) (first : Game d (fresh d) m cs)
    (distinct : GuidsDistinct ((machine d).history (fresh d) (as ++ bs)))
    (distinct' : GuidsDistinct ((machine d).history (fresh d) cs)) :
    record d ((machine d).run (fresh d) as) bs = record d (fresh d) cs ↔
      ((machine d).run (fresh d) as).svmRallyCount = 0 := by
  have hc : Table.Conserved 0 ((machine d).run (fresh d) as).table :=
    Table.conserved_of_quiet idle ((table_inPlay _).trans quiet)
  have hfresh : Table.Conserved 0 ((machine d).run (fresh d) []).table := by
    rw [run, table_fresh]
    exact Table.conserved_start
  obtain ⟨out, hplay, hover, hmessages, hends⟩ := later.play hc distinct
  obtain ⟨out', hplay', hover', hmessages', hends'⟩ := Game.play first hfresh distinct'
  have hzero : (fresh d).svmRallyCount = 0 := by
    rw [State.svmRallyCount, fresh_svm]
    rfl
  rw [show (machine d).run (fresh d) [] = fresh d from rfl] at hplay' hmessages' hends'
  rw [hzero] at hplay'
  rw [← Rally.same_play_iff hplay hover hplay' hover', record, record, Record.mk.injEq, hmessages,
    hmessages', List.cons.injEq, ← hends, ← hends']
  simp only [true_and]
  rfl

def oneRallyGame (served returned : Bytes32) : List (Act sampleDeployment) :=
  [sampleServe served 1, reachesSvm sampleDeployment,
    returnsBall sampleDeployment returned 99999999999999999999, reachesEvm sampleDeployment 0]

theorem oneRallyGame_first : Game sampleDeployment (fresh sampleDeployment) 1 (oneRallyGame 7 5) where
  opening := by decide +kernel
  rest := by decide +kernel
  finished := finished_of_inPlay (by decide +kernel)

theorem oneRallyGame_second : Game sampleDeployment
    ((machine sampleDeployment).run (fresh sampleDeployment) (oneRallyGame 7 5)) 1
    (oneRallyGame 8 6) where
  opening := by decide +kernel
  rest := by decide +kernel
  finished := finished_of_inPlay (by decide +kernel)

theorem second_oneRallyGame_differs :
    record sampleDeployment
        ((machine sampleDeployment).run (fresh sampleDeployment) (oneRallyGame 7 5))
        (oneRallyGame 8 6) ≠
      record sampleDeployment (fresh sampleDeployment) (oneRallyGame 7 5) := by
  intro hsame
  have hzero := (games_independent_iff sampleDeployment (oneRallyGame 7 5) (oneRallyGame 8 6)
    (oneRallyGame 7 5) 1 (by decide +kernel) (by decide +kernel) oneRallyGame_second
    oneRallyGame_first (by decide +kernel) (by decide +kernel)).mp hsame
  exact absurd hzero (by decide +kernel)

theorem games_not_always_independent :
    ¬ ∀ (d : Deployment) (as bs cs : List (Act d)) (m : Uint256),
      ((machine d).run (fresh d) as).evm.gameState.gameActive = false →
      ((machine d).run (fresh d) as).inPlay = 0 →
      Game d ((machine d).run (fresh d) as) m bs → Game d (fresh d) m cs →
      GuidsDistinct ((machine d).history (fresh d) (as ++ bs)) →
      GuidsDistinct ((machine d).history (fresh d) cs) →
      record d ((machine d).run (fresh d) as) bs = record d (fresh d) cs := by
  intro h
  have hsame := h sampleDeployment (oneRallyGame 7 5) (oneRallyGame 8 6) (oneRallyGame 7 5) 1
    (by decide +kernel) (by decide +kernel) oneRallyGame_second oneRallyGame_first
    (by decide +kernel) (by decide +kernel)
  exact absurd hsame (by decide +kernel)

end CrossChainPingPong.Joint
