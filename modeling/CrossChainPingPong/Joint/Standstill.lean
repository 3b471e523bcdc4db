import CrossChainPingPong.Joint.Balls
import CrossChainPingPong.Joint.Games
import CrossChainPingPong.Library.Potential
import CrossChainPingPong.Table.Standstill

namespace CrossChainPingPong.Joint
open Guard

variable {d : Deployment} {s : State}

def Act.plays : Act d → Bool
  | .deliverEvm .. | .deliverSvm .. => true
  | .svm (.sendBall ..) _ => true
  | .svm .. | .evm .. => false

def State.playLeft (s : State) : Nat :=
  3 * (rallyCap - s.svmRallyCount) + (if s.svmHasBall = true then 2 else 0) +
    s.inFlight.countP Packet.sentBySvm

structure Standstill (s : State) : Prop where
  away : s.svmHasBall = false
  toSvm : ∀ p ∈ s.inFlight, p.dst = .svm →
    p.ball.value = 0 ∨ fullBall < p.ball.value ∨ rallyCap ≤ s.svmRallyCount
  toEvm : ∀ p ∈ s.inFlight, p.dst = .evm →
    s.evm.gameState.hasBall = true ∧ s.evm.processedGuid p.guid = false

theorem plays_move (a : Act d) : a.move.plays = a.plays := by
  cases a with
  | evm tx isLocal => cases tx <;> rfl
  | svm ix isLocal => cases ix <;> rfl
  | deliverEvm | deliverSvm => rfl

theorem table_playLeft (s : State) : s.table.playLeft = s.playLeft := by
  simp only [Table.playLeft, State.playLeft, State.table, List.countP_map]
  rfl

theorem table_standstill : s.table.Standstill ↔ Standstill s := by
  constructor
  · rintro ⟨haway, hrefused⟩
    refine ⟨haway, fun p hp hdst => ?_, fun p hp hdst => ?_⟩
    · have hball := hrefused p.ball (List.mem_map_of_mem hp)
      rwa [Table.Refused, show p.ball.dst = .svm from hdst] at hball
    · have hball := hrefused p.ball (List.mem_map_of_mem hp)
      rwa [Table.Refused, show p.ball.dst = .evm from hdst] at hball
  · rintro ⟨haway, htoSvm, htoEvm⟩
    refine ⟨haway, fun b hb => ?_⟩
    obtain ⟨p, hp, rfl⟩ := List.mem_map.mp hb
    cases hdst : p.dst with
    | evm =>
      rw [Table.Refused, show p.ball.dst = .evm from hdst]
      exact htoEvm p hp hdst
    | svm =>
      rw [Table.Refused, show p.ball.dst = .svm from hdst]
      exact htoSvm p hp hdst

theorem spends_commit {c : Commit State (Act d) Packet} (hs : Sound d c.before)
    (hc : (machine d).Commits c) :
    c.after.playLeft + (if c.action.plays = true then 1 else 0) ≤ c.before.playLeft := by
  have hstep := Table.playLeft_step ((simulation d).step c hc hs)
  simp only [simulation, table_playLeft, plays_move] at hstep
  exact hstep

theorem plays_of_goesOn {a : Act d} (h : a.goesOn s) : a.plays = true := by
  cases a with
  | deliverEvm | deliverSvm => rfl
  | evm => cases h
  | svm ix isLocal =>
    cases ix with
    | sendBall => rfl
    | initStore | setPeerConfig | pauseGame | resumeGame | lzReceive | closeGame => cases h

theorem standstill_of_finished (hs : Sound d s) (held : s.svmHasBall = true → 0 < s.svmBallValue)
    (finished : Finished d s) : Standstill s := by
  constructor
  · refine Bool.eq_false_of_not_eq_true fun hball => ?_
    obtain ⟨a, hgo, hok⟩ := returnsBall_accepted hs hball (held hball)
    exact finished a hgo hok
  · intro p hp hdst
    by_contra hopen
    simp only [not_or, Nat.not_lt, Nat.not_le] at hopen
    obtain ⟨hpos, hhigh, hlt⟩ := hopen
    obtain ⟨i, hi⟩ := List.mem_iff_getElem?.mp hp
    exact finished (.deliverSvm i (Svm.obligingOapp 0) [] 1 []) trivial
      (deliverSvm_accepted hs hi hdst (Nat.pos_of_ne_zero hpos) hhigh hlt)
  · intro p hp hdst
    by_contra hopen
    obtain ⟨i, hi⟩ := List.mem_iff_getElem?.mp hp
    refine finished (.deliverEvm i (Evm.obligingOApp 0 0) 0 1) trivial
      (deliverEvm_accepted hs hi hdst ?_)
    rcases not_and_or.mp hopen with hball | hdone
    · exact .inl (Bool.eq_false_of_not_eq_true hball)
    · exact .inr (Bool.eq_true_of_not_eq_false hdone)

theorem Standstill.commit {c : Commit State (Act d) Packet} (still : Standstill c.before)
    (hs : Sound d c.before) (hc : (machine d).Commits c) (noServe : c.action.isServe = false) :
    Standstill c.after ∧ c.action.plays = false ∧ c.out = [] := by
  have hmove : c.action.move.isServe = false := (isServe_move _).trans noServe
  obtain ⟨hstill, hplays, hout, -⟩ :=
    (table_standstill.mpr still).step ((simulation d).step c hc hs) hmove
  exact ⟨table_standstill.mp hstill, (plays_move _).symm.trans hplays, List.map_eq_nil_iff.mp hout⟩

theorem finished_of_standstill (hs : Sound d s) (still : Standstill s) : Finished d s := by
  rintro a hgo ⟨⟨t, out⟩, ha⟩
  have hplays : a.plays = true := plays_of_goesOn hgo
  have noServe : a.isServe = false := by
    cases a with
    | evm => cases hgo
    | svm | deliverEvm | deliverSvm => rfl
  obtain ⟨-, hstays, -⟩ := still.commit (c := ⟨s, a, t, out⟩) hs ha noServe
  cases hstays.symm.trans hplays

theorem standstill_until_serve (hs : Sound d s) (still : Standstill s) (bs : List (Act d))
    (noServe : ∀ c ∈ (machine d).history s bs, c.action.isServe = false) :
    Standstill ((machine d).run s bs) ∧
      ∀ c ∈ (machine d).history s bs, c.action.plays = false ∧ c.out = [] := by
  have htrace := (machine d).trace s bs
  have hall := htrace.rule (P := fun h t => (Sound d t ∧ Standstill t) ∧
    ∀ c ∈ h, c.action.plays = false ∧ c.out = []) ⟨⟨hs, still⟩, List.forall_mem_nil _⟩ ?_ noServe
  · exact ⟨hall.1.2, hall.2⟩
  · rintro h c ⟨⟨hsound, hstill⟩, hquiet⟩ hc hserve
    obtain ⟨hafter, hplays, hout⟩ := hstill.commit hsound hc hserve
    refine ⟨⟨sound_effect hsound (commits_effect hc), hafter⟩, fun e he => ?_⟩
    rcases List.mem_append.mp he with he | he
    · exact hquiet e he
    · obtain rfl := List.mem_singleton.mp he
      exact ⟨hplays, hout⟩

theorem play_comes_to_a_standstill (d : Deployment) (as : List (Act d)) :
    let s := (machine d).run (fresh d) as
    (∀ bs, ((machine d).run s bs).playLeft +
        ((machine d).history s bs).countP (fun c => c.action.plays) ≤ s.playLeft) ∧
      (∃ bs, bs.length ≤ s.playLeft ∧ (machine d).Exhausted Act.goesOn s bs ∧
        Standstill ((machine d).run s bs)) ∧
      (Finished d s ↔ Standstill s) ∧
      (Standstill s → ∀ bs, (∀ c ∈ (machine d).history s bs, c.action.isServe = false) →
        ∀ c ∈ (machine d).history s bs, c.action.plays = false ∧ c.out = []) := by
  intro s
  have hsound (cs : List (Act d)) : Sound d ((machine d).run (fresh d) cs) :=
    (simulation d).inv_run (sound_fresh d) cs
  have hheld (cs : List (Act d)) : ((machine d).run (fresh d) cs).svmHasBall = true →
      0 < ((machine d).run (fresh d) cs).svmBallValue := Table.held_positive (table_trace d cs)
  have hpreserved (c : Commit State (Act d) Packet) (hs : Sound d c.before)
      (hc : (machine d).Commits c) : Sound d c.after := sound_effect hs (commits_effect hc)
  have hless (c : Commit State (Act d) Packet) (hs : Sound d c.before) (hc : (machine d).Commits c)
      (hgo : c.action.goesOn c.before) : c.after.playLeft < c.before.playLeft := by
    have hspends := spends_commit hs hc
    rwa [if_pos (plays_of_goesOn hgo)] at hspends
  refine ⟨fun bs => ?_, ?_, ?_, fun still bs noServe => ?_⟩
  · exact (machine d).counted_le_potential (hsound as) hpreserved (fun c hs hc => spends_commit hs hc) bs
  · obtain ⟨bs, hlength, hrest⟩ :=
      (machine d).exists_exhausted Act.goesOn hpreserved hless s (hsound as)
    have hrun : (machine d).run s bs = (machine d).run (fresh d) (as ++ bs) :=
      ((machine d).run_append (fresh d) as bs).symm
    have hfinished : Finished d ((machine d).run s bs) := hrest.rest
    rw [hrun] at hfinished
    refine ⟨bs, hlength, hrest, ?_⟩
    rw [hrun]
    exact standstill_of_finished (hsound _) (hheld _) hfinished
  · exact ⟨standstill_of_finished (hsound as) (hheld as), finished_of_standstill (hsound as)⟩
  · exact (standstill_until_serve (hsound as) still bs noServe).2

end CrossChainPingPong.Joint
