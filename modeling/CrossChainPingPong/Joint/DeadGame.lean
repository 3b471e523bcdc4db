import CrossChainPingPong.Joint.SingleBall
import CrossChainPingPong.Table.Ending

namespace CrossChainPingPong.Joint
open Machine

variable {d : Deployment} {as : List (Act d)}

def LosesBall (c : Commit State (Act d) Packet) : Prop :=
  match c.action with
  | .deliverSvm i .. => ∃ p, c.before.inFlight[i]? = some p ∧
      (p.ball.value = 1 ∨ rallyCap ≤ c.before.svmRallyCount + 1)
  | _ => False

theorem loses_commit (c : Commit State (Act d) Packet) :
    Table.Loses ((simulation d).commit c) ↔ LosesBall c := by
  obtain ⟨s, a, s', out⟩ := c
  constructor
  · rintro ⟨i, b, hmv, hb, hlast⟩
    cases a with
    | evm tx isLocal => cases tx <;> cases hmv
    | svm ix isLocal => cases ix <;> cases hmv
    | deliverEvm => cases hmv
    | deliverSvm j oapp accounts nonce extraData =>
      obtain rfl : j = i := Move.receiveSvm.inj hmv
      obtain ⟨p, hp, rfl⟩ := (List.getElem?_map ..).symm.trans hb |> Option.map_eq_some_iff.mp
      exact ⟨p, hp, hlast⟩
  · intro hl
    cases a with
    | evm | svm | deliverEvm => cases hl
    | deliverSvm j oapp accounts nonce extraData =>
      obtain ⟨p, hp, hlast⟩ := hl
      refine ⟨j, p.ball, rfl, ?_, hlast⟩
      simp [Simulation.commit, Commit.map, simulation, State.table, hp]

theorem dead_iff (s : State) :
    s.table.Dead ↔ s.evm.gameState.gameActive = true ∧ s.inPlay = 0 := by
  rw [Table.Dead, table_inPlay]
  rfl

theorem no_dead_game_iff (d : Deployment) (as : List (Act d))
    (noPause : ∀ c ∈ (machine d).history (fresh d) as, c.action.isPauseGame = false)
    (distinct : GuidsDistinct ((machine d).history (fresh d) as)) :
    (∀ bs, bs <+: as → ((machine d).run (fresh d) bs).inPlay = 0 →
        ((machine d).run (fresh d) bs).evm.gameState.gameActive = false) ↔
      ∀ c ∈ (machine d).history (fresh d) as, ¬ LosesBall c := by
  constructor
  · intro quiet c hc loses
    obtain ⟨pre, post, hsplit⟩ := List.append_of_mem hc
    obtain ⟨bs, cs, has, -, hrun, hcommit, -⟩ := (machine d).history_split hsplit
    have hr := rallies_of_mem distinct noPause hc
    obtain ⟨hact, hin⟩ := (dead_iff _).mp
      (Table.dead_of_loses hr.conserved hr.step ((loses_commit c).mpr loses))
    have hafter : (machine d).run (fresh d) (bs ++ [c.action]) = c.after := by
      refine (machine d).run_snoc_ok (o := c.out) ?_
      rw [hrun]
      exact hcommit
    have hq := quiet (bs ++ [c.action]) ⟨cs, by simp [has]⟩ (hafter ▸ hin)
    rw [hafter, hact] at hq
    cases hq
  · intro keeps bs hbs hin
    by_contra hact
    have hdead := (dead_iff _).mpr ⟨eq_true_of_ne_false hact, hin⟩
    have hearlier := (machine d).history_mono (fresh d) hbs
    have hdistinct : GuidsDistinct ((machine d).history (fresh d) bs) := by
      obtain ⟨rest, hrest⟩ := hearlier
      rw [GuidsDistinct, ← hrest, emitted_append, List.map_append] at distinct
      exact (List.nodup_append.mp distinct).1
    obtain ⟨c, hc, hl⟩ := Table.loses_before_dead (table_trace d bs)
      (unseen_tableHistory hdistinct) hdead
    obtain ⟨c₀, hc₀, rfl⟩ := List.mem_map.mp hc
    exact keeps c₀ (hearlier.subset hc₀) ((loses_commit c₀).mp hl)

def lostBallRun : List (Act sampleDeployment) :=
  [sampleServe 7 100, reachesSvm sampleDeployment, returnsBall sampleDeployment 5 2,
    reachesEvm sampleDeployment 9, reachesSvm sampleDeployment]

theorem no_dead_game_until_lostBallRun_ends :
    let h := (machine sampleDeployment).history (fresh sampleDeployment) lostBallRun
    ¬ ∀ c ∈ h, ¬ LosesBall c := by
  intro h keeps
  have hactive := (no_dead_game_iff sampleDeployment lostBallRun (by decide +kernel)
    (by decide +kernel)).mpr keeps lostBallRun List.prefix_rfl (by decide +kernel)
  exact absurd hactive (by decide +kernel)

theorem not_always_free_of_dead_games : ¬ ∀ (d : Deployment) (as : List (Act d)),
    (∀ c ∈ (machine d).history (fresh d) as, c.action.isPauseGame = false) →
    GuidsDistinct ((machine d).history (fresh d) as) →
    ((machine d).run (fresh d) as).inPlay = 0 →
    ((machine d).run (fresh d) as).evm.gameState.gameActive = false := by
  intro h
  have hactive := h sampleDeployment lostBallRun (by decide +kernel) (by decide +kernel)
    (by decide +kernel)
  exact absurd hactive (by decide +kernel)

end CrossChainPingPong.Joint
