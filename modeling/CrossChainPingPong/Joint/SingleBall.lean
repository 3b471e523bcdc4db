import CrossChainPingPong.Joint.Refinement
import CrossChainPingPong.Table.Rally

namespace CrossChainPingPong.Joint
open Machine

variable {d : Deployment} {as bs : List (Act d)}

-- what the endpoint promises of the guids it gives out
def GuidsDistinct (h : List (Commit State (Act d) Packet)) : Prop :=
  ((emitted h).map Packet.guid).Nodup

instance (h : List (Commit State (Act d) Packet)) : Decidable (GuidsDistinct h) :=
  inferInstanceAs (Decidable ((emitted h).map Packet.guid).Nodup)

def State.inPlay (s : State) : Nat := s.inFlight.length + s.svmHasBall.toNat

def Packet.content (p : Packet) : Nat × Nat := (p.ball.value, p.ball.rally)

def view (c : Commit State (Act d) Packet) : Commit Rally Move (Nat × Nat) :=
  ⟨c.before.table.rally, c.action.move, c.after.table.rally, c.out.map Packet.content⟩

theorem guids_tableHistory (d : Deployment) (as : List (Act d)) :
    Table.guids (tableHistory d as) =
      (emitted ((machine d).history (fresh d) as)).map Packet.guid := by
  rw [Table.guids, emitted_tableHistory, List.map_map]
  rfl

theorem table_inPlay (s : State) : s.table.inPlay = s.inPlay := by
  simp [Table.inPlay, State.inPlay, State.table]

theorem unseen_tableHistory (distinct : GuidsDistinct ((machine d).history (fresh d) as)) :
    ∀ c ∈ tableHistory d as, ∀ b ∈ c.before.flying, c.before.seen b.guid = false := by
  rw [GuidsDistinct, ← guids_tableHistory] at distinct
  exact fun c hc => Table.unseen_before (table_trace d as) distinct hc

theorem noPause_commit {h : List (Commit State (Act d) Packet)}
    (noPause : ∀ c ∈ h, c.action.isPauseGame = false) :
    ∀ c ∈ h.map (simulation d).commit, c.action.isPause = false :=
  forall_commit (q := fun c => c.action.isPause) (fun c => isPause_move c.action) noPause

theorem conserved_run
    (noPause : ∀ c ∈ (machine d).history (fresh d) as, c.action.isPauseGame = false) :
    Table.Conserved 0 ((machine d).run (fresh d) as).table := by
  have hpause : ∀ c ∈ tableHistory d as, c.action.isPause = false := noPause_commit noPause
  exact (table_trace d as).rule (P := fun _ t => Table.Conserved 0 t) Table.conserved_start
    (fun _ _ hc hs hp => Table.conserved_of_noPause hc hs hp) hpause

structure Rallies (c : Commit State (Act d) Packet) : Prop where
  sound : Sound d c.before
  commits : (machine d).Commits c
  conserved : Table.Conserved 0 c.before.table
  unseen : ∀ b ∈ c.before.table.flying, c.before.table.seen b.guid = false

theorem Rallies.step {c : Commit State (Act d) Packet} (hr : Rallies c) :
    c.before.table.Step c.action.move c.after.table (c.out.map Packet.ball) :=
  refines_effect hr.sound (commits_effect hr.commits)

theorem rallies_of_mem (distinct : GuidsDistinct ((machine d).history (fresh d) as))
    (noPause : ∀ c ∈ (machine d).history (fresh d) as, c.action.isPauseGame = false)
    {c : Commit State (Act d) Packet} (hc : c ∈ (machine d).history (fresh d) as) : Rallies c := by
  obtain ⟨pre, post, hsplit⟩ := List.append_of_mem hc
  obtain ⟨bs, cs, -, hpre, hrun, hcommit, -⟩ := (machine d).history_split hsplit
  have hcons : Table.Conserved 0 ((machine d).run (fresh d) bs).table := by
    refine conserved_run fun e he => noPause e ?_
    rw [hsplit, ← hpre]
    exact List.mem_append_left _ he
  exact ⟨(simulation d).inv_before (sound_fresh d) hc, hcommit, hrun ▸ hcons,
    unseen_tableHistory distinct _ (List.mem_map_of_mem hc)⟩

theorem view_commit :
    Commit.map Table.rally id Ball.message ∘ (simulation d).commit = view := by
  funext c
  simp only [Function.comp, Simulation.commit, Commit.map, List.map_map]
  rfl

theorem emitted_view (h : List (Commit State (Act d) Packet)) :
    emitted (h.map view) = (emitted h).map Packet.content := by
  simp only [emitted, List.flatMap_map, List.map_flatMap]
  rfl

theorem countP_view {p : Move → Bool} {q : Act d → Bool} (hpq : ∀ a : Act d, p a.move = q a)
    (h : List (Commit State (Act d) Packet)) :
    (h.map view).countP (fun c => p c.action) = h.countP fun c => q c.action := by
  rw [List.countP_map]
  exact List.countP_congr fun c _ => by rw [← hpq]; rfl

theorem single_ball (hc : Table.Conserved 0 ((machine d).run (fresh d) as).table)
    (distinct : GuidsDistinct ((machine d).history (fresh d) (as ++ bs)))
    (noPause : ∀ c ∈ (machine d).history ((machine d).run (fresh d) as) bs,
      c.action.isPauseGame = false) :
    let s := (machine d).run (fresh d) as
    Table.Conserved 0 ((machine d).run s bs).table ∧
      Trace Rally.Step s.table.rally (((machine d).history s bs).map view)
        ((machine d).run s bs).table.rally := by
  intro s
  have hsound : Sound d s := (simulation d).inv_run (sound_fresh d) as
  have htrace := (simulation d).trace hsound bs
  have hunseen : ∀ c ∈ ((machine d).history s bs).map (simulation d).commit,
      ∀ b ∈ c.before.flying, c.before.seen b.guid = false := by
    intro c hc
    refine unseen_tableHistory distinct c ?_
    rw [tableHistory, history_append, List.map_append]
    exact List.mem_append_right _ hc
  obtain ⟨hend, hrally⟩ := Table.rally_trace hc htrace hunseen (noPause_commit noPause)
  refine ⟨hend, ?_⟩
  rw [List.map_map, view_commit] at hrally
  exact hrally

theorem single_ball_fresh (distinct : GuidsDistinct ((machine d).history (fresh d) as))
    (noPause : ∀ c ∈ (machine d).history (fresh d) as, c.action.isPauseGame = false) :
    Trace Rally.Step Rally.start (((machine d).history (fresh d) as).map view)
      ((machine d).run (fresh d) as).table.rally := by
  have hnil : Table.Conserved 0 ((machine d).run (fresh d) []).table := by
    rw [run, table_fresh]
    exact Table.conserved_start
  have hmain := (single_ball hnil distinct noPause).2
  rw [run, table_fresh] at hmain
  exact hmain

end CrossChainPingPong.Joint
