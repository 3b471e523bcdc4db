import CrossChainPingPong.Table.Rally

namespace CrossChainPingPong.Table
variable {G : Type}

def Dead (t : Table G) : Prop := t.active = true ∧ t.inPlay = 0

def Loses (c : Commit (Table G) Move (Ball G)) : Prop :=
  ∃ i b, c.action = .receiveSvm i ∧ c.before.flying[i]? = some b ∧
    (b.value = 1 ∨ rallyCap ≤ c.before.svmRally + 1)

variable [DecidableEq G] {t t' : Table G} {mv : Move} {out : List (Ball G)}

theorem loses_of_dead (alive : ¬ t.Dead) (unseen : ∀ b ∈ t.flying, t.seen b.guid = false)
    (hs : t.Step mv t' out) (dead : t'.Dead) : Loses ⟨t, mv, t', out⟩ := by
  obtain ⟨hact, hin⟩ := dead
  cases hs with
  | serve => simp [inPlay] at hin
  | pause => cases hact
  | idle => exact absurd ⟨hact, hin⟩ alive
  | sendBall => simp [inPlay] at hin
  | replay here done =>
    have hnew := unseen _ (List.mem_of_getElem? here)
    rw [done] at hnew
    cases hnew
  | finish => cases hact
  | reply => simp [inPlay] at hin
  | keep => simp [inPlay] at hin
  | drop here high cap last =>
    exact ⟨_, _, rfl, here, last.imp (fun hv => by rw [hv]) fun hr => Nat.le_of_eq hr.symm⟩

theorem dead_of_loses (hc : Conserved 0 t) (hs : t.Step mv t' out)
    (loses : Loses ⟨t, mv, t', out⟩) : t'.Dead := by
  obtain ⟨i, b, hmv, hb, hlast⟩ := loses
  cases hs with
  | serve | pause | idle | sendBall | replay | finish | reply => cases hmv
  | keep here high pos lt =>
    obtain rfl := Move.receiveSvm.inj hmv
    obtain rfl := Option.some.inj (here.symm.trans hb)
    simp only at hlast
    omega
  | drop here high cap last =>
    obtain ⟨hact, -, -, herase⟩ := lone_ball hc here
    exact ⟨hact, by simp [inPlay, herase]⟩

theorem loses_before_dead {h : History G} (trace : Trace Step start h t)
    (unseen : ∀ c ∈ h, ∀ b ∈ c.before.flying, c.before.seen b.guid = false) (dead : t.Dead) :
    ∃ c ∈ h, Loses c := by
  induction trace with
  | nil => cases dead.1
  | @snoc h u mv u' out past step ih =>
    by_cases hu : u.Dead
    · obtain ⟨c, hc, hl⟩ := ih (fun c hc => unseen c (List.mem_append_left _ hc)) hu
      exact ⟨c, List.mem_append_left _ hc, hl⟩
    · have hmem : (⟨u, mv, u', out⟩ : Commit (Table G) Move (Ball G)) ∈ h ++ [⟨u, mv, u', out⟩] :=
        List.mem_append_right _ (List.mem_singleton_self _)
      exact ⟨_, hmem, loses_of_dead hu (unseen _ hmem) step dead⟩

end CrossChainPingPong.Table
