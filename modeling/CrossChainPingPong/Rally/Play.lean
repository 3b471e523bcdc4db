import CrossChainPingPong.Library.Play
import CrossChainPingPong.Rally.Counting

namespace CrossChainPingPong.Rally
open Machine

def next (g : Rally) : Option (Rally × List (Nat × Nat)) :=
  match g.place with
  | .parked | .dead => none
  | .toSvm v _ =>
      if v = 0 ∨ fullBall < v ∨ rallyCap ≤ g.svmRally then none
      else if v = 1 ∨ g.svmRally + 1 = rallyCap then
        some ({ g with
          place := .dead
          svmRally := g.svmRally + 1 }, [])
      else
        some ({ g with
          place := .held (v - 1)
          svmRally := g.svmRally + 1 }, [])
  | .held v =>
      if v = 0 then none
      else some ({ g with place := .toEvm v g.svmRally }, [(v, g.svmRally)])
  | .toEvm v r =>
      if v = 0 ∨ g.cap ≤ r + 1 then
        some ({ g with
          place := .parked
          evmHolds := true
          evmRally := r + 1 }, [])
      else
        some ({ g with
          place := .toSvm (v - 1) (r + 1)
          evmHolds := false
          evmRally := r + 1 }, [(v - 1, r + 1)])

def served (m svmRally : Nat) : Rally := ⟨.toSvm fullBall 0, false, m, 0, svmRally⟩

def Returns (c : Commit Rally Move (Nat × Nat)) : Prop :=
  ∀ w, c.action = .sendBall w → c.before.place = .held w

variable {g g' : Rally} {mv : Move} {out : List (Nat × Nat)} {h : History}

theorem next_of_step (hs : g.Step mv g' out) (noServe : mv.isServe = false)
    (returns : Returns ⟨g, mv, g', out⟩) : g' = g ∧ out = [] ∨ next g = some (g', out) := by
  cases hs with
  | serve => cases noServe
  | idle => exact .inl ⟨rfl, rfl⟩
  | @sendBall v w here pos =>
    cases here.symm.trans (returns w rfl)
    exact .inr (by simp [next, here, Nat.ne_of_gt pos])
  | finish here last => exact .inr (by simp [next, here, last])
  | @reply i v r here lt =>
    have hlast : ¬ (v + 1 = 0 ∨ g.cap ≤ r + 1) := by omega
    exact .inr (by simp only [next, here, hlast, if_false, Nat.add_sub_cancel])
  | @keep i v r here high pos lt =>
    have hblocked : ¬ (v + 1 = 0 ∨ fullBall < v + 1 ∨ rallyCap ≤ g.svmRally) := by omega
    have hlast : ¬ (v + 1 = 1 ∨ g.svmRally + 1 = rallyCap) := by omega
    exact .inr (by simp only [next, here, hblocked, hlast, if_false, Nat.add_sub_cancel])
  | @drop i v r here high cap last =>
    have hblocked : ¬ (v + 1 = 0 ∨ fullBall < v + 1 ∨ rallyCap ≤ g.svmRally) := by omega
    have hlast : v + 1 = 1 ∨ g.svmRally + 1 = rallyCap := by omega
    exact .inr (by simp only [next, here, hblocked, hlast, if_false, if_true])

theorem served_of_step {m : Nat} (hs : g.Step (.serve m) g' out) :
    g' = served m g.svmRally ∧ out = [(fullBall, 0)] := by
  cases hs
  exact ⟨rfl, rfl⟩

theorem held_of_step {w : Nat} (hs : g.Step (.sendBall w) g' out) : ∃ v, g.place = .held v := by
  cases hs with
  | sendBall here pos => exact ⟨_, here⟩

theorem play_of_trace {s : Rally} (trace : Trace Step s h g)
    (noServe : ∀ c ∈ h, c.action.isServe = false) (returns : ∀ c ∈ h, Returns c) :
    Play next s (emitted h) g := by
  induction trace with
  | nil => exact .refl s
  | @snoc h g mv g' out past step ih =>
    have hmem : (⟨g, mv, g', out⟩ : Commit Rally Move (Nat × Nat)) ∈ h ++ [⟨g, mv, g', out⟩] :=
      List.mem_append_right _ (List.mem_singleton_self _)
    have hplay := ih (fun c hc => noServe c (List.mem_append_left _ hc))
      fun c hc => returns c (List.mem_append_left _ hc)
    rw [emitted_append, emitted_singleton]
    rcases next_of_step step (noServe _ hmem) (returns _ hmem) with ⟨rfl, rfl⟩ | hnext
    · rw [List.append_nil]
      exact hplay
    · exact hplay.snoc hnext

def endsOn (g : Rally) : Option Chain :=
  if g.evmHolds = true then some .evm
  else if g.place = .parked ∨ g.place = .dead then some .svm
  else none

theorem next_served {m c : Nat} (hc : c + 1 < rallyCap) :
    next (served m c) = some (⟨.held (fullBall - 1), false, m, 0, c + 1⟩, []) := by
  have hfull : fullBall = 100000000000000000000 := rfl
  have hblocked : ¬ (fullBall = 0 ∨ fullBall < fullBall ∨ rallyCap ≤ c) := by omega
  have hlast : ¬ (fullBall = 1 ∨ c + 1 = rallyCap) := by omega
  simp only [next, served, hblocked, hlast, if_false]

theorem first_message {m c : Nat} (play : Play next (served m c) out g) (stuck : next g = none)
    (hc : c + 1 < rallyCap) : ∃ rest, out = (fullBall - 1, c + 1) :: rest := by
  obtain ⟨rest, rfl, hheld⟩ := play.of_next stuck (next_served hc)
  obtain ⟨rest', rfl, -⟩ := hheld.of_next stuck rfl
  exact ⟨rest', rfl⟩

theorem no_message {m c : Nat} (play : Play next (served m c) out g) (stuck : next g = none)
    (hc : rallyCap ≤ c + 1) : out = [] := by
  rcases Nat.lt_or_ge c rallyCap with hlt | hge
  · have hblocked : ¬ (fullBall = 0 ∨ fullBall < fullBall ∨ rallyCap ≤ c) := by
      have hfull : fullBall = 100000000000000000000 := rfl
      omega
    have hlast : fullBall = 1 ∨ c + 1 = rallyCap := .inr (Nat.le_antisymm hlt hc)
    have hnext : next (served m c) = some (⟨.dead, false, m, 0, c + 1⟩, []) := by
      simp only [next, served, hblocked, hlast, if_false, if_true]
    obtain ⟨rest, rfl, hdead⟩ := play.of_next stuck hnext
    exact (hdead.of_stuck rfl).1
  · have hnext : next (served m c) = none := by
      simp only [next, served, hge, or_true, if_true]
    exact (play.of_stuck hnext).1

theorem same_play_iff {m c : Nat} {out' : List (Nat × Nat)}
    (play : Play next (served m c) out g) (stuck : next g = none)
    (play' : Play next (served m 0) out' g') (stuck' : next g' = none) :
    (out = out' ∧ g.endsOn = g'.endsOn ∧ g.evmRally = g'.evmRally ∧ g.svmRally = g'.svmRally) ↔
      c = 0 := by
  constructor
  · rintro ⟨rfl, -⟩
    obtain ⟨rest', hfresh⟩ := first_message play' stuck' (by decide)
    rcases Nat.lt_or_ge (c + 1) rallyCap with hc | hc
    · obtain ⟨rest, hout⟩ := first_message play stuck hc
      rw [hout] at hfresh
      have hmsg := (List.cons.inj hfresh).1
      rw [Prod.mk.injEq] at hmsg
      omega
    · rw [no_message play stuck hc] at hfresh
      cases hfresh
  · rintro rfl
    obtain ⟨rfl, rfl⟩ := play.unique stuck play' stuck'
    exact ⟨rfl, rfl, rfl, rfl⟩

end CrossChainPingPong.Rally
