import Mathlib.Algebra.GroupWithZero.Nat
import Mathlib.Data.List.Perm.Basic
import CrossChainPingPong.Library.Machine

inductive Trace {S A O : Type} (Step : S → A → S → List O → Prop) (s : S) :
    List (Commit S A O) → S → Prop
  | nil : Trace Step s [] s
  | snoc {h t a t' o} (past : Trace Step s h t) (step : Step t a t' o) :
      Trace Step s (h ++ [⟨t, a, t', o⟩]) t'

def Commit.map {S A O T B P : Type} (state : S → T) (move : A → B) (item : O → P)
    (c : Commit S A O) : Commit T B P :=
  ⟨state c.before, move c.action, state c.after, c.out.map item⟩

structure Simulation {S A E O T B P : Type} (M : Machine S A E O)
    (Step : T → B → T → List P → Prop) where
  state : S → T
  move : A → B
  item : O → P
  Inv : S → Prop
  preserved : ∀ c, M.Commits c → Inv c.before → Inv c.after
  step : ∀ c, M.Commits c → Inv c.before →
    Step (state c.before) (move c.action) (state c.after) (c.out.map item)

namespace Trace
variable {S A O : Type} {Step : S → A → S → List O → Prop} {s t : S} {h : List (Commit S A O)}

theorem step_of_mem {c : Commit S A O} (trace : Trace Step s h t) (hc : c ∈ h) :
    Step c.before c.action c.after c.out := by
  induction trace with
  | nil => cases hc
  | snoc past step ih =>
    rcases List.mem_append.mp hc with hc | hc
    · exact ih hc
    · obtain rfl := List.mem_singleton.mp hc
      exact step

theorem split {pre post : List (Commit S A O)} {c : Commit S A O}
    (trace : Trace Step s (pre ++ c :: post) t) :
    Trace Step s pre c.before ∧ Step c.before c.action c.after c.out ∧
      Trace Step c.after post t := by
  generalize hk : pre ++ c :: post = k at trace
  induction trace generalizing post with
  | nil => simp at hk
  | @snoc k u a u' o past step ih =>
    rcases post.eq_nil_or_concat with rfl | ⟨post, d, rfl⟩
    · obtain ⟨rfl, hc⟩ := List.append_inj' hk rfl
      obtain rfl := List.singleton_inj.mp hc
      exact ⟨past, step, .nil⟩
    · rw [List.concat_eq_append, ← List.cons_append, ← List.append_assoc] at hk
      obtain ⟨rfl, hd⟩ := List.append_inj' hk rfl
      obtain rfl := List.singleton_inj.mp hd
      obtain ⟨hpre, hstep, hpost⟩ := ih rfl
      exact ⟨hpre, hstep, by simpa using hpost.snoc step⟩

theorem last (trace : Trace Step s h t) : t = s ∨ ∃ c ∈ h, c.after = t := by
  cases trace with
  | nil => exact .inl rfl
  | snoc past step => exact .inr ⟨_, List.mem_append_right _ (List.mem_singleton_self _), rfl⟩

theorem of_nil (trace : Trace Step s [] t) : t = s := by
  generalize hk : ([] : List (Commit S A O)) = k at trace
  cases trace with
  | nil => rfl
  | snoc past step => simp at hk

theorem of_cons {c : Commit S A O} (trace : Trace Step s (c :: h) t) :
    c.before = s ∧ Step s c.action c.after c.out ∧ Trace Step c.after h t := by
  rw [← List.nil_append (c :: h)] at trace
  obtain ⟨first, step, rest⟩ := trace.split
  have hfirst := first.of_nil
  rw [hfirst] at step
  exact ⟨hfirst, step, rest⟩

-- P speaks of the steps so far and of the state they end in; Q is what is assumed of each step
theorem rule {P : List (Commit S A O) → S → Prop} {Q : Commit S A O → Prop}
    (trace : Trace Step s h t) (base : P [] s)
    (step : ∀ h c, P h c.before → Step c.before c.action c.after c.out → Q c →
      P (h ++ [c]) c.after)
    (assumed : ∀ c ∈ h, Q c) : P h t := by
  induction trace with
  | nil => exact base
  | snoc past hstep ih =>
    refine step _ _ (ih fun c hc => assumed c (List.mem_append_left _ hc)) hstep ?_
    exact assumed _ (List.mem_append_right _ (List.mem_singleton_self _))

theorem conserved (trace : Trace Step s h t) (f : S → Nat) (gain loss : Commit S A O → Nat)
    (step : ∀ c ∈ h, f c.after + loss c = f c.before + gain c) :
    f t + (h.map loss).sum = f s + (h.map gain).sum := by
  refine trace.rule (P := fun h t => f t + (h.map loss).sum = f s + (h.map gain).sum)
    (Q := fun c => f c.after + loss c = f c.before + gain c) rfl ?_ step
  intro h c ih _ hc
  simp only [List.map_append, List.map_singleton, List.sum_append, List.sum_singleton]
  omega

theorem refine {T B P : Type} {Step' : T → B → T → List P → Prop} {I : S → Prop}
    {Q : Commit S A O → Prop} {state : S → T} {move : A → B} {item : O → P}
    (trace : Trace Step s h t) (base : I s)
    (step : ∀ c, I c.before → Step c.before c.action c.after c.out → Q c →
      I c.after ∧ Step' (state c.before) (move c.action) (state c.after) (c.out.map item))
    (assumed : ∀ c ∈ h, Q c) :
    I t ∧ Trace Step' (state s) (h.map (Commit.map state move item)) (state t) := by
  refine trace.rule (P := fun h t =>
    I t ∧ Trace Step' (state s) (h.map (Commit.map state move item)) (state t)) ⟨base, .nil⟩ ?_
    assumed
  rintro h c ⟨hi, past⟩ hs hq
  obtain ⟨hi', hs'⟩ := step c hi hs hq
  rw [List.map_append, List.map_singleton]
  exact ⟨hi', past.snoc hs'⟩

end Trace

theorem Machine.trace {S A E O : Type} (M : Machine S A E O) (s : S) (as : List A) :
    Trace (fun s a s' o => M.apply a s = .ok (s', o)) s (M.history s as) (M.run s as) := by
  refine M.run_induction (P := fun h t => Trace _ s h t) .nil ?_ as
  intro h c past hc
  exact past.snoc hc

namespace Simulation
variable {S A E O T B P : Type} {M : Machine S A E O} {Step : T → B → T → List P → Prop}
  (sim : Simulation M Step) {s : S}

def commit (c : Commit S A O) : Commit T B P := c.map sim.state sim.move sim.item

theorem inv_run (start : sim.Inv s) (as : List A) : sim.Inv (M.run s as) :=
  M.invariant_run start (fun c hi hc => sim.preserved c hc hi) as

theorem inv_before (start : sim.Inv s) {as : List A} {c : Commit S A O}
    (hc : c ∈ M.history s as) : sim.Inv c.before :=
  M.invariant_before start (fun c hi hc => sim.preserved c hc hi) hc

theorem trace (start : sim.Inv s) (as : List A) :
    Trace Step (sim.state s) ((M.history s as).map sim.commit) (sim.state (M.run s as)) := by
  have main : sim.Inv (M.run s as) ∧ Trace Step (sim.state s)
      ((M.history s as).map (Commit.map sim.state sim.move sim.item)) (sim.state (M.run s as)) :=
    (M.trace s as).refine (Q := fun _ => True) start
      (fun c hi hs _ => ⟨sim.preserved c hs hi, sim.step c hs hi⟩) fun _ _ => trivial
  exact main.2

end Simulation

namespace Pool
variable {O : Type} {pool : List O} {i : Nat} {o : O}

theorem erase_perm (here : pool[i]? = some o) : List.Perm (o :: pool.eraseIdx i) pool := by
  obtain ⟨hlt, rfl⟩ := List.getElem?_eq_some_iff.mp here
  exact List.getElem_cons_eraseIdx_perm hlt

theorem length_erase (here : pool[i]? = some o) : (pool.eraseIdx i).length + 1 = pool.length :=
  (erase_perm here).length_eq

theorem countP_erase (p : O → Bool) (here : pool[i]? = some o) :
    (pool.eraseIdx i).countP p + (p o).toNat = pool.countP p := by
  rw [← (erase_perm here).countP_eq, List.countP_cons]
  cases p o <;> rfl

end Pool
