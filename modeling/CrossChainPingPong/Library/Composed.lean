import CrossChainPingPong.Library.Trace
import Mathlib.Algebra.Order.Group.Multiset

namespace Machine
variable {S A E O T B F P L : Type} {M : Machine S A E O} {N : Machine T B F P}

-- what a commit of the whole does to one of its parts: the part makes a move of its own, whose output
-- carries the same labels, or it is left as it is
structure Part (M : Machine S A E O) (N : Machine T B F P) (L : Type) where
  view : S → T
  move : Commit S A O → Option B
  item : O → Option L
  label : P → L
  acts : ∀ c b, M.Commits c → move c = some b → ∃ out,
    N.apply b (view c.before) = .ok (view c.after, out) ∧ c.out.filterMap item = out.map label
  rests : ∀ c, M.Commits c → move c = none → view c.after = view c.before ∧ c.out.filterMap item = []

namespace Part
variable (part : Part M N L)

theorem run_eq (s : S) (as : List A) :
    let moves := (M.history s as).filterMap part.move
    N.run (part.view s) moves = part.view (M.run s as) ∧
      (N.history (part.view s) moves).map Commit.action = moves ∧
      (emitted (N.history (part.view s) moves)).map part.label =
        (emitted (M.history s as)).filterMap part.item := by
  refine M.run_induction (P := fun h t =>
    N.run (part.view s) (h.filterMap part.move) = part.view t ∧
      (N.history (part.view s) (h.filterMap part.move)).map Commit.action = h.filterMap part.move ∧
      (emitted (N.history (part.view s) (h.filterMap part.move))).map part.label =
        (emitted h).filterMap part.item) ⟨rfl, rfl, rfl⟩ ?_ as
  rintro h c ⟨hrun, hactions, hout⟩ hc
  rw [List.filterMap_append, emitted_append, emitted_singleton, List.filterMap_append]
  cases hmove : part.move c with
  | none =>
    obtain ⟨hview, hitem⟩ := part.rests c hc hmove
    rw [List.filterMap_cons_none hmove, List.filterMap_nil, List.append_nil, hitem, List.append_nil,
      hview]
    exact ⟨hrun, hactions, hout⟩
  | some b =>
    obtain ⟨out, happly, hitem⟩ := part.acts c b hc hmove
    rw [← hrun] at happly
    rw [List.filterMap_cons_some hmove, List.filterMap_nil, N.run_snoc_ok happly,
      N.history_snoc_ok happly, List.map_append, emitted_append, List.map_append, hactions, hout,
      hitem, emitted_singleton]
    exact ⟨rfl, rfl, rfl⟩

theorem run_induction {Q : List (Commit T B P) → S → Prop} {assumed : Commit S A O → Prop} {s : S}
    (base : Q [] s)
    (rests : ∀ h c, Q h c.before → M.Commits c → assumed c → part.move c = none → Q h c.after)
    (acts : ∀ h c b out, Q h c.before → M.Commits c → assumed c → part.move c = some b →
      N.Commits ⟨part.view c.before, b, part.view c.after, out⟩ →
        Q (h ++ [⟨part.view c.before, b, part.view c.after, out⟩]) c.after)
    (as : List A) (all : ∀ c ∈ M.history s as, assumed c) :
    Q (N.history (part.view s) ((M.history s as).filterMap part.move)) (M.run s as) := by
  refine ((M.trace s as).rule (P := fun h t =>
    N.run (part.view s) (h.filterMap part.move) = part.view t ∧
      Q (N.history (part.view s) (h.filterMap part.move)) t) ⟨rfl, base⟩ ?_ all).2
  rintro h c ⟨hrun, hq⟩ hc hassumed
  rw [List.filterMap_append]
  cases hmove : part.move c with
  | none =>
    rw [List.filterMap_cons_none hmove, List.filterMap_nil, List.append_nil]
    exact ⟨hrun.trans (part.rests c hc hmove).1.symm, rests _ c hq hc hassumed hmove⟩
  | some b =>
    obtain ⟨out, happly, -⟩ := part.acts c b hc hmove
    have hstep := acts _ c b out hq hc hassumed hmove happly
    rw [← hrun] at happly
    rw [List.filterMap_cons_some hmove, List.filterMap_nil, N.run_snoc_ok happly,
      N.history_snoc_ok happly, hrun]
    exact ⟨rfl, hstep⟩

end Part

structure Embeds (M : Machine S A E O) (N : Machine T B F P) where
  state : S → T
  move : A → B
  item : O → P
  Inv : S → Prop
  preserved : ∀ c, M.Commits c → Inv c.before → Inv c.after
  ok : ∀ c, M.Commits c → Inv c.before →
    N.apply (move c.action) (state c.before) = .ok (state c.after, c.out.map item)
  error : ∀ a s e, Inv s → M.apply a s = .error e → ∃ f, N.apply (move a) (state s) = .error f

theorem Embeds.run_eq (embeds : Embeds M N) {s : S} (inv : embeds.Inv s) (as : List A) :
    N.run (embeds.state s) (as.map embeds.move) = embeds.state (M.run s as) ∧
      N.history (embeds.state s) (as.map embeds.move) =
        (M.history s as).map (Commit.map embeds.state embeds.move embeds.item) := by
  induction as generalizing s with
  | nil => exact ⟨rfl, rfl⟩
  | cons a as ih =>
    cases ha : M.apply a s with
    | error e =>
      obtain ⟨f, hf⟩ := embeds.error a s e inv ha
      simp only [List.map_cons, run, history, ha, hf]
      exact ih inv
    | ok r =>
      have hnext := embeds.ok ⟨s, a, r.1, r.2⟩ ha inv
      obtain ⟨hrun, hhistory⟩ := ih (embeds.preserved ⟨s, a, r.1, r.2⟩ ha inv)
      dsimp only at hnext hrun hhistory
      simp only [List.map_cons, run, history, ha, hnext, hrun, hhistory, Commit.map, and_self]

theorem filterMap_or_le {X Y : Type} (f g : X → Option Y) (l : List X) :
    (l.filterMap (fun x => (f x).or (g x)) : Multiset Y) ≤ l.filterMap f + l.filterMap g := by
  induction l with
  | nil => exact Multiset.zero_le _
  | cons x l ih =>
    cases hf : f x with
    | some y =>
      have hor : (f x).or (g x) = some y := by rw [hf, Option.some_or]
      have hg : (l.filterMap g).Sublist ((x :: l).filterMap g) :=
        (List.sublist_cons_self x l).filterMap g
      rw [List.filterMap_cons_some (f := fun x => (f x).or (g x)) hor, List.filterMap_cons_some hf,
        ← Multiset.cons_coe, ← Multiset.cons_coe, Multiset.cons_add]
      exact Multiset.cons_le_cons y (ih.trans (add_le_add_right (Multiset.coe_le.mpr hg.subperm) _))
    | none =>
      cases hg : g x with
      | none =>
        have hor : (f x).or (g x) = none := by rw [hf, hg, Option.none_or]
        rw [List.filterMap_cons_none (f := fun x => (f x).or (g x)) hor, List.filterMap_cons_none hf,
          List.filterMap_cons_none hg]
        exact ih
      | some y =>
        have hor : (f x).or (g x) = some y := by rw [hf, hg, Option.none_or]
        rw [List.filterMap_cons_some (f := fun x => (f x).or (g x)) hor, List.filterMap_cons_none hf,
          List.filterMap_cons_some hg, ← Multiset.cons_coe, ← Multiset.cons_coe, Multiset.add_cons]
        exact Multiset.cons_le_cons y ih

theorem pool_account (pool : S → List O) (taken : Commit S A O → Option O)
    (step : ∀ c, M.Commits c → (pool c.before + c.out : Multiset O) = (taken c).toList + pool c.after)
    (s : S) (as : List A) :
    (pool s + emitted (M.history s as) : Multiset O) =
      (M.history s as).filterMap taken + pool (M.run s as) := by
  refine M.run_induction (P := fun h t =>
    (pool s + emitted h : Multiset O) = h.filterMap taken + pool t) ?_ ?_ as
  · simp [emitted]
  · intro h c ih hc
    have htaken : [c].filterMap taken = (taken c).toList := by
      cases ht : taken c with
      | none => exact List.filterMap_cons_none ht
      | some o => exact List.filterMap_cons_some ht
    rw [emitted_append, emitted_singleton, List.filterMap_append, htaken, ← Multiset.coe_add,
      ← Multiset.coe_add, ← add_assoc, ih, add_assoc, step c hc, add_assoc]

theorem brought_le {X : Type} (pool : S → List O) (taken : Commit S A O → Option O)
    (step : ∀ c, M.Commits c → (pool c.before + c.out : Multiset O) = (taken c).toList + pool c.after)
    {s : S} (empty : pool s = []) (as : List A) (brought : Commit S A O → Option X) (back : O → Option X)
    (foreign : Commit S A O → Option X)
    (split : ∀ c, M.Commits c → brought c = ((taken c).bind back).or (foreign c)) :
    ((M.history s as).filterMap brought : Multiset X) ≤
      (emitted (M.history s as)).filterMap back + (M.history s as).filterMap foreign := by
  have hsplit : (M.history s as).filterMap brought =
      (M.history s as).filterMap fun c => ((taken c).bind back).or (foreign c) :=
    List.filterMap_congr fun c hc => split c (M.commits_of_mem hc)
  have htaken : ((M.history s as).filterMap taken : Multiset O) ≤ emitted (M.history s as) := by
    have haccount := pool_account pool taken step s as
    rw [empty, Multiset.coe_nil, zero_add] at haccount
    rw [haccount]
    exact Multiset.le_add_right _ _
  have hback : ((M.history s as).filterMap fun c => (taken c).bind back) =
      ((M.history s as).filterMap taken).filterMap back := List.filterMap_filterMap.symm
  rw [hsplit]
  refine (filterMap_or_le _ _ _).trans ?_
  rw [hback, ← Multiset.filterMap_coe, ← Multiset.filterMap_coe]
  exact add_le_add_left (Multiset.filterMap_le_filterMap back htaken) _

end Machine
