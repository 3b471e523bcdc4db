import CrossChainPingPong.Library.Machine

namespace Machine
variable {S A E O B F P T : Type}

-- M does what N does and says more about it: item keeps of what M puts out what N puts out
structure Details (M : Machine S A E O) (N : Machine S B F P) (act : A → B) (item : O → Option P) :
    Prop where
  ok : ∀ {a s s' out}, M.apply a s = .ok (s', out) →
    N.apply (act a) s = .ok (s', out.filterMap item)
  error : ∀ {a s e}, M.apply a s = .error e → ∃ f, N.apply (act a) s = .error f

namespace Details
variable {M : Machine S A E O} {N : Machine S B F P} {act : A → B} {item : O → Option P}

def plain (act : A → B) (item : O → Option P) (c : Commit S A O) : Commit S B P :=
  ⟨c.before, act c.action, c.after, c.out.filterMap item⟩

theorem run_eq (details : Details M N act item) (s : S) (as : List A) :
    N.run s (as.map act) = M.run s as := by
  induction as generalizing s with
  | nil => rfl
  | cons a as ih =>
    cases ha : M.apply a s with
    | error e =>
      obtain ⟨f, hf⟩ := details.error ha
      simp only [List.map_cons, run, ha, hf, ih]
    | ok r => simp only [List.map_cons, run, ha, details.ok ha, ih]

theorem history_eq (details : Details M N act item) (s : S) (as : List A) :
    N.history s (as.map act) = (M.history s as).map (plain act item) := by
  induction as generalizing s with
  | nil => rfl
  | cons a as ih =>
    cases ha : M.apply a s with
    | error e =>
      obtain ⟨f, hf⟩ := details.error ha
      simp only [List.map_cons, history, ha, hf, ih]
    | ok r => simp only [List.map_cons, history, ha, details.ok ha, ih, plain]

end Details

structure Refines (M : Machine S A E O) (N : Machine T A F O) (keep : A → Bool) (R : S → T → Prop) :
    Prop where
  sound : ∀ {s t a s' out}, R s t → M.apply a s = .ok (s', out) →
    keep a = true ∧ ∃ t', N.apply a t = .ok (t', out) ∧ R s' t'
  complete : ∀ {s t a r}, R s t → N.apply a t = .ok r → keep a = true → ∃ q, M.apply a s = .ok q

theorem Refines.run_related {M : Machine S A E O} {N : Machine T A F O} {keep : A → Bool}
    {R : S → T → Prop} (refines : M.Refines N keep R) {s : S} {t : T} (start : R s t) (as : List A) :
    R (M.run s as) (N.run t (as.filter keep)) ∧
      emitted (M.history s as) = emitted (N.history t (as.filter keep)) := by
  induction as generalizing s t with
  | nil => exact ⟨start, rfl⟩
  | cons a as ih =>
    cases ha : M.apply a s with
    | ok r =>
      obtain ⟨hkeep, t', ht, hr⟩ := refines.sound start ha
      obtain ⟨hrun, hout⟩ := ih hr
      simp only [List.filter_cons_of_pos hkeep, run, history, ha, ht]
      exact ⟨hrun, congrArg (r.2 ++ ·) hout⟩
    | error e =>
      obtain ⟨hrun, hout⟩ := ih start
      cases hkeep : keep a with
      | false =>
        simp only [List.filter_cons_of_neg (Bool.eq_false_iff.mp hkeep), run, history, ha]
        exact ⟨hrun, hout⟩
      | true =>
        cases hb : N.apply a t with
        | ok q =>
          obtain ⟨_, hok⟩ := refines.complete start hb hkeep
          cases ha.symm.trans hok
        | error f =>
          simp only [List.filter_cons_of_pos hkeep, run, history, ha, hb]
          exact ⟨hrun, hout⟩

theorem read_run (M : Machine S A E O) (read : T → O → Option T) (view : S → T) (Inv : S → Prop)
    {s : S} (base : Inv s)
    (step : ∀ c, Inv c.before → M.Commits c →
      c.out.foldlM read (view c.before) = some (view c.after) ∧ Inv c.after)
    (as : List A) :
    (emitted (M.history s as)).foldlM read (view s) = some (view (M.run s as)) ∧
      Inv (M.run s as) := by
  refine M.run_induction
    (P := fun h t => (emitted h).foldlM read (view s) = some (view t) ∧ Inv t) ⟨rfl, base⟩ ?_ as
  rintro h c ⟨ih, hinv⟩ hc
  obtain ⟨hread, hafter⟩ := step c hinv hc
  rw [emitted_append, emitted_singleton, List.foldlM_append, ih]
  exact ⟨hread, hafter⟩

end Machine
