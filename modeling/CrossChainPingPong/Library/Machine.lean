import Mathlib.Data.List.Induction

structure Commit (S A O : Type) where
  before : S
  action : A
  after : S
  out : List O

structure Machine (S A E O : Type) where
  apply : A → S → Except E (S × List O)

namespace Machine
variable {S A E O : Type} (M : Machine S A E O)

def Commits (c : Commit S A O) : Prop := M.apply c.action c.before = .ok (c.after, c.out)

-- a failed action leaves the state as it was and is not part of the history
def run (s : S) : List A → S
  | [] => s
  | a :: as => match M.apply a s with
      | .ok r => run r.1 as
      | .error _ => run s as

def history (s : S) : List A → List (Commit S A O)
  | [] => []
  | a :: as => match M.apply a s with
      | .ok r => ⟨s, a, r.1, r.2⟩ :: history r.1 as
      | .error _ => history s as

def emitted (h : List (Commit S A O)) : List O := h.flatMap Commit.out

theorem run_append (s : S) (as bs : List A) : M.run s (as ++ bs) = M.run (M.run s as) bs := by
  induction as generalizing s with
  | nil => rfl
  | cons a as ih =>
    simp only [List.cons_append, run]
    cases M.apply a s <;> exact ih _

theorem history_append (s : S) (as bs : List A) :
    M.history s (as ++ bs) = M.history s as ++ M.history (M.run s as) bs := by
  induction as generalizing s with
  | nil => rfl
  | cons a as ih =>
    simp only [List.cons_append, history, run]
    cases M.apply a s <;> simp [ih]

theorem history_mono (s : S) {as bs : List A} (h : as <+: bs) :
    M.history s as <+: M.history s bs := by
  obtain ⟨cs, rfl⟩ := h
  exact ⟨_, (M.history_append s as cs).symm⟩

theorem commits_of_mem {s : S} {as : List A} {c : Commit S A O} (h : c ∈ M.history s as) :
    M.Commits c := by
  induction as generalizing s with
  | nil => simp [history] at h
  | cons a as ih =>
    simp only [history] at h
    cases ha : M.apply a s with
    | error e => rw [ha] at h; exact ih h
    | ok r =>
      rw [ha] at h
      rcases List.mem_cons.mp h with rfl | h
      · exact ha
      · exact ih h

theorem history_split {s : S} {as : List A} {pre post : List (Commit S A O)} {c : Commit S A O}
    (h : M.history s as = pre ++ c :: post) :
    ∃ bs cs, as = bs ++ c.action :: cs ∧ M.history s bs = pre ∧ M.run s bs = c.before ∧
      M.Commits c ∧ M.history c.after cs = post ∧ M.run c.after cs = M.run s as := by
  induction as generalizing s pre with
  | nil => simp [history] at h
  | cons a as ih =>
    simp only [history] at h
    cases ha : M.apply a s with
    | error e =>
      rw [ha] at h
      obtain ⟨bs, cs, rfl, hb, hr, hc, hp, hl⟩ := ih h
      exact ⟨a :: bs, cs, rfl, by simp [history, ha, hb], by simp [run, ha, hr], hc, hp,
        by simpa [run, ha] using hl⟩
    | ok r =>
      rw [ha] at h
      cases pre with
      | nil =>
        simp only [List.nil_append, List.cons.injEq] at h
        obtain ⟨rfl, rfl⟩ := h
        exact ⟨[], as, rfl, rfl, rfl, ha, rfl, by simp [run, ha]⟩
      | cons d pre =>
        simp only [List.cons_append, List.cons.injEq] at h
        obtain ⟨rfl, h⟩ := h
        obtain ⟨bs, cs, rfl, hb, hr, hc, hp, hl⟩ := ih h
        exact ⟨a :: bs, cs, rfl, by simp [history, ha, hb], by simp [run, ha, hr], hc, hp,
          by simpa [run, ha] using hl⟩

theorem action_of_mem {s : S} {as : List A} {c : Commit S A O} (h : c ∈ M.history s as) :
    c.action ∈ as := by
  obtain ⟨pre, post, hsplit⟩ := List.append_of_mem h
  obtain ⟨bs, cs, rfl, -⟩ := M.history_split hsplit
  exact List.mem_append_right _ List.mem_cons_self

theorem eq_of_mem_singleton {s : S} {a : A} {c : Commit S A O} (h : c ∈ M.history s [a]) :
    c.before = s ∧ c.action = a := by
  simp only [history] at h
  cases ha : M.apply a s with
  | error e => simp [ha] at h
  | ok r =>
    rw [ha] at h
    obtain rfl := List.mem_singleton.mp h
    exact ⟨rfl, rfl⟩

theorem history_cons_of_commits {c : Commit S A O} (hc : M.Commits c) (as : List A) :
    M.history c.before (c.action :: as) = c :: M.history c.after as := by
  have ha : M.apply c.action c.before = .ok (c.after, c.out) := hc
  simp only [history, ha]

theorem run_snoc_ok {s s' : S} {as : List A} {a : A} {o : List O}
    (h : M.apply a (M.run s as) = .ok (s', o)) : M.run s (as ++ [a]) = s' := by
  rw [run_append]
  simp [run, h]

theorem history_snoc_ok {s s' : S} {as : List A} {a : A} {o : List O}
    (h : M.apply a (M.run s as) = .ok (s', o)) :
    M.history s (as ++ [a]) = M.history s as ++ [⟨M.run s as, a, s', o⟩] := by
  rw [history_append]
  simp [history, h]

theorem run_skip {s : S} {as : List A} {a : A} {e : E} (h : M.apply a (M.run s as) = .error e)
    (bs : List A) : M.run s (as ++ a :: bs) = M.run s (as ++ bs) := by
  rw [run_append, run_append]
  simp only [run, h]

theorem run_induction {P : List (Commit S A O) → S → Prop} {s : S} (base : P [] s)
    (step : ∀ h c, P h c.before → M.Commits c → P (h ++ [c]) c.after) (as : List A) :
    P (M.history s as) (M.run s as) := by
  induction as using List.reverseRecOn with
  | nil => exact base
  | append_singleton as a ih =>
    cases ha : M.apply a (M.run s as) with
    | error e =>
      rw [history_append, run_append]
      simpa [history, run, ha] using ih
    | ok r =>
      rw [M.history_snoc_ok (o := r.2) ha, M.run_snoc_ok (o := r.2) ha]
      exact step _ ⟨_, a, r.1, r.2⟩ ih ha

theorem invariant_run {I : S → Prop} {s : S} (base : I s)
    (step : ∀ c, I c.before → M.Commits c → I c.after) (as : List A) : I (M.run s as) :=
  M.run_induction (P := fun _ t => I t) base (fun _ c hi hc => step c hi hc) as

theorem invariant_before {I : S → Prop} {s : S} (base : I s)
    (step : ∀ c, I c.before → M.Commits c → I c.after) {as : List A} {c : Commit S A O}
    (hc : c ∈ M.history s as) : I c.before := by
  obtain ⟨pre, post, h⟩ := List.append_of_mem hc
  obtain ⟨bs, cs, -, -, hr, -⟩ := M.history_split h
  exact hr ▸ M.invariant_run base step bs

@[simp] theorem emitted_append (h k : List (Commit S A O)) :
    emitted (h ++ k) = emitted h ++ emitted k := by
  simp [emitted]

@[simp] theorem emitted_singleton (c : Commit S A O) : emitted [c] = c.out := by
  simp [emitted]

theorem mem_emitted {h : List (Commit S A O)} {o : O} :
    o ∈ emitted h ↔ ∃ c ∈ h, o ∈ c.out := by
  simp [emitted]

def Yields (s : S) (as : List A) (t : S) (out : List O) : Prop :=
  M.run s as = t ∧ emitted (M.history s as) = out

variable {M} {s t u : S} {a : A} {as bs : List A} {out out' : List O}

theorem yields_ok (h : M.apply a s = .ok (t, out)) : M.Yields s [a] t out := by
  constructor
  · simp only [run, h]
  · simp only [history, h, emitted_singleton]

theorem yields_error {e : E} (h : M.apply a s = .error e) : M.Yields s [a] s [] := by
  constructor
  · simp only [run, h]
  · simp only [history, h]
    rfl

theorem Yields.append (first : M.Yields s as t out) (second : M.Yields t bs u out') :
    M.Yields s (as ++ bs) u (out ++ out') := by
  obtain ⟨hrun, hout⟩ := first
  constructor
  · rw [run_append, hrun]
    exact second.1
  · rw [history_append, emitted_append, hrun, hout]
    exact congrArg (out ++ ·) second.2

theorem Yields.mem_history (first : M.Yields s as t out) (h : M.apply a t = .ok (u, out')) :
    ⟨t, a, u, out'⟩ ∈ M.history s (as ++ [a]) := by
  rw [← first.1]
  have hlast : M.apply a (M.run s as) = .ok (u, out') := first.1.symm ▸ h
  rw [M.history_snoc_ok hlast]
  exact List.mem_append_right _ (List.mem_singleton_self _)

end Machine
