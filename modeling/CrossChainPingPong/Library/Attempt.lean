import CrossChainPingPong.Library.Machine

structure Attempt (S A O : Type) where
  past : List (Commit S A O)
  before : S
  action : A

namespace Machine
variable {S A E O : Type} (M : Machine S A E O)

def attemptsAfter (past : List (Commit S A O)) (s : S) : List A → List (Attempt S A O)
  | [] => []
  | a :: as => ⟨past, s, a⟩ :: match M.apply a s with
      | .ok r => attemptsAfter (past ++ [⟨s, a, r.1, r.2⟩]) r.1 as
      | .error _ => attemptsAfter past s as

def attempts (s : S) (as : List A) : List (Attempt S A O) := M.attemptsAfter [] s as

def result (t : Attempt S A O) : A × Except E (S × List O) := (t.action, M.apply t.action t.before)

def kept (drop : List (Commit S A O) → A → Bool) (s : S) (as : List A) : List (Attempt S A O) :=
  (M.attempts s as).filter fun t => !drop t.past t.action

def pruned (drop : List (Commit S A O) → A → Bool) (s : S) (as : List A) : List A :=
  (M.kept drop s as).map Attempt.action

theorem attemptsAfter_append (past : List (Commit S A O)) (s : S) (as bs : List A) :
    M.attemptsAfter past s (as ++ bs) = M.attemptsAfter past s as ++
      M.attemptsAfter (past ++ M.history s as) (M.run s as) bs := by
  induction as generalizing past s with
  | nil => simp [attemptsAfter, history, run]
  | cons a as ih =>
    simp only [List.cons_append, attemptsAfter, history, run]
    cases M.apply a s <;> simp [ih]

theorem attempts_snoc (s : S) (as : List A) (a : A) :
    M.attempts s (as ++ [a]) = M.attempts s as ++ [⟨M.history s as, M.run s as, a⟩] := by
  rw [attempts, attemptsAfter_append, List.nil_append, attempts]
  simp only [attemptsAfter]
  cases M.apply a (M.run s as) <;> rfl

variable {M} {s : S} {a : A}

theorem idle_singleton (idle : ∀ t out, M.apply a s = .ok (t, out) → t = s ∧ out = []) :
    M.run s [a] = s ∧ emitted (M.history s [a]) = [] := by
  simp only [run, history]
  cases ha : M.apply a s with
  | error e => exact ⟨rfl, rfl⟩
  | ok r =>
    obtain ⟨ht, hout⟩ := idle r.1 r.2 ha
    exact ⟨ht, (emitted_singleton _).trans hout⟩

theorem pruned_same {drop : List (Commit S A O) → A → Bool} {allowed : A → Prop}
    (idle : ∀ bs a, allowed a → drop (M.history s bs) a = true →
      ∀ t out, M.apply a (M.run s bs) = .ok (t, out) → t = M.run s bs ∧ out = [])
    (as : List A) (hall : ∀ a ∈ as, allowed a) :
    M.run s (M.pruned drop s as) = M.run s as ∧
      emitted (M.history s (M.pruned drop s as)) = emitted (M.history s as) ∧
      (M.attempts s (M.pruned drop s as)).map M.result = (M.kept drop s as).map M.result := by
  induction as using List.reverseRecOn with
  | nil => exact ⟨rfl, rfl, rfl⟩
  | append_singleton as a ih =>
    obtain ⟨hbefore, hlast⟩ := List.forall_mem_append.mp hall
    obtain ⟨hrun, hout, hresults⟩ := ih hbefore
    have hkept : M.kept drop s (as ++ [a]) = M.kept drop s as ++
        [⟨M.history s as, M.run s as, a⟩].filter fun t => !drop t.past t.action := by
      rw [kept, attempts_snoc, List.filter_append, kept]
    cases hdrop : drop (M.history s as) a with
    | true =>
      have hsame : M.kept drop s (as ++ [a]) = M.kept drop s as := by simp [hkept, hdrop]
      have ha := idle as a (hlast a (List.mem_singleton_self a)) hdrop
      obtain ⟨hstay, hnone⟩ := idle_singleton ha
      rw [pruned, hsame, ← pruned, run_append, history_append, emitted_append, hstay, hnone,
        List.append_nil]
      exact ⟨hrun, hout, hresults⟩
    | false =>
      have hmore : M.kept drop s (as ++ [a]) =
          M.kept drop s as ++ [⟨M.history s as, M.run s as, a⟩] := by simp [hkept, hdrop]
      have hpruned : M.pruned drop s (as ++ [a]) = M.pruned drop s as ++ [a] := by
        rw [pruned, hmore, List.map_append, ← pruned, List.map_singleton]
      have hresult : M.result (⟨M.history s (M.pruned drop s as), M.run s as, a⟩ : Attempt S A O) =
          M.result ⟨M.history s as, M.run s as, a⟩ := rfl
      rw [hpruned, hmore, run_append, run_append, history_append, history_append, emitted_append,
        emitted_append, attempts_snoc, List.map_append, List.map_append, List.map_singleton,
        List.map_singleton, hrun, hout, hresults, hresult]
      exact ⟨rfl, rfl, rfl⟩

end Machine
