import CrossChainPingPong.Library.Guard
import CrossChainPingPong.Library.Machine

namespace Machine
open Guard

variable {S A E O : Type} (M : Machine S A E O) {I : S → Prop} {potential : S → Nat}

theorem counted_le_potential {counted : Commit S A O → Bool} {s : S} (base : I s)
    (inv : ∀ c, I c.before → M.Commits c → I c.after)
    (spends : ∀ c, I c.before → M.Commits c →
      potential c.after + (if counted c = true then 1 else 0) ≤ potential c.before) (as : List A) :
    potential (M.run s as) + (M.history s as).countP counted ≤ potential s := by
  refine (M.run_induction (P := fun h t => I t ∧ potential t + h.countP counted ≤ potential s)
    ⟨base, Nat.le_refl _⟩ ?_ as).2
  rintro h c ⟨hi, ih⟩ hc
  refine ⟨inv c hi hc, ?_⟩
  have hstep := spends c hi hc
  rw [List.countP_append, List.countP_singleton]
  omega

structure Exhausted (goesOn : A → S → Prop) (s : S) (as : List A) : Prop where
  steps : ∀ c ∈ M.history s as, goesOn c.action c.before
  length : (M.history s as).length = as.length
  rest : ∀ a, goesOn a (M.run s as) → ¬ Succeeds (M.apply a (M.run s as))

theorem exists_exhausted (goesOn : A → S → Prop)
    (inv : ∀ c, I c.before → M.Commits c → I c.after)
    (decreases : ∀ c, I c.before → M.Commits c → goesOn c.action c.before →
      potential c.after < potential c.before) (s : S) (base : I s) :
    ∃ as, as.length ≤ potential s ∧ M.Exhausted goesOn s as := by
  induction hn : potential s using Nat.strongRecOn generalizing s with
  | _ n ih =>
    by_cases hmove : ∃ a, goesOn a s ∧ Succeeds (M.apply a s)
    · obtain ⟨a, hgo, ⟨t, out⟩, ha⟩ := hmove
      have hlt : potential t < potential s := decreases ⟨s, a, t, out⟩ base ha hgo
      obtain ⟨as, hlength, hsteps, hall, hrest⟩ :=
        ih (potential t) (hn ▸ hlt) t (inv ⟨s, a, t, out⟩ base ha) rfl
      have hhistory : M.history s (a :: as) = ⟨s, a, t, out⟩ :: M.history t as := by
        simp only [history, ha]
      have hrun : M.run s (a :: as) = M.run t as := by simp only [run, ha]
      refine ⟨a :: as, ?_, ?_, ?_, ?_⟩
      · rw [List.length_cons]
        omega
      · rw [hhistory]
        exact List.forall_mem_cons.mpr ⟨hgo, hsteps⟩
      · rw [hhistory, List.length_cons, List.length_cons, hall]
      · rw [hrun]
        exact hrest
    · refine ⟨[], Nat.zero_le _, List.forall_mem_nil _, rfl, ?_⟩
      exact fun a hgo hok => hmove ⟨a, hgo, hok⟩

end Machine
