import CrossChainPingPong.Library.Trace
import Mathlib.Data.List.DropRight

namespace Cursor
variable {X : Type} (source : Nat → List X)

def between (a b : Nat) : List X := (List.range' (a + 1) (b - a)).flatMap source

theorem between_self (a : Nat) : between source a a = [] := by
  simp [between]

theorem between_append {a b c : Nat} (hab : a ≤ b) (hbc : b ≤ c) :
    between source a b ++ between source b c = between source a c := by
  have hsplit : List.range' (a + 1) (b - a) ++ List.range' (b + 1) (c - b) =
      List.range' (a + 1) (c - a) := by
    have hb : a + 1 + (b - a) = b + 1 := by omega
    have hc : b - a + (c - b) = c - a := by omega
    rw [← hb, List.range'_append_1, hc]
  rw [between, between, between, ← List.flatMap_append, hsplit]

theorem append_between {f : Nat → List X} (step : ∀ n, f (n + 1) = f n ++ source (n + 1)) {a b : Nat}
    (hab : a ≤ b) : f a ++ between source a b = f b := by
  induction b, hab using Nat.le_induction with
  | base => rw [between_self, List.append_nil]
  | succ b hab ih =>
    have hone : between source b (b + 1) = source (b + 1) := by simp [between]
    rw [← between_append source hab (Nat.le_succ b), hone, ← List.append_assoc, ih, step]

theorem run_between {S A E O : Type} (M : Machine S A E O) (cursor : S → Nat)
    (item : O → Option X) (s : S) {as : List A}
    (step : ∀ c ∈ M.history s as, cursor c.before ≤ cursor c.after ∧
      c.out.filterMap item = between source (cursor c.before) (cursor c.after)) :
    cursor s ≤ cursor (M.run s as) ∧
      (Machine.emitted (M.history s as)).filterMap item =
        between source (cursor s) (cursor (M.run s as)) := by
  refine (M.trace s as).rule (P := fun h t => cursor s ≤ cursor t ∧
      (Machine.emitted h).filterMap item = between source (cursor s) (cursor t))
    (Q := fun c => cursor c.before ≤ cursor c.after ∧
      c.out.filterMap item = between source (cursor c.before) (cursor c.after)) ?_ ?_ step
  · exact ⟨Nat.le_refl _, (between_self source _).symm⟩
  · rintro h c ⟨hle, ih⟩ - ⟨hstep, hout⟩
    refine ⟨hle.trans hstep, ?_⟩
    rw [Machine.emitted_append, Machine.emitted_singleton, List.filterMap_append, ih, hout,
      between_append source hle hstep]

def streak {α : Type} (fails : α → Bool) (as : List α) : Nat := (as.rtakeWhile fails).length

theorem streak_concat {α : Type} (fails : α → Bool) (as : List α) (a : α) :
    streak fails (as ++ [a]) = if fails a = true then streak fails as + 1 else 0 := by
  unfold streak
  by_cases h : fails a = true
  · rw [List.rtakeWhile_concat_pos _ _ _ h, if_pos h, List.length_append, List.length_singleton]
  · rw [List.rtakeWhile_concat_neg _ _ _ h, if_neg h, List.length_nil]

end Cursor
