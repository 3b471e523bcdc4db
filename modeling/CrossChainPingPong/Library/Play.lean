import Mathlib.Logic.Basic

inductive Play {S O : Type} (next : S → Option (S × List O)) : S → List O → S → Prop
  | refl (s : S) : Play next s [] s
  | step {s t u : S} {o out : List O} (move : next s = some (t, o)) (rest : Play next t out u) :
      Play next s (o ++ out) u

namespace Play
variable {S O : Type} {next : S → Option (S × List O)} {s t u : S} {o out : List O}

theorem snoc (play : Play next s out t) (move : next t = some (u, o)) :
    Play next s (out ++ o) u := by
  induction play with
  | refl s =>
    rw [List.nil_append, ← List.append_nil o]
    exact .step move (.refl u)
  | step first rest ih =>
    rw [List.append_assoc]
    exact .step first (ih move)

theorem of_next (play : Play next s out u) (stuck : next u = none) (move : next s = some (t, o)) :
    ∃ rest, out = o ++ rest ∧ Play next t rest u := by
  cases play with
  | refl =>
    rw [stuck] at move
    cases move
  | step first rest =>
    obtain ⟨rfl, rfl⟩ := Prod.mk.inj (Option.some.inj (first.symm.trans move))
    exact ⟨_, rfl, rest⟩

theorem of_stuck (play : Play next s out t) (stuck : next s = none) : out = [] ∧ t = s := by
  cases play with
  | refl => exact ⟨rfl, rfl⟩
  | step first rest =>
    rw [stuck] at first
    cases first

theorem unique {t' : S} {out' : List O} (play : Play next s out t) (stuck : next t = none)
    (play' : Play next s out' t') (stuck' : next t' = none) : out = out' ∧ t = t' := by
  induction play generalizing out' with
  | refl s =>
    obtain ⟨rfl, rfl⟩ := play'.of_stuck stuck
    exact ⟨rfl, rfl⟩
  | step first rest ih =>
    obtain ⟨rest', rfl, hrest⟩ := play'.of_next stuck' first
    obtain ⟨rfl, rfl⟩ := ih stuck hrest
    exact ⟨rfl, rfl⟩

end Play
