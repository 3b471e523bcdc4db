import CrossChainPingPong.Table.Rules

namespace CrossChainPingPong

def Move.plays : Move → Bool
  | .sendBall _ | .receiveEvm _ | .receiveSvm _ => true
  | .serve _ | .pause | .idle => false

namespace Table
variable {G : Type}

def playLeft (t : Table G) : Nat :=
  3 * (rallyCap - t.svmRally) + (if t.svmHolds = true then 2 else 0) + t.flying.countP Ball.toEvm

def Refused (t : Table G) (b : Ball G) : Prop :=
  match b.dst with
  | .evm => t.evmHolds = true ∧ t.seen b.guid = false
  | .svm => b.value = 0 ∨ fullBall < b.value ∨ rallyCap ≤ t.svmRally

structure Standstill (t : Table G) : Prop where
  away : t.svmHolds = false
  refused : ∀ b ∈ t.flying, t.Refused b

variable [DecidableEq G] {t t' : Table G} {mv : Move} {out : List (Ball G)}

theorem held_positive {h : History G} (trace : Trace Step start h t) (held : t.svmHolds = true) :
    0 < t.svmValue := by
  refine trace.rule (P := fun _ t => t.svmHolds = true → 0 < t.svmValue) (Q := fun _ => True) ?_ ?_
    (fun _ _ => trivial) held
  · rintro ⟨⟩
  · rintro h ⟨u, mv, u', out⟩ ih hs - hheld
    dsimp only at ih hs hheld
    cases hs with
    | serve | pause | idle | replay | finish | reply => exact ih hheld
    | sendBall | drop => cases hheld
    | keep here high pos => exact pos

theorem playLeft_step (hs : t.Step mv t' out) :
    t'.playLeft + (if mv.plays = true then 1 else 0) ≤ t.playLeft := by
  cases hs with
  | serve => simp [playLeft, Move.plays]
  | pause | idle => exact Nat.le_refl _
  | sendBall ball =>
    simp only [playLeft, Move.plays, ball, List.countP_append, List.countP_singleton, Ball.toEvm_evm,
      if_true, Bool.false_eq_true, if_false]
    omega
  | replay here | finish here | reply here =>
    have hfly := Pool.countP_erase Ball.toEvm here
    rw [Ball.toEvm_evm, Bool.toNat_true] at hfly
    simp only [playLeft, Move.plays, List.countP_append, List.countP_singleton, Ball.toEvm_svm, if_true,
      Bool.false_eq_true, if_false]
    omega
  | keep here high pos lt =>
    have hfly := Pool.countP_erase Ball.toEvm here
    rw [Ball.toEvm_svm, Bool.toNat_false] at hfly
    simp only [playLeft, Move.plays, if_true]
    omega
  | drop here high cap =>
    have hfly := Pool.countP_erase Ball.toEvm here
    rw [Ball.toEvm_svm, Bool.toNat_false] at hfly
    simp only [playLeft, Move.plays, if_true, Bool.false_eq_true, if_false]
    omega

theorem Standstill.step (still : t.Standstill) (hs : t.Step mv t' out)
    (noServe : mv.isServe = false) : t'.Standstill ∧ mv.plays = false ∧ out = [] ∧
      t'.flying = t.flying := by
  obtain ⟨haway, hrefused⟩ := still
  cases hs with
  | serve => cases noServe
  | pause | idle => exact ⟨⟨haway, hrefused⟩, rfl, rfl, rfl⟩
  | sendBall ball => cases ball.symm.trans haway
  | replay here done =>
    have hb := (hrefused _ (List.mem_of_getElem? here)).2
    cases done.symm.trans hb
  | finish here fresh free | reply here fresh free =>
    have hb := (hrefused _ (List.mem_of_getElem? here)).1
    cases free.symm.trans hb
  | keep here high pos lt =>
    rcases hrefused _ (List.mem_of_getElem? here) with hzero | hhigh | hcap
    · cases hzero
    · exact absurd high (Nat.not_le.mpr hhigh)
    · omega
  | drop here high cap last =>
    rcases hrefused _ (List.mem_of_getElem? here) with hzero | hhigh | hcap
    · cases hzero
    · exact absurd high (Nat.not_le.mpr hhigh)
    · exact absurd cap (Nat.not_lt.mpr hcap)

end Table
end CrossChainPingPong
