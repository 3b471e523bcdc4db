import CrossChainPingPong.Table.Rules

namespace CrossChainPingPong

namespace Ball
variable {G : Type}

def low (b : Ball G) : Bool := decide (b.dst = .evm ∧ b.rally + 1 < rallyCap)

@[simp] theorem low_svm (k : G) (v r : Nat) : low ⟨.svm, k, v, r⟩ = false := rfl

theorem low_of_lt (k : G) (v : Nat) {r : Nat} (h : r + 1 < rallyCap) :
    low ⟨.evm, k, v, r⟩ = true := by
  simp [low, h]

theorem low_of_le (k : G) (v : Nat) {r : Nat} (h : rallyCap ≤ r + 1) :
    low ⟨.evm, k, v, r⟩ = false := by
  simp [low, Nat.not_lt.mpr h]

end Ball

namespace Table
variable {G : Type}

structure Tally where
  bySvm : Nat
  low : Nat
  byEvm : Nat
  serves : Nat

def tally (h : History G) : Tally where
  bySvm := (Machine.emitted h).countP Ball.toEvm
  low := (Machine.emitted h).countP Ball.low
  byEvm := (Machine.emitted h).countP Ball.toSvm
  serves := h.countP fun c => c.action.isServe

def Tally.after (n : Tally) (c : Commit (Table G) Move (Ball G)) : Tally where
  bySvm := n.bySvm + c.out.countP Ball.toEvm
  low := n.low + c.out.countP Ball.low
  byEvm := n.byEvm + c.out.countP Ball.toSvm
  serves := n.serves + c.action.isServe.toNat

theorem tally_snoc (h : History G) (c : Commit (Table G) Move (Ball G)) :
    tally (h ++ [c]) = (tally h).after c := by
  cases hc : c.action.isServe <;> simp [tally, Tally.after, hc]

def holdsLow (svmHolds : Bool) (svmRally : Nat) : Nat :=
  (svmHolds && decide (svmRally + 1 < rallyCap)).toNat

structure Bounded (n : Tally) (t : Table G) : Prop where
  cap : t.cap ≤ rallyCap
  holds : t.svmHolds = true → t.svmRally < rallyCap
  bySvm : n.bySvm + t.svmHolds.toNat ≤ min t.svmRally 99
  low : n.low + holdsLow t.svmHolds t.svmRally ≤ min t.svmRally 98
  byEvm : n.byEvm + t.flying.countP Ball.low ≤ n.serves + n.low

theorem bounded_start : Bounded ⟨0, 0, 0, 0⟩ (start : Table G) where
  cap := Nat.zero_le _
  holds := nofun
  bySvm := Nat.le_refl 0
  low := Nat.le_refl 0
  byEvm := Nat.le_refl 0

theorem limit_le {t : Table G} (hcap : t.cap ≤ rallyCap) : t.limit ≤ rallyCap := by
  unfold limit
  split
  · exact hcap
  · exact Nat.le_refl rallyCap

theorem holdsLow_of_lt {r : Nat} (h : r + 1 < rallyCap) : holdsLow true r = 1 := by
  simp [holdsLow, h]

theorem holdsLow_of_le (b : Bool) {r : Nat} (h : rallyCap ≤ r + 1) : holdsLow b r = 0 := by
  simp [holdsLow, Nat.not_lt.mpr h]

@[simp] theorem holdsLow_false (r : Nat) : holdsLow false r = 0 := rfl

variable [DecidableEq G] {t t' : Table G} {mv : Move} {out : List (Ball G)} {n : Tally}

theorem bounded_step (hb : Bounded n t) (hs : t.Step mv t' out) :
    Bounded (n.after ⟨t, mv, t', out⟩) t' := by
  obtain ⟨hcap, hholds, hsvm, hlow, hevm⟩ := hb
  have hlim := limit_le hcap
  have hr : rallyCap = 100 := rfl
  cases hs with
  | serve idle pos le =>
    refine ⟨le, hholds, by simpa [Tally.after] using hsvm, by simpa [Tally.after] using hlow, ?_⟩
    simp [Tally.after, Move.isServe]
    omega
  | pause active | idle => exact ⟨hcap, hholds, hsvm, hlow, hevm⟩
  | @sendBall w k ball pos =>
    have hlt := hholds ball
    rw [ball, Bool.toNat_true] at hsvm
    rw [ball] at hlow
    refine ⟨hcap, nofun, by simpa [Tally.after] using hsvm, ?_, ?_⟩
    · rcases Nat.lt_or_ge (t.svmRally + 1) rallyCap with h | h
      · rw [holdsLow_of_lt h] at hlow
        simpa [Tally.after, Ball.low_of_lt k w h] using hlow
      · rw [holdsLow_of_le true h] at hlow
        simpa [Tally.after, Ball.low_of_le k w h] using hlow
    · simp only [Tally.after, Move.isServe, List.countP_append, List.countP_singleton, Ball.toSvm_evm]
      simp
      omega
  | replay here done =>
    have hcount := Pool.countP_erase Ball.low here
    refine ⟨hcap, hholds, hsvm, hlow, ?_⟩
    simp only [Tally.after, Move.isServe, List.countP_nil, Nat.add_zero, Bool.toNat_false]
    omega
  | finish here fresh free last =>
    have hcount := Pool.countP_erase Ball.low here
    refine ⟨hlim, hholds, hsvm, hlow, ?_⟩
    simp only [Tally.after, Move.isServe, List.countP_nil, Nat.add_zero, Bool.toNat_false]
    omega
  | @reply i k j v r here fresh free lt =>
    have hcount := Pool.countP_erase Ball.low here
    rw [Ball.low_of_lt k (v + 1) (Nat.lt_of_lt_of_le lt hlim), Bool.toNat_true] at hcount
    refine ⟨hlim, hholds, by simpa [Tally.after] using hsvm, by simpa [Tally.after] using hlow, ?_⟩
    simp [Tally.after, Move.isServe]
    omega
  | keep here high pos lt =>
    have hcount := Pool.countP_erase Ball.low here
    refine ⟨hcap, fun _ => lt, ?_, ?_, ?_⟩
    · simp only [Tally.after, List.countP_nil, Nat.add_zero, Bool.toNat_true]
      omega
    · rcases Nat.lt_or_ge (t.svmRally + 1 + 1) rallyCap with h | h
      · simp only [Tally.after, List.countP_nil, Nat.add_zero, holdsLow_of_lt h]
        omega
      · simp only [Tally.after, List.countP_nil, Nat.add_zero, holdsLow_of_le true h]
        omega
    · simp only [Tally.after, Move.isServe, List.countP_nil, Nat.add_zero, Bool.toNat_false]
      omega
  | drop here high cap last =>
    have hcount := Pool.countP_erase Ball.low here
    refine ⟨hcap, nofun, ?_, ?_, ?_⟩
    · simp only [Tally.after, List.countP_nil, Nat.add_zero, Bool.toNat_false]
      omega
    · simp only [Tally.after, List.countP_nil, Nat.add_zero, holdsLow_false]
      omega
    · simp only [Tally.after, Move.isServe, List.countP_nil, Nat.add_zero, Bool.toNat_false]
      omega

theorem bounded_trace {h : History G} (trace : Trace Step start h t) :
    Bounded (tally h) t := by
  induction trace with
  | nil => exact bounded_start
  | snoc past step ih =>
    rw [tally_snoc]
    exact bounded_step ih step

end Table
end CrossChainPingPong
