import CrossChainPingPong.Table.Rules

namespace CrossChainPingPong.Table
variable {G : Type}

def inPlay (t : Table G) : Nat := t.flying.length + t.svmHolds.toNat

def balls (t : Table G) : Nat := t.inPlay + t.evmHolds.toNat

def abandons (c : Commit (Table G) Move (Ball G)) : Bool :=
  c.action.isPause && decide (0 < c.before.inPlay)

def abandoned (h : History G) : Nat := h.countP abandons

-- an active EVM game answers for one ball in play, and every pause leaves at most one more behind
structure Conserved (n : Nat) (t : Table G) : Prop where
  share : t.inPlay ≤ n + t.active.toNat
  free : t.active = true → t.evmHolds = false

theorem Conserved.balls_le {n : Nat} {t : Table G} (hc : Conserved n t) : t.balls ≤ n + 1 := by
  have hs := hc.share
  unfold balls
  cases ha : t.active with
  | true =>
    rw [hc.free ha]
    rw [ha] at hs
    exact hs
  | false =>
    rw [ha, Bool.toNat_false] at hs
    have hb := Bool.toNat_le t.evmHolds
    omega

theorem conserved_start : Conserved 0 (start : Table G) := ⟨Nat.le_refl 0, nofun⟩

theorem conserved_of_quiet {t : Table G} (idle : t.active = false) (quiet : t.inPlay = 0) :
    Conserved 0 t := by
  refine ⟨?_, fun hact => ?_⟩
  · rw [quiet]
    exact Nat.zero_le _
  · rw [idle] at hact
    cases hact

variable [DecidableEq G] {t t' : Table G} {mv : Move} {out : List (Ball G)}

theorem serve_accepted {m : Nat} (hs : t.Step (.serve m) t' out) :
    t.active = false ∧ 0 < m ∧ m ≤ rallyCap := by
  cases hs with
  | serve idle pos le => exact ⟨idle, pos, le⟩

theorem conserved_step {n : Nat} (hc : Conserved n t) (hs : t.Step mv t' out) :
    Conserved (n + (if abandons ⟨t, mv, t', out⟩ then 1 else 0)) t' := by
  have hin : t.flying.length + t.svmHolds.toNat ≤ n + t.active.toNat := hc.share
  have ha := Bool.toNat_le t.active
  have hb := Bool.toNat_le t.svmHolds
  cases hs with
  | serve idle pos le =>
    rw [idle, Bool.toNat_false] at hin
    refine ⟨?_, fun _ => rfl⟩
    simp only [inPlay, List.length_append, List.length_singleton, Bool.toNat_true]
    omega
  | pause active =>
    refine ⟨?_, nofun⟩
    have hsame : inPlay { t with active := false } = t.inPlay := rfl
    by_cases hz : 0 < t.inPlay
    · have hab : abandons ⟨t, .pause, { t with active := false }, []⟩ = true := decide_eq_true hz
      have hle := hc.share
      rw [hab, if_pos rfl, hsame, Bool.toNat_false]
      omega
    · omega
  | idle => exact hc
  | sendBall ball pos =>
    rw [ball, Bool.toNat_true] at hin
    refine ⟨?_, hc.free⟩
    simp only [inPlay, List.length_append, List.length_singleton, Bool.toNat_false]
    omega
  | replay here done =>
    have hlen := Pool.length_erase here
    refine ⟨?_, hc.free⟩
    simp only [inPlay]
    omega
  | finish here fresh free last =>
    have hlen := Pool.length_erase here
    refine ⟨?_, nofun⟩
    simp only [inPlay, Bool.toNat_false]
    omega
  | reply here fresh free lt =>
    have hlen := Pool.length_erase here
    refine ⟨?_, fun _ => rfl⟩
    simp only [inPlay, List.length_append, List.length_singleton, Bool.toNat_true]
    omega
  | keep here high pos lt =>
    have hlen := Pool.length_erase here
    refine ⟨?_, hc.free⟩
    simp only [inPlay, Bool.toNat_true]
    omega
  | drop here high cap last =>
    have hlen := Pool.length_erase here
    refine ⟨?_, hc.free⟩
    simp only [inPlay, Bool.toNat_false]
    omega

theorem conserved_trace {s : Table G} {h : History G}
    (trace : Trace Step s h t) (start : Conserved 0 s) : Conserved (abandoned h) t := by
  induction trace with
  | nil => exact start
  | snoc past step ih =>
    rw [abandoned, List.countP_append, List.countP_singleton]
    exact conserved_step ih step

end CrossChainPingPong.Table
