import CrossChainPingPong.Rally.Rules

namespace CrossChainPingPong.Rally
open Machine

abbrev History := List (Commit Rally Move (Nat × Nat))

def serves (h : History) : Nat := h.countP fun c => c.action.isServe

def Agrees (c : Commit Rally Move (Nat × Nat)) : Prop :=
  match c.action with
  | .receiveEvm _ => ∀ v r, c.before.place = .toEvm v r → c.after.evmRally = r + 1
  | .receiveSvm _ => ∀ v r, c.before.place = .toSvm v r → c.after.svmRally = r + 1
  | _ => True

def FirstReceive (c : Commit Rally Move (Nat × Nat)) : Prop :=
  ∀ i, c.action = .receiveSvm i → c.before.svmRally = 0

def Numbered (out : List (Nat × Nat)) : Prop := out.map Prod.snd = List.range out.length

-- in a first game, every message that follows an EVM receive is numbered one ahead of the receives
-- that Solana has counted
def Counted (g : Rally) : Prop :=
  match g.place with
  | .toSvm _ r => r = if g.svmRally = 0 then 0 else g.svmRally + 1
  | .held _ => 0 < g.svmRally
  | .toEvm _ r => r = g.svmRally ∧ 0 < g.svmRally
  | .parked | .dead => True

def InStep (n : Nat) (g : Rally) : Prop :=
  match g.place with
  | .toSvm _ r => n = r + 1
  | .held _ => n = g.svmRally
  | .toEvm _ r => n = r + 1
  | .parked | .dead => True

theorem numbered_snoc {out : List (Nat × Nat)} {v r : Nat} (hn : Numbered out)
    (hr : out.length = r) : Numbered (out ++ [(v, r)]) := by
  unfold Numbered at *
  rw [List.map_append, hn, List.length_append, List.length_singleton, List.range_succ, hr]
  rfl

variable {g g' : Rally} {mv : Move} {out : List (Nat × Nat)} {n : Nat}

theorem counted_step (hc : Counted g) (hs : g.Step mv g' out)
    (first : mv.isServe = true → g.svmRally = 0) : Counted g' := by
  cases hs with
  | serve here pos le => exact (if_pos (first rfl)).symm
  | idle => exact hc
  | sendBall here pos =>
    rw [Counted, here] at hc
    exact ⟨rfl, hc⟩
  | finish => trivial
  | reply here lt =>
    rw [Counted, here] at hc
    obtain ⟨rfl, hpos⟩ := hc
    exact (if_neg (Nat.ne_of_gt hpos)).symm
  | keep => exact Nat.succ_pos _
  | drop => trivial

theorem inStep_step (hc : Counted g) (hi : InStep n g) (hs : g.Step mv g' out)
    (first : mv.isServe = true → n = 0) (firstReceive : FirstReceive ⟨g, mv, g', out⟩) :
    InStep (n + out.length) g' := by
  cases hs with
  | serve here pos le =>
    rw [first rfl]
    rfl
  | idle => exact hi
  | sendBall here pos =>
    rw [InStep, here] at hi
    exact congrArg (· + 1) hi
  | finish => trivial
  | reply here lt =>
    rw [InStep, here] at hi
    exact congrArg (· + 1) hi
  | @keep i v r here high pos lt =>
    have hzero : g.svmRally = 0 := firstReceive i rfl
    rw [Counted, here] at hc
    rw [InStep, here] at hi
    simp only [hzero, if_true] at hc
    simp only [InStep, List.length_nil]
    omega
  | drop => trivial

theorem sent_number (hi : InStep n g) (hs : g.Step mv g' out)
    (first : mv.isServe = true → n = 0) : out = [] ∨ ∃ v, out = [(v, n)] := by
  cases hs with
  | serve here pos le => exact .inr ⟨_, by rw [first rfl]⟩
  | idle | finish | keep | drop => exact .inl rfl
  | sendBall here pos =>
    rw [InStep, here] at hi
    exact .inr ⟨_, by rw [hi]⟩
  | reply here lt =>
    rw [InStep, here] at hi
    exact .inr ⟨_, by rw [hi]⟩

theorem agrees_iff (hc : Counted g) (hs : g.Step mv g' out) :
    Agrees ⟨g, mv, g', out⟩ ↔ FirstReceive ⟨g, mv, g', out⟩ := by
  cases hs with
  | serve | idle | sendBall => exact ⟨nofun, fun _ => trivial⟩
  | finish here | reply here =>
    refine ⟨nofun, fun _ v r hp => ?_⟩
    cases here.symm.trans hp
    rfl
  | @keep i v r here | @drop i v r here =>
    rw [Counted, here] at hc
    dsimp only at hc
    constructor
    · intro ha j _
      by_contra hne
      have hr : g.svmRally + 1 = r + 1 := ha _ _ here
      rw [if_neg hne] at hc
      omega
    · intro hf v' r' hp
      cases here.symm.trans hp
      have hz : g.svmRally = 0 := hf i rfl
      rw [if_pos hz] at hc
      simp only
      omega

structure Served (h : History) (g : Rally) : Prop where
  counted : Counted g
  unserved : serves h = 0 → g.place = .parked ∧ emitted h = [] ∧ g.svmRally = 0

theorem served_start : Served [] start := ⟨trivial, fun _ => ⟨rfl, rfl, rfl⟩⟩

theorem served_step {h : History} (hv : Served h g) (hs : g.Step mv g' out)
    (single : serves (h ++ [⟨g, mv, g', out⟩]) ≤ 1) : Served (h ++ [⟨g, mv, g', out⟩]) g' := by
  rw [serves, List.countP_append, List.countP_singleton] at single
  have hfirst : mv.isServe = true → serves h = 0 := by
    intro hm
    simp only [hm, if_true] at single
    exact Nat.le_zero.mp (Nat.le_of_succ_le_succ single)
  refine ⟨counted_step hv.counted hs fun hm => (hv.unserved (hfirst hm)).2.2, fun hz => ?_⟩
  rw [serves, List.countP_append, List.countP_singleton] at hz
  obtain ⟨hplace, hout, hzero⟩ := hv.unserved (Nat.eq_zero_of_add_eq_zero_right hz)
  rw [emitted_append, emitted_singleton, hout]
  cases hs with
  | idle => exact ⟨hplace, rfl, hzero⟩
  | serve => simp [Move.isServe] at hz
  | sendBall here | finish here | reply here | keep here | drop here =>
    rw [hplace] at here
    cases here

theorem serves_le_append (h k : History) : serves h ≤ serves (h ++ k) := by
  rw [serves, serves, List.countP_append]
  exact Nat.le_add_right _ _

theorem served_trace {h : History} (trace : Trace Step start h g) (single : serves h ≤ 1) :
    Served h g := by
  induction trace with
  | nil => exact served_start
  | snoc past step ih => exact served_step (ih (Nat.le_trans (serves_le_append _ _) single)) step single

theorem inStep_trace {h : History} (trace : Trace Step start h g) (single : serves h ≤ 1)
    (firstReceive : ∀ c ∈ h, FirstReceive c) :
    Numbered (emitted h) ∧ InStep (emitted h).length g := by
  induction trace with
  | nil => exact ⟨rfl, trivial⟩
  | @snoc h g mv g' out past step ih =>
    have hle : serves h ≤ 1 := Nat.le_trans (serves_le_append _ _) single
    have hv := served_trace past hle
    obtain ⟨hn, hi⟩ := ih hle fun c hc => firstReceive c (List.mem_append_left _ hc)
    have hfr := firstReceive _ (List.mem_append_right _ (List.mem_singleton_self _))
    have hfirst : mv.isServe = true → (emitted h).length = 0 := by
      intro hm
      rw [serves, List.countP_append, List.countP_singleton] at single
      simp only [hm, if_true] at single
      have hz : serves h = 0 := Nat.le_zero.mp (Nat.le_of_succ_le_succ single)
      rw [(hv.unserved hz).2.1]
      rfl
    rw [emitted_append, emitted_singleton, List.length_append]
    refine ⟨?_, inStep_step hv.counted hi step hfirst hfr⟩
    rcases sent_number hi step hfirst with rfl | ⟨v, rfl⟩
    · rw [List.append_nil]
      exact hn
    · exact numbered_snoc hn rfl

theorem counts_iff {h : History} (trace : Trace Step start h g) (single : serves h ≤ 1) :
    (Numbered (emitted h) ∧ ∀ c ∈ h, Agrees c) ↔ ∀ c ∈ h, FirstReceive c := by
  have hagrees : ∀ c ∈ h, Agrees c ↔ FirstReceive c := by
    intro c hc
    obtain ⟨pre, post, rfl⟩ := List.append_of_mem hc
    obtain ⟨hpre, hstep, -⟩ := trace.split
    exact agrees_iff (served_trace hpre (Nat.le_trans (serves_le_append _ _) single)).counted hstep
  constructor
  · rintro ⟨-, ha⟩ c hc
    exact (hagrees c hc).mp (ha c hc)
  · intro hf
    exact ⟨(inStep_trace trace single hf).1, fun c hc => (hagrees c hc).mpr (hf c hc)⟩

end CrossChainPingPong.Rally
