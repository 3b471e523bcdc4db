import CrossChainPingPong.Rally.Play

namespace CrossChainPingPong.Rally

def deliveries (h : History) : Nat := h.countP fun c => c.action.isReceive

def Course (m c₀ n : Nat) (g : Rally) : Prop :=
  g.cap = m ∧ match g.place with
  | .toSvm _ r => n + 2 * c₀ = 2 * g.svmRally ∧ g.evmRally = r ∧
      (g.svmRally = c₀ ∧ r = 0 ∨ c₀ < g.svmRally ∧ r = g.svmRally + 1 ∧ r < m)
  | .held _ => n + 1 + 2 * c₀ = 2 * g.svmRally ∧ g.svmRally < rallyCap ∧
      (g.svmRally = c₀ + 1 ∧ g.evmRally = 0 ∨
        c₀ + 1 < g.svmRally ∧ g.evmRally = g.svmRally ∧ g.svmRally < m)
  | .toEvm _ r => r = g.svmRally ∧ n + 1 + 2 * c₀ = 2 * g.svmRally ∧ g.svmRally < rallyCap ∧
      (g.svmRally = c₀ + 1 ∧ g.evmRally = 0 ∨
        c₀ + 1 < g.svmRally ∧ g.evmRally = g.svmRally ∧ g.svmRally < m)
  | .parked => n + 2 * c₀ = 2 * g.svmRally ∧ g.svmRally < rallyCap ∧
      g.evmRally = g.svmRally + 1 ∧
      (g.svmRally = c₀ + 1 ∨ c₀ + 1 < g.svmRally ∧ g.svmRally < m)
  | .dead => n + 1 + 2 * c₀ = 2 * g.svmRally ∧ g.svmRally ≤ rallyCap ∧
      (g.svmRally = c₀ + 1 ∧ g.evmRally = 0 ∨
        c₀ + 1 < g.svmRally ∧ g.evmRally = g.svmRally ∧ g.svmRally < m)

def Full (n : Nat) (g : Rally) : Prop :=
  match g.place with
  | .toSvm v _ | .held v | .toEvm v _ => v + n = fullBall
  | .parked => g.cap ≤ g.svmRally + 1
  | .dead => g.svmRally = rallyCap

def CapFits (m c₀ : Nat) : Prop := rallyCap ≤ c₀ + 1 ∨ c₀ + 2 ≤ m ∧ m ≤ 2 * c₀ + 2

instance (m c₀ : Nat) : Decidable (CapFits m c₀) := inferInstanceAs (Decidable (_ ∨ _))

def Within (m : Nat) (h : History) : Prop := deliveries h ≤ m ∧ ∀ c ∈ h, c.after.evmRally ≤ m

variable {g g' : Rally} {mv : Move} {out : List (Nat × Nat)} {m c₀ n : Nat} {h : History}

theorem course_served (m c₀ : Nat) : Course m c₀ 0 (served m c₀) :=
  ⟨rfl, by simp [served]⟩

theorem full_served (m c₀ : Nat) : Full 0 (served m c₀) := rfl

theorem course_step (hc : Course m c₀ n g) (hs : g.Step mv g' out)
    (noServe : mv.isServe = false) : Course m c₀ (n + mv.isReceive.toNat) g' := by
  cases hs with
  | serve => cases noServe
  | idle => exact hc
  | sendBall here pos =>
    rw [Course, here] at hc
    exact ⟨hc.1, rfl, hc.2⟩
  | finish here last =>
    rw [Course, here] at hc
    obtain ⟨hcap, rfl, hn, hlt, hcase⟩ := hc
    refine ⟨hcap, ?_, hlt, rfl, ?_⟩
    · simp only [Move.isReceive, Bool.toNat_true]
      omega
    · simp only
      omega
  | reply here lt =>
    rw [Course, here] at hc
    obtain ⟨rfl, rfl, hn, hlt, hcase⟩ := hc
    refine ⟨rfl, ?_, rfl, .inr ⟨?_, rfl, lt⟩⟩
    · simp only [Move.isReceive, Bool.toNat_true]
      omega
    · simp only
      omega
  | keep here high pos lt =>
    rw [Course, here] at hc
    obtain ⟨hcap, hn, rfl, hcase⟩ := hc
    refine ⟨hcap, ?_, lt, ?_⟩
    · simp only [Move.isReceive, Bool.toNat_true]
      omega
    · simp only
      omega
  | drop here high cap last =>
    rw [Course, here] at hc
    obtain ⟨hcap, hn, rfl, hcase⟩ := hc
    refine ⟨hcap, ?_, cap, ?_⟩
    · simp only [Move.isReceive, Bool.toNat_true]
      omega
    · simp only
      omega

theorem full_step (hc : Course m c₀ n g) (hf : Full n g) (hs : g.Step mv g' out)
    (noServe : mv.isServe = false) (returns : Returns ⟨g, mv, g', out⟩) :
    Full (n + mv.isReceive.toNat) g' := by
  have hfull : fullBall = 100000000000000000000 := rfl
  have hcap : rallyCap = 100 := rfl
  cases hs with
  | serve => cases noServe
  | idle => exact hf
  | @sendBall v w here pos =>
    cases here.symm.trans (returns w rfl)
    rw [Full, here] at hf
    exact hf
  | finish here last =>
    rw [Course, here] at hc
    rw [Full, here] at hf
    simp only at hc hf
    simp only [Full]
    omega
  | reply here lt =>
    rw [Full, here] at hf
    simp only [Full, Move.isReceive, Bool.toNat_true] at hf ⊢
    omega
  | keep here high pos lt =>
    rw [Full, here] at hf
    simp only [Full, Move.isReceive, Bool.toNat_true] at hf ⊢
    omega
  | drop here high cap last =>
    rw [Course, here] at hc
    rw [Full, here] at hf
    simp only at hc hf
    simp only [Full]
    omega

theorem deliveries_snoc (h : History) (c : Commit Rally Move (Nat × Nat)) :
    deliveries (h ++ [c]) = deliveries h + c.action.isReceive.toNat := by
  cases hr : c.action.isReceive <;> simp [deliveries, hr]

theorem course_trace (trace : Trace Step (served m c₀) h g)
    (noServe : ∀ c ∈ h, c.action.isServe = false) : Course m c₀ (deliveries h) g := by
  refine trace.rule (P := fun h g => Course m c₀ (deliveries h) g) (course_served m c₀) ?_ noServe
  intro h c ih hs hc
  rw [deliveries_snoc]
  exact course_step ih hs hc

theorem full_trace (trace : Trace Step (served m c₀) h g)
    (noServe : ∀ c ∈ h, c.action.isServe = false) (returns : ∀ c ∈ h, Returns c) :
    Full (deliveries h) g := by
  have hmain := trace.rule (P := fun h g => Course m c₀ (deliveries h) g ∧ Full (deliveries h) g)
    (Q := fun c => c.action.isServe = false ∧ Returns c)
    ⟨course_served m c₀, full_served m c₀⟩ ?_ fun c hc => ⟨noServe c hc, returns c hc⟩
  · exact hmain.2
  · rintro h c ⟨hc, hf⟩ hs ⟨hserve, hreturns⟩
    rw [deliveries_snoc]
    exact ⟨course_step hc hs hserve, full_step hc hf hs hserve hreturns⟩

theorem within_of_fits (hc : Course m c₀ n g) (fits : CapFits m c₀) (pos : 0 < m)
    (le : m ≤ rallyCap) : n ≤ m ∧ g.evmRally ≤ m := by
  have hcap : rallyCap = 100 := rfl
  obtain ⟨-, hc⟩ := hc
  unfold CapFits at fits
  cases hplace : g.place <;> rw [hplace] at hc <;> simp only at hc <;> omega

theorem fits_of_within (hc : Course m c₀ n g) (hf : Full n g) (stuck : next g = none)
    (hn : n ≤ m) (he : g.evmRally ≤ m) (le : m ≤ rallyCap) : CapFits m c₀ := by
  have hfull : fullBall = 100000000000000000000 := rfl
  have hcap : rallyCap = 100 := rfl
  obtain ⟨hm, hc⟩ := hc
  unfold CapFits
  rw [next] at stuck
  rw [Full] at hf
  cases hplace : g.place with
  | parked | dead =>
    rw [hplace] at hc hf
    simp only at hc hf
    omega
  | toSvm v r =>
    rw [hplace] at hc hf stuck
    simp only at hc hf stuck
    have hblocked : v = 0 ∨ fullBall < v ∨ rallyCap ≤ g.svmRally := by
      by_contra hopen
      rw [if_neg hopen] at stuck
      split at stuck <;> cases stuck
    omega
  | held v =>
    rw [hplace] at hf stuck
    simp only at hf stuck
    rw [if_neg (by omega)] at stuck
    cases stuck
  | toEvm v r =>
    rw [hplace] at stuck
    simp only at stuck
    split at stuck <;> cases stuck

theorem within_trace (trace : Trace Step (served m c₀) h g)
    (noServe : ∀ c ∈ h, c.action.isServe = false) (fits : CapFits m c₀) (pos : 0 < m)
    (le : m ≤ rallyCap) : Within m h := by
  refine ⟨(within_of_fits (course_trace trace noServe) fits pos le).1, fun c hc => ?_⟩
  obtain ⟨before, after, rfl⟩ := List.append_of_mem hc
  obtain ⟨past, step, -⟩ := trace.split
  refine (within_of_fits (course_trace (past.snoc step) fun e he => noServe e ?_) fits pos le).2
  rw [List.append_cons]
  exact List.mem_append_left _ he

theorem fits_of_trace (trace : Trace Step (served m c₀) h g)
    (noServe : ∀ c ∈ h, c.action.isServe = false) (returns : ∀ c ∈ h, Returns c)
    (stuck : next g = none) (within : Within m h) (le : m ≤ rallyCap) : CapFits m c₀ := by
  refine fits_of_within (course_trace trace noServe) (full_trace trace noServe returns) stuck
    within.1 ?_ le
  rcases trace.last with rfl | ⟨c, hc, rfl⟩
  · exact Nat.zero_le m
  · exact within.2 c hc

end CrossChainPingPong.Rally
