import CrossChainPingPong.Library.Guard

namespace Guard
variable {E F α β : Type} {x : Except E α} {f : α → Except E β} {e e' : E} {es : List E}

theorem bind_eq_error : (x >>= f) = .error e ↔ x = .error e ∨ ∃ a, x = .ok a ∧ f a = .error e := by
  cases x with
  | error e' => simp [bind, Except.bind]
  | ok a => simp [bind, Except.bind]

theorem require_eq_error {p : Prop} [Decidable p] : require p e = .error e' ↔ ¬ p ∧ e = e' := by
  unfold require
  split <;> simp_all

theorem revertIf_eq_error {p : Prop} [Decidable p] : revertIf p e = .error e' ↔ p ∧ e = e' := by
  unfold revertIf
  split <;> simp_all

theorem okOr_eq_error {o : Option α} : okOr o e = .error e' ↔ o = none ∧ e = e' := by
  cases o <;> simp [okOr]

theorem mapError_eq_error {g : E → F} {e : F} :
    x.mapError g = .error e ↔ ∃ e', x = .error e' ∧ g e' = e := by
  cases x with
  | ok a =>
    constructor
    · rintro ⟨⟩
    · rintro ⟨_, ⟨⟩, -⟩
  | error e₀ =>
    constructor
    · intro h
      exact ⟨e₀, rfl, Except.error.inj h⟩
    · rintro ⟨_, ⟨⟩, rfl⟩
      rfl

theorem pure_ne_error {a : α} : ¬ (pure a : Except E α) = .error e := by
  rintro ⟨⟩

def FailsIn (es : List E) (x : Except E α) : Prop := ∀ e, x = .error e → e ∈ es

theorem failsIn_pure (a : α) : FailsIn es (pure a : Except E α) :=
  fun _ h => absurd h pure_ne_error

theorem failsIn_error (mem : e ∈ es) : FailsIn es (.error e : Except E α) := by
  rintro _ ⟨⟩
  exact mem

theorem failsIn_bind (first : FailsIn es x) (rest : ∀ a, x = .ok a → FailsIn es (f a)) :
    FailsIn es (x >>= f) := by
  intro e h
  rcases bind_eq_error.mp h with hx | ⟨a, ha, hf⟩
  · exact first e hx
  · exact rest a ha e hf

theorem failsIn_require {p : Prop} [Decidable p] (mem : ¬ p → e ∈ es) : FailsIn es (require p e) := by
  intro e' h
  obtain ⟨hp, rfl⟩ := require_eq_error.mp h
  exact mem hp

theorem failsIn_revertIf {p : Prop} [Decidable p] (mem : p → e ∈ es) : FailsIn es (revertIf p e) := by
  intro e' h
  obtain ⟨hp, rfl⟩ := revertIf_eq_error.mp h
  exact mem hp

theorem failsIn_okOr {o : Option α} (mem : o = none → e ∈ es) : FailsIn es (okOr o e) := by
  intro e' h
  obtain ⟨ho, rfl⟩ := okOr_eq_error.mp h
  exact mem ho

theorem failsIn_mapError {g : E → F} {fs : List F} (mem : ∀ e, x = .error e → g e ∈ fs) :
    FailsIn fs (x.mapError g) := by
  intro e h
  obtain ⟨e', hx, rfl⟩ := mapError_eq_error.mp h
  exact mem e' hx

theorem failsIn_map {g : α → β} (h : FailsIn es x) : FailsIn es (x.map g) := by
  cases x with
  | ok a => exact failsIn_pure (g a)
  | error e => exact failsIn_error (h e rfl)

def raises [DecidableEq E] (x : Except E α) (e : E) : Bool :=
  match x with
  | .ok _ => false
  | .error e' => e' = e

theorem raises_iff [DecidableEq E] : raises x e = true ↔ x = .error e := by
  cases x <;> simp [raises]

end Guard
