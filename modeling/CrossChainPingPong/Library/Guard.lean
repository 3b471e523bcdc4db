import Mathlib.Algebra.Group.Nat.Defs
import Mathlib.Logic.Basic

namespace Guard

variable {E F α β : Type}

def require (p : Prop) [Decidable p] (e : E) : Except E Unit :=
  if p then .ok () else .error e

def revertIf (p : Prop) [Decidable p] (e : E) : Except E Unit :=
  if p then .error e else .ok ()

def okOr (o : Option α) (e : E) : Except E α :=
  match o with
  | some a => .ok a
  | none => .error e

def checkedAdd {w : Nat} (a b : BitVec w) : Option (BitVec w) :=
  if a.toNat + b.toNat < 2 ^ w then some (a + b) else none

def checkedSub {w : Nat} (a b : BitVec w) : Option (BitVec w) :=
  if b.toNat ≤ a.toNat then some (a - b) else none

@[simp] theorem bind_eq_ok {x : Except E α} {f : α → Except E β} {b : β} :
    (x >>= f) = .ok b ↔ ∃ a, x = .ok a ∧ f a = .ok b := by
  cases x with
  | error e => simp [bind, Except.bind]
  | ok a => simp [bind, Except.bind]

@[simp] theorem pure_eq_ok {a b : α} : (pure a : Except E α) = .ok b ↔ a = b := by
  simp [pure, Except.pure]

@[simp] theorem require_eq_ok {p : Prop} [Decidable p] {e : E} {u : Unit} :
    require p e = .ok u ↔ p := by
  unfold require
  split <;> simp_all

@[simp] theorem revertIf_eq_ok {p : Prop} [Decidable p] {e : E} {u : Unit} :
    revertIf p e = .ok u ↔ ¬ p := by
  unfold revertIf
  split <;> simp_all

@[simp] theorem okOr_eq_ok {o : Option α} {e : E} {a : α} : okOr o e = .ok a ↔ o = some a := by
  cases o <;> simp [okOr]

@[simp] theorem mapError_eq_ok {x : Except E α} {f : E → F} {a : α} :
    x.mapError f = .ok a ↔ x = .ok a := by
  cases x with
  | error e => exact ⟨nofun, nofun⟩
  | ok b => constructor <;> exact fun h => congrArg _ (Except.ok.inj h)

theorem revertIf_bind {p : Prop} [Decidable p] {e : E} {f : Unit → Except E β} :
    (revertIf p e >>= f) = if p then .error e else f () := by
  unfold revertIf
  split <;> rfl

theorem require_bind {p : Prop} [Decidable p] {e : E} {f : Unit → Except E β} :
    (require p e >>= f) = if p then f () else .error e := by
  unfold require
  split <;> rfl

theorem okOr_some_bind {a : α} {e : E} {f : α → Except E β} : (okOr (some a) e >>= f) = f a := rfl

theorem map_bind {γ : Type} {x : Except E α} {f : α → Except E β} {g : β → γ} :
    (x >>= f).map g = x >>= fun a => (f a).map g := by
  cases x <;> rfl

theorem map_pure (a : α) (g : α → β) : (pure a : Except E α).map g = pure (g a) := rfl

theorem map_eq_ok {x : Except E α} {g : α → β} {b : β} : x.map g = .ok b ↔ ∃ a, x = .ok a ∧ g a = b := by
  cases x with
  | error e => simp [Except.map]
  | ok a => simp [Except.map]

def Succeeds (x : Except E α) : Prop := ∃ a, x = .ok a

@[simp] theorem succeeds_pure (a : α) : Succeeds (pure a : Except E α) := ⟨a, rfl⟩

theorem succeeds_bind {x : Except E α} {f : α → Except E β} :
    Succeeds (x >>= f) ↔ ∃ a, x = .ok a ∧ Succeeds (f a) := by
  simp only [Succeeds, bind_eq_ok]
  exact exists_comm.trans (exists_congr fun a => exists_and_left)

theorem checkedAdd_eq_some {w : Nat} {a b c : BitVec w} :
    checkedAdd a b = some c ↔ c.toNat = a.toNat + b.toNat := by
  unfold checkedAdd
  split
  · rename_i h
    rw [Option.some.injEq, ← BitVec.toNat_inj, BitVec.toNat_add, Nat.mod_eq_of_lt h]
    exact eq_comm
  · rename_i h
    have := c.isLt
    simp only [reduceCtorEq, false_iff]
    omega

theorem checkedSub_eq_some {w : Nat} {a b c : BitVec w} :
    checkedSub a b = some c ↔ c.toNat + b.toNat = a.toNat := by
  unfold checkedSub
  split
  · rename_i h
    rw [Option.some.injEq, ← BitVec.toNat_inj, BitVec.toNat_sub_of_le (BitVec.le_def.mpr h)]
    omega
  · rename_i h
    simp only [reduceCtorEq, false_iff]
    omega

end Guard
