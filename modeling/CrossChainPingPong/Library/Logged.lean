import CrossChainPingPong.Library.Guard
import Mathlib.Control.Monad.Writer

-- a computation that can fail and keeps a log; what it logs before it fails is lost
abbrev Logged (O E : Type) := WriterT (List O) (Except E)

namespace Logged
open Guard
variable {O E F α β : Type}

def lift (x : Except E α) : Logged O E α := liftM x

def mapError (f : E → F) (x : Logged O E α) : Logged O F α := WriterT.mk (x.run.mapError f)

variable {a b : α} {log : List O}

def Logs (x : Logged O E α) (y : Except E α) (f : α → List O) : Prop :=
  ∀ a log, x.run = .ok (a, log) ↔ y = .ok a ∧ log = f a

theorem logs_pure (a : α) : Logs (pure a : Logged O E α) (.ok a) fun _ => [] := by
  intro b log
  have hrun : (pure a : Logged O E α).run = .ok (a, []) := rfl
  rw [hrun, Except.ok.injEq, Except.ok.injEq, Prod.mk.injEq, eq_comm (a := [])]

theorem logs_lift (x : Except E α) : Logs (lift x : Logged O E α) x fun _ => [] := by
  intro a log
  cases x with
  | error e => exact ⟨nofun, fun h => nomatch h.1⟩
  | ok b => exact logs_pure b a log

theorem logs_tell (items : List O) :
    Logs (tell items : Logged O E PUnit) (.ok ⟨⟩) fun _ => items := by
  intro u log
  have hrun : (tell items : Logged O E PUnit).run = .ok (u, items) := rfl
  rw [hrun, Except.ok.injEq, Prod.mk.injEq, eq_comm (a := items)]
  exact and_congr_left fun _ => ⟨fun _ => rfl, fun _ => rfl⟩

theorem bind_eq_ok {x : Logged O E α} {k : α → Logged O E β} {c : β} :
    (x >>= k).run = .ok (c, log) ↔ ∃ a first, x.run = .ok (a, first) ∧
      ∃ rest, (k a).run = .ok (c, rest) ∧ log = first ++ rest := by
  have hrun : (x >>= k).run =
      x.run >>= fun r => (k r.1).run >>= fun t => pure (t.1, r.2 ++ t.2) := rfl
  simp only [hrun, Guard.bind_eq_ok, pure_eq_ok, Prod.exists, Prod.mk.injEq]
  constructor
  · rintro ⟨a, first, hx, c', rest, hk, rfl, rfl⟩
    exact ⟨a, first, hx, rest, hk, rfl⟩
  · rintro ⟨a, first, hx, rest, hk, rfl⟩
    exact ⟨a, first, hx, c, rest, hk, rfl, rfl⟩

theorem mapError_bind_eq_ok {x : Logged O E α} {f : E → F} {k : α → Logged O F β} {c : β} :
    (mapError f x >>= k).run = .ok (c, log) ↔ ∃ a first, x.run = .ok (a, first) ∧
      ∃ rest, (k a).run = .ok (c, rest) ∧ log = first ++ rest :=
  bind_eq_ok.trans (exists_congr fun _ => exists_congr fun _ => and_congr_left fun _ => mapError_eq_ok)

theorem Logs.bind_eq_ok {x : Logged O E α} {y : Except E α} {f : α → List O} (h : Logs x y f)
    {k : α → Logged O E β} {c : β} : (x >>= k).run = .ok (c, log) ↔
      ∃ a, y = .ok a ∧ ∃ rest, (k a).run = .ok (c, rest) ∧ log = f a ++ rest := by
  rw [Logged.bind_eq_ok]
  constructor
  · rintro ⟨a, first, hx, hk⟩
    obtain ⟨hy, rfl⟩ := (h a first).mp hx
    exact ⟨a, hy, hk⟩
  · rintro ⟨a, hy, hk⟩
    exact ⟨a, f a, (h a _).mpr ⟨hy, rfl⟩, hk⟩

theorem run_pure_eq_ok : (pure a : Logged O E α).run = .ok (b, log) ↔ a = b ∧ log = [] := by
  rw [logs_pure a b log, Except.ok.injEq]

theorem lift_bind_eq_ok {x : Except E α} {k : α → Logged O E β} {c : β} :
    (lift x >>= k).run = .ok (c, log) ↔ ∃ a, x = .ok a ∧ (k a).run = .ok (c, log) := by
  simp only [(logs_lift x).bind_eq_ok, List.nil_append, exists_eq_right']

theorem tell_bind_eq_ok {items : List O} {k : PUnit → Logged O E β} {c : β} :
    (tell items >>= k).run = .ok (c, log) ↔
      ∃ rest, (k ⟨⟩).run = .ok (c, rest) ∧ log = items ++ rest := by
  rw [(logs_tell items).bind_eq_ok]
  exact ⟨fun ⟨_, _, h⟩ => h, fun h => ⟨⟨⟩, rfl, h⟩⟩

end Logged
