import CrossChainPingPong.Library.Guard
import CrossChainPingPong.Library.Machine

inductive Call (A : Type) where
  | mk (action : A) (callbacks : List (Call A))

def Call.action {A : Type} : Call A → A
  | .mk a _ => a

-- enter is what an action does before it calls out, resume what it does when that call returns
structure Reentrant (S A E O : Type) where
  enter : A → S → Except E (S × List O)
  callsOut : A → Bool
  resume : A → S → S

namespace Reentrant
open Guard
variable {S A E O : Type}

mutual
def apply (C : Reentrant S A E O) : Call A → S → Except E (S × List O)
  | .mk a callbacks, s => do
      let (s, out) ← C.enter a s
      let (s, more) := if C.callsOut a = true then C.applyAll callbacks s else (s, [])
      pure (C.resume a s, out ++ more)

def applyAll (C : Reentrant S A E O) : List (Call A) → S → S × List O
  | [], s => (s, [])
  | call :: calls, s => match C.apply call s with
      | .error _ => C.applyAll calls s
      | .ok (s, out) =>
          let (s, more) := C.applyAll calls s
          (s, out ++ more)
end

def alone (C : Reentrant S A E O) : Machine S A E O where
  apply a s := do
    let (s, out) ← C.enter a s
    pure (C.resume a s, out)

variable {C : Reentrant S A E O} {a : A} {callbacks : List (Call A)} {s s' : S} {out : List O}

theorem apply_eq_ok : C.apply (.mk a callbacks) s = .ok (s', out) ↔ ∃ t first,
    C.enter a s = .ok (t, first) ∧
      let nested := if C.callsOut a = true then C.applyAll callbacks t else (t, [])
      C.resume a nested.1 = s' ∧ first ++ nested.2 = out := by
  simp only [apply, bind_eq_ok, pure_eq_ok, Prod.exists, Prod.mk.injEq]

theorem alone_eq_ok : C.alone.apply a s = .ok (s', out) ↔
    ∃ t, C.enter a s = .ok (t, out) ∧ C.resume a t = s' := by
  simp only [alone, bind_eq_ok, pure_eq_ok, Prod.exists, Prod.mk.injEq]
  constructor
  · rintro ⟨t, o, h, rfl, rfl⟩
    exact ⟨t, h, rfl⟩
  · rintro ⟨t, h, rfl⟩
    exact ⟨t, out, h, rfl, rfl⟩

theorem applyAll_quiet {P : S → Prop} {allowed : A → Prop}
    (quiet : ∀ a s t out, allowed a → P s → C.enter a s = .ok (t, out) →
      C.callsOut a = false ∧ P (C.resume a t) ∧ out = [])
    (hs : P s) (calls : List (Call A)) (hall : ∀ call ∈ calls, allowed call.action) :
    P (C.applyAll calls s).1 ∧ (C.applyAll calls s).2 = [] := by
  induction calls generalizing s with
  | nil => exact ⟨hs, rfl⟩
  | cons call calls ih =>
    obtain ⟨hallowed, hrest⟩ := List.forall_mem_cons.mp hall
    rw [applyAll]
    cases hcall : C.apply call s with
    | error e => exact ih hs hrest
    | ok result =>
      obtain ⟨a, callbacks⟩ := call
      obtain ⟨t, first, henter, hstate, hout⟩ := apply_eq_ok.mp hcall
      obtain ⟨hatomic, ht, rfl⟩ := quiet a s t first hallowed hs henter
      rw [hatomic] at hstate hout
      have hresult : P result.1 := hstate ▸ ht
      obtain ⟨hlast, hmore⟩ := ih hresult hrest
      refine ⟨hlast, ?_⟩
      dsimp only
      rw [hmore, ← hout]
      rfl

end Reentrant

namespace Call
variable {A : Type}

mutual
def actions : Call A → List A
  | .mk a callbacks => a :: actionsAll callbacks

def actionsAll : List (Call A) → List A
  | [] => []
  | call :: calls => call.actions ++ actionsAll calls
end

theorem actions_eq (call : Call A) : ∃ as, call.actions = call.action :: as := by
  obtain ⟨a, callbacks⟩ := call
  exact ⟨actionsAll callbacks, rfl⟩

theorem map_action_sublist (calls : List (Call A)) : (calls.map action).Sublist (actionsAll calls) := by
  induction calls with
  | nil => exact .slnil
  | cons call calls ih =>
    obtain ⟨as, has⟩ := call.actions_eq
    rw [List.map_cons, actionsAll, has, List.cons_append]
    exact (ih.trans (List.sublist_append_right as _)).cons_cons call.action

end Call

def Machine.Serial {S A E O : Type} (M : Machine S A E O) (as : List A) (s : S) (r : S × List O) :
    Prop :=
  ∃ bs, bs.Sublist as ∧ M.run s bs = r.1 ∧ Machine.emitted (M.history s bs) = r.2

namespace Machine.Serial
variable {S A E O : Type} {M : Machine S A E O} {as bs : List A} {a : A} {s t u : S} {o p : List O}

theorem nil (s : S) : M.Serial [] s (s, []) := ⟨[], .slnil, rfl, rfl⟩

theorem mono (h : M.Serial as s (t, o)) (hsub : as.Sublist bs) : M.Serial bs s (t, o) := by
  obtain ⟨cs, hcs, hrun, hout⟩ := h
  exact ⟨cs, hcs.trans hsub, hrun, hout⟩

theorem append (first : M.Serial as s (t, o)) (second : M.Serial bs t (u, p)) :
    M.Serial (as ++ bs) s (u, o ++ p) := by
  obtain ⟨cs, hcs, rfl, rfl⟩ := first
  obtain ⟨ds, hds, hrun, hout⟩ := second
  refine ⟨cs ++ ds, hcs.append hds, ?_, ?_⟩
  · rw [run_append, hrun]
  · rw [history_append, emitted_append, hout]

theorem of_ok (h : M.apply a s = .ok (t, o)) : M.Serial [a] s (t, o) := by
  refine ⟨[a], .refl _, ?_, ?_⟩
  · simp only [run, h]
  · simp only [history, h, emitted_singleton]

end Machine.Serial

namespace Reentrant
variable {S A E O : Type} {C : Reentrant S A E O} {M : Machine S A E O} {s t : S}

theorem applyAll_mirror {R : S → S → Prop} {allowed : A → Prop}
    (mirror : ∀ a s t u out, allowed a → R s t → C.enter a s = .ok (u, out) →
      C.callsOut a = false ∧ ∃ t', M.apply a t = .ok (t', out) ∧ R (C.resume a u) t')
    (hr : R s t) (calls : List (Call A)) (hall : ∀ call ∈ calls, allowed call.action) :
    ∃ t', R (C.applyAll calls s).1 t' ∧
      M.Serial (calls.map Call.action) t (t', (C.applyAll calls s).2) := by
  induction calls generalizing s t with
  | nil => exact ⟨t, hr, .nil t⟩
  | cons call calls ih =>
    obtain ⟨hallowed, hrest⟩ := List.forall_mem_cons.mp hall
    rw [applyAll]
    cases hcall : C.apply call s with
    | error e =>
      obtain ⟨t', hr', hserial⟩ := ih hr hrest
      exact ⟨t', hr', hserial.mono (List.sublist_cons_self _ _)⟩
    | ok result =>
      obtain ⟨a, callbacks⟩ := call
      obtain ⟨u, first, henter, hstate, hout⟩ := apply_eq_ok.mp hcall
      obtain ⟨hatomic, t₁, hstep, hr₁⟩ := mirror a s t u first hallowed hr henter
      rw [hatomic] at hstate hout
      have hfirst : result.2 = first := hout.symm.trans (List.append_nil first)
      obtain ⟨t', hr', hserial⟩ := ih (hstate ▸ hr₁) hrest
      refine ⟨t', hr', ?_⟩
      have hboth := (Machine.Serial.of_ok hstep).append hserial
      dsimp only
      rw [hfirst]
      exact hboth

theorem applyAll_serial {P : S → Prop} {calls : List (Call A)} (hs : P s)
    (each : ∀ call ∈ calls, ∀ s t out, P s → C.apply call s = .ok (t, out) →
      P t ∧ M.Serial call.actions s (t, out)) :
    P (C.applyAll calls s).1 ∧ M.Serial (Call.actionsAll calls) s (C.applyAll calls s) := by
  induction calls generalizing s with
  | nil => exact ⟨hs, .nil s⟩
  | cons call calls ih =>
    obtain ⟨hfirst, hrest⟩ := List.forall_mem_cons.mp each
    rw [applyAll, Call.actionsAll]
    cases hcall : C.apply call s with
    | error e =>
      obtain ⟨hlast, hserial⟩ := ih hs hrest
      exact ⟨hlast, hserial.mono (List.sublist_append_right _ _)⟩
    | ok result =>
      obtain ⟨ht, hhead⟩ := hfirst s result.1 result.2 hs hcall
      obtain ⟨hlast, htail⟩ := ih ht hrest
      exact ⟨hlast, hhead.append htail⟩

end Reentrant
