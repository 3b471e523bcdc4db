import CrossChainPingPong.Library.Machine
import Mathlib.Algebra.BigOperators.Group.List.Basic
import Mathlib.Algebra.GroupWithZero.Nat
import Mathlib.Logic.Function.Basic

inductive Transfer (A W : Type) where
  | paid (payer : W) (account : A) (amount : Nat)
  | returned (account : A) (payee : W) (amount : Nat)

namespace Transfer
variable {A W : Type} [DecidableEq A]

def post (balances : A → Nat) : Transfer A W → Option (A → Nat)
  | .paid _ a n => some (Function.update balances a (balances a + n))
  | .returned a _ n =>
      if n ≤ balances a then some (Function.update balances a (balances a - n)) else none

def postAll (balances : A → Nat) (ts : List (Transfer A W)) : Option (A → Nat) :=
  ts.foldlM post balances

def into (a : A) : Transfer A W → Nat
  | .paid _ b n => if b = a then n else 0
  | .returned .. => 0

def outOf (a : A) : Transfer A W → Nat
  | .paid .. => 0
  | .returned b _ n => if b = a then n else 0

variable {balances after : A → Nat}

theorem post_account {t : Transfer A W} (h : post balances t = some after) (a : A) :
    after a + t.outOf a = balances a + t.into a := by
  cases t with
  | paid payer b n =>
    obtain rfl := Option.some.inj h
    by_cases hb : b = a
    · subst hb
      simp [outOf, into]
    · simp [outOf, into, hb, Function.update_of_ne (Ne.symm hb)]
  | returned b payee n =>
    simp only [post, Option.ite_none_right_eq_some] at h
    obtain ⟨hle, hafter⟩ := h
    obtain rfl := Option.some.inj hafter
    by_cases hb : b = a
    · subst hb
      simp [outOf, into, Nat.sub_add_cancel hle]
    · simp [outOf, into, hb, Function.update_of_ne (Ne.symm hb)]

theorem postAll_cons {t : Transfer A W} {ts : List (Transfer A W)} :
    postAll balances (t :: ts) = (post balances t).bind fun mid => postAll mid ts := rfl

theorem postAll_account {ts : List (Transfer A W)} (h : postAll balances ts = some after) (a : A) :
    after a + (ts.map (outOf a)).sum = balances a + (ts.map (into a)).sum := by
  induction ts generalizing balances with
  | nil =>
    obtain rfl := Option.some.inj h
    rfl
  | cons t ts ih =>
    rw [postAll_cons, Option.bind_eq_some_iff] at h
    obtain ⟨mid, hmid, hrest⟩ := h
    have hfirst := post_account hmid a
    have hlast := ih hrest
    simp only [List.map_cons, List.sum_cons]
    omega

end Transfer

theorem Machine.balances_accounted {S A E O B W : Type} [DecidableEq B] (M : Machine S A E O)
    (balances : S → B → Nat) (moved : O → Option (Transfer B W)) (s : S)
    (step : ∀ c, M.Commits c →
      Transfer.postAll (balances c.before) (c.out.filterMap moved) = some (balances c.after))
    (as : List A) (a : B) :
    let transfers := (emitted (M.history s as)).filterMap moved
    balances (M.run s as) a + (transfers.map (Transfer.outOf a)).sum =
      balances s a + (transfers.map (Transfer.into a)).sum := by
  refine M.run_induction (P := fun h t =>
    balances t a + (((emitted h).filterMap moved).map (Transfer.outOf a)).sum =
      balances s a + (((emitted h).filterMap moved).map (Transfer.into a)).sum) rfl ?_ as
  intro h c ih hc
  have hstep := Transfer.postAll_account (step c hc) a
  simp only [emitted_append, emitted_singleton, List.filterMap_append, List.map_append,
    List.sum_append]
  omega
