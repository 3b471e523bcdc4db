import CrossChainPingPong.Table.Rules
import Mathlib.Order.Interval.Set.Defs
import Mathlib.Data.Set.Function

namespace CrossChainPingPong.Table

variable {G : Type} {guid : Nat → G} {n : Nat}

structure Rallying (guid : Nat → G) (n svmRally : Nat) (t : Table G) : Prop where
  active : t.active = true
  free : t.evmHolds = false
  cap : t.cap = rallyCap
  rally : t.svmRally = svmRally
  unseen : ∀ m, n ≤ m → m < 98 → t.seen (guid m) = false

structure Outbound (guid : Nat → G) (n : Nat) (t : Table G) : Prop extends
    Rallying guid n n t where
  flying : ∃ k r, t.flying = [⟨.svm, k, fullBall - 2 * n, r⟩]

structure AtSvm (guid : Nat → G) (n : Nat) (t : Table G) : Prop extends
    Rallying guid n (n + 1) t where
  holds : t.svmHolds = true
  value : t.svmValue = fullBall - (2 * n + 1)
  flying : t.flying = []

structure Homebound (guid : Nat → G) (n : Nat) (t : Table G) : Prop extends
    Rallying guid n (n + 1) t where
  flying : t.flying = [⟨.evm, guid n, fullBall - (2 * n + 1), n + 1⟩]

theorem eq_of_alone {l : List (Ball G)} {b c : Ball G} (alone : l = [b]) (here : l[0]? = some c) :
    b = c := by
  rw [alone] at here
  exact Option.some.inj here

variable [DecidableEq G] {t t' : Table G} {out : List (Ball G)}

theorem outbound_served (hs : (start : Table G).Step (.serve rallyCap) t' out) : Outbound guid 0 t' := by
  cases hs with
  | serve => exact ⟨⟨rfl, rfl, rfl, rfl, fun _ _ _ => rfl⟩, _, _, rfl⟩

theorem Outbound.received (ht : Outbound guid n t) (lt : n < 98) (hs : t.Step (.receiveSvm 0) t' out) :
    AtSvm guid n t' := by
  obtain ⟨⟨hactive, hfree, hcap, hrally, hunseen⟩, k₀, r₀, hflying⟩ := ht
  have hfull : fullBall = 100000000000000000000 := rfl
  have hmax : rallyCap = 100 := rfl
  cases hs with
  | @keep _ k v r here high pos hlt =>
    obtain ⟨-, -, hvalue, -⟩ := Ball.mk.inj (eq_of_alone hflying here)
    have hnext : t.svmRally + 1 = n + 1 := congrArg (· + 1) hrally
    have hless : v = fullBall - (2 * n + 1) := by omega
    exact ⟨⟨hactive, hfree, hcap, hnext, hunseen⟩, rfl, hless, by rw [hflying]; rfl⟩
  | @drop _ k v r here high cap last =>
    obtain ⟨-, -, hvalue, -⟩ := Ball.mk.inj (eq_of_alone hflying here)
    omega

theorem AtSvm.returned (ht : AtSvm guid n t) (hs : t.Step (.sendBall t.svmValue) t' out)
    (numbered : ∀ b ∈ out, b.guid = guid n) : Homebound guid n t' := by
  obtain ⟨⟨hactive, hfree, hcap, hrally, hunseen⟩, -, hvalue, hflying⟩ := ht
  cases hs with
  | @sendBall w k ball pos =>
    obtain rfl : k = guid n := numbered _ (List.mem_singleton_self _)
    refine ⟨⟨hactive, hfree, hcap, hrally, hunseen⟩, ?_⟩
    rw [hflying, hrally, hvalue]
    rfl

theorem Homebound.answered (distinct : Set.InjOn guid (Set.Iio 98)) (ht : Homebound guid n t)
    (lt : n < 98) (hs : t.Step (.receiveEvm 0) t' out) : Outbound guid (n + 1) t' := by
  obtain ⟨⟨hactive, hfree, hcap, hrally, hunseen⟩, hflying⟩ := ht
  have hfull : fullBall = 100000000000000000000 := rfl
  have hlimit : t.limit = 100 := (if_pos hactive).trans hcap
  cases hs with
  | @replay _ k v r here done =>
    obtain ⟨-, rfl, -, -⟩ := Ball.mk.inj (eq_of_alone hflying here)
    cases done.symm.trans (hunseen n (Nat.le_refl n) lt)
  | @finish _ k v r here fresh free last =>
    obtain ⟨-, -, hvalue, hr⟩ := Ball.mk.inj (eq_of_alone hflying here)
    omega
  | @reply _ k j v r here fresh free hlt =>
    obtain ⟨-, rfl, hvalue, hr⟩ := Ball.mk.inj (eq_of_alone hflying here)
    obtain rfl : v = fullBall - 2 * (n + 1) := by omega
    refine ⟨⟨rfl, rfl, (if_pos hactive).trans hcap, hrally, fun m hm hlt => ?_⟩, j, r + 1, ?_⟩
    · have hother : guid m ≠ guid n := by
        intro hsame
        have := distinct hlt lt hsame
        omega
      exact (Function.update_of_ne hother _ _).trans (hunseen m (by omega) hlt)
    · rw [hflying]
      rfl

end CrossChainPingPong.Table
