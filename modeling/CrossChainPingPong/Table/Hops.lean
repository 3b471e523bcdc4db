import CrossChainPingPong.Table.Rules
import Mathlib.Data.List.Forall2

namespace CrossChainPingPong

-- the hop counts of the balls in flight, in the same order, and of the last ball Solana received
structure Hops where
  flying : List Nat
  held : Nat

namespace Hops

def behind (g : Hops) (i : Nat) : Nat := g.flying[i]?.getD 0

def after (g : Hops) (mv : Move) (sent : Nat) : Hops :=
  match mv with
  | .serve _ | .pause | .idle => ⟨g.flying ++ List.replicate sent 0, g.held⟩
  | .sendBall _ => ⟨g.flying ++ List.replicate sent g.held, g.held⟩
  | .receiveEvm i => ⟨g.flying.eraseIdx i ++ List.replicate sent (g.behind i + 1), g.held⟩
  | .receiveSvm i => ⟨g.flying.eraseIdx i, g.behind i + 1⟩

def none : Hops := ⟨[], 0⟩

end Hops

namespace Table
variable {G α β : Type} {R : α → β → Prop} {l : List α} {k : List β} {i : Nat}

theorem forall₂_eraseIdx (h : List.Forall₂ R l k) (i : Nat) :
    List.Forall₂ R (l.eraseIdx i) (k.eraseIdx i) := by
  rw [List.eraseIdx_eq_take_drop_succ, List.eraseIdx_eq_take_drop_succ]
  exact List.rel_append (List.forall₂_take i h) (List.forall₂_drop (i + 1) h)

theorem forall₂_getElem? {a : α} (h : List.Forall₂ R l k) (hi : l[i]? = some a) :
    ∃ b, k[i]? = some b ∧ R a b := by
  induction h generalizing i with
  | nil => simp at hi
  | @cons a' b' l k hab _ ih =>
    cases i with
    | zero =>
      obtain rfl := Option.some.inj hi
      exact ⟨b', rfl, hab⟩
    | succ i => exact ih hi

theorem forall₂_snoc {a : α} {b : β} (h : List.Forall₂ R l k) (hab : R a b) :
    List.Forall₂ R (l ++ [a]) (k ++ [b]) :=
  List.rel_append h (.cons hab .nil)

def Paid (b : Ball G) (hops : Nat) : Prop := b.value + hops = fullBall

structure Levelled (g : Hops) (t : Table G) : Prop where
  flying : List.Forall₂ Paid t.flying g.flying
  held : t.svmHolds = true → t.svmValue + g.held = fullBall

theorem levelled_start : Levelled Hops.none (start : Table G) := ⟨.nil, nofun⟩

theorem Levelled.behind {g : Hops} {t : Table G} {b : Ball G} (hl : Levelled g t)
    (here : t.flying[i]? = some b) : b.value + g.behind i = fullBall := by
  obtain ⟨n, hn, hb⟩ := forall₂_getElem? hl.flying here
  rw [Hops.behind, hn]
  exact hb

def Exact (c : Commit (Table G) Move (Ball G)) : Prop :=
  match c.action with
  | .receiveEvm i => ∀ b, c.before.flying[i]? = some b → c.before.seen b.guid = false →
      c.after.evmValue + c.out.length = b.value
  | .receiveSvm i => ∀ b, c.before.flying[i]? = some b → c.after.svmValue + 1 = b.value
  | _ => True

variable [DecidableEq G] {t t' : Table G} {mv : Move} {out : List (Ball G)} {g : Hops}

theorem levelled_step (hl : Levelled g t) (hs : t.Step mv t' out)
    (honest : sendsStored ⟨t, mv, t', out⟩ = true) : Levelled (g.after mv out.length) t' := by
  cases hs with
  | serve idle pos le => exact ⟨forall₂_snoc hl.flying rfl, hl.held⟩
  | pause active | idle =>
    refine ⟨?_, hl.held⟩
    simpa [Hops.after] using hl.flying
  | @sendBall w k ball pos =>
    obtain rfl : w = t.svmValue := of_decide_eq_true honest
    exact ⟨forall₂_snoc hl.flying (hl.held ball), nofun⟩
  | @replay i k v r here done =>
    refine ⟨?_, hl.held⟩
    simpa [Hops.after] using forall₂_eraseIdx hl.flying i
  | @finish i k v r here fresh free last =>
    refine ⟨?_, hl.held⟩
    simpa [Hops.after] using forall₂_eraseIdx hl.flying i
  | @reply i k j v r here fresh free lt =>
    have hb := hl.behind here
    refine ⟨forall₂_snoc (forall₂_eraseIdx hl.flying i) ?_, hl.held⟩
    simp only [Paid] at hb ⊢
    omega
  | @keep i k v r here high pos lt =>
    have hb := hl.behind here
    refine ⟨forall₂_eraseIdx hl.flying i, fun _ => ?_⟩
    simp only [Hops.after] at hb ⊢
    omega
  | @drop i k v r here high cap last => exact ⟨forall₂_eraseIdx hl.flying i, nofun⟩

theorem exact_step (hs : t.Step mv t' out) : Exact ⟨t, mv, t', out⟩ := by
  cases hs with
  | serve | pause | idle | sendBall => trivial
  | replay here done =>
    intro b hb fresh
    obtain rfl := Option.some.inj (here.symm.trans hb)
    rw [done] at fresh
    cases fresh
  | finish here | reply here =>
    intro b hb _
    obtain rfl := Option.some.inj (here.symm.trans hb)
    rfl
  | keep here | drop here =>
    intro b hb
    obtain rfl := Option.some.inj (here.symm.trans hb)
    rfl

def hops (h : History G) : Hops := h.foldl (fun g c => g.after c.action c.out.length) Hops.none

theorem levelled_trace {h : History G} (trace : Trace Step start h t)
    (honest : ∀ c ∈ h, sendsStored c = true) : Levelled (hops h) t := by
  refine trace.rule (P := fun h t => Levelled (hops h) t) levelled_start ?_ honest
  intro h c ih hs hc
  rw [hops, List.foldl_append]
  exact levelled_step ih hs hc

end Table
end CrossChainPingPong
