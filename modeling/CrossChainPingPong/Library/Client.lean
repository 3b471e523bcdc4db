import CrossChainPingPong.Library.Guard
import CrossChainPingPong.Library.Composed
import CrossChainPingPong.Library.Past
import Mathlib.Logic.Function.Basic

-- a script reads the state of a machine in some turns and acts on what it remembers in a later one
abbrev Script (S A X P : Type) := X → S → P → P × Option A

namespace Script
variable {S A E O X P K : Type}

structure Shared (S P K : Type) where
  state : S
  memory : K → P

inductive Move (A X K : Type) where
  | other (a : A)
  | turn (k : K) (x : X)

variable (M : Machine S A E O) (script : K → Script S A X P)

abbrev SharedCommit (S A O X P K : Type) := Commit (Shared S P K) (Move A X K) O

def submitted (c : SharedCommit S A O X P K) : Option A :=
  match c.action with
  | .other a => some a
  | .turn k x => (script k x c.before.state (c.before.memory k)).2

def landed (c : SharedCommit S A O X P K) : Option A :=
  (submitted script c).filter fun a => (M.apply a c.before.state).isOk

def based (c : SharedCommit S A O X P K) : Option (Commit S A O) :=
  (landed M script c).map fun a => ⟨c.before.state, a, c.after.state, c.out⟩

def Overtaken (Rival : Commit S A O → Prop) (c : SharedCommit S A O X P K) : Prop :=
  ∃ b, based M script c = some b ∧ Rival b

def Looks (starts : P → Prop) (k : K) (c : SharedCommit S A O X P K) : Prop :=
  ∃ x, c.action = .turn k x ∧ starts (c.before.memory k)

variable {M script} {c : SharedCommit S A O X P K}

theorem landed_of_ok {a : A} {r : S × List O} (submits : submitted script c = some a)
    (ok : M.apply a c.before.state = .ok r) : landed M script c = some a := by
  rw [landed, submits, Option.filter_some, ok]
  rfl

theorem based_of_ok {a : A} {r : S × List O} (submits : submitted script c = some a)
    (ok : M.apply a c.before.state = .ok r) :
    based M script c = some ⟨c.before.state, a, c.after.state, c.out⟩ := by
  rw [based, landed_of_ok submits ok, Option.map_some]

variable (M script)

section
variable [DecidableEq K]

-- an action of a script that fails changes nothing but what the script remembers
def turn (k : K) (x : X) (s : Shared S P K) : Shared S P K × List O :=
  let r := script k x s.state (s.memory k)
  let memory := Function.update s.memory k r.1
  match r.2 with
  | none => (⟨s.state, memory⟩, [])
  | some a => match M.apply a s.state with
      | .ok (t, out) => (⟨t, memory⟩, out)
      | .error _ => (⟨s.state, memory⟩, [])

def machine : Machine (Shared S P K) (Move A X K) E O where
  apply
    | .other a, s => (M.apply a s.state).map fun r => (⟨r.1, s.memory⟩, r.2)
    | .turn k x, s => .ok (turn M script k x s)

inductive Effect (s : Shared S P K) : Move A X K → Shared S P K → List O → Prop
  | other {a t out} (ok : M.apply a s.state = .ok (t, out)) :
      Effect s (.other a) ⟨t, s.memory⟩ out
  | thinks {k x p} (script : script k x s.state (s.memory k) = (p, none)) :
      Effect s (.turn k x) ⟨s.state, Function.update s.memory k p⟩ []
  | lands {k x p a t out} (script : script k x s.state (s.memory k) = (p, some a))
      (ok : M.apply a s.state = .ok (t, out)) :
      Effect s (.turn k x) ⟨t, Function.update s.memory k p⟩ out
  | refused {k x p a e} (script : script k x s.state (s.memory k) = (p, some a))
      (error : M.apply a s.state = .error e) :
      Effect s (.turn k x) ⟨s.state, Function.update s.memory k p⟩ []

variable {M script}

theorem turn_effect (k : K) (x : X) (s : Shared S P K) :
    Effect M script s (.turn k x) (turn M script k x s).1 (turn M script k x s).2 := by
  unfold turn
  cases hr : script k x s.state (s.memory k) with
  | mk p act =>
    cases act with
    | none => exact .thinks hr
    | some a =>
      cases ha : M.apply a s.state with
      | ok r =>
        dsimp only
        rw [ha]
        exact .lands hr ha
      | error e =>
        dsimp only
        rw [ha]
        exact .refused hr ha

theorem commits_effect (hc : (machine M script).Commits c) :
    Effect M script c.before c.action c.after c.out := by
  obtain ⟨s, move, s', out⟩ := c
  cases move with
  | other a =>
    have hmap : (M.apply a s.state).map (fun r => (⟨r.1, s.memory⟩, r.2)) = .ok (s', out) := hc
    obtain ⟨r, ha, heq⟩ := Guard.map_eq_ok.mp hmap
    cases heq
    exact .other ha
  | turn k x =>
    have hturn : turn M script k x s = (s', out) := Except.ok.inj hc
    have effect : Effect M script s (.turn k x) _ _ := turn_effect k x s
    rwa [hturn] at effect

def part (M : Machine S A E O) (script : K → Script S A X P) :
    (machine M script).Part M O where
  view := Shared.state
  move := landed M script
  item := some
  label := id
  acts := by
    intro c a hc hlanded
    obtain ⟨hsubmits, hok⟩ := Option.filter_eq_some_iff.mp hlanded
    refine ⟨c.out, ?_, by rw [List.filterMap_some, List.map_id]⟩
    obtain ⟨s, move, s', out⟩ := c
    have effect : Effect M script s move s' out := commits_effect hc
    cases effect with
    | other ok =>
      obtain rfl := Option.some.inj hsubmits
      exact ok
    | thinks hscript => cases (congrArg Prod.snd hscript).symm.trans hsubmits
    | lands hscript ok =>
      obtain rfl := Option.some.inj ((congrArg Prod.snd hscript).symm.trans hsubmits)
      exact ok
    | refused hscript error =>
      obtain rfl := Option.some.inj ((congrArg Prod.snd hscript).symm.trans hsubmits)
      dsimp only at hok
      rw [error] at hok
      cases hok
  rests := by
    intro c hc hlanded
    obtain ⟨s, move, s', out⟩ := c
    have effect : Effect M script s move s' out := commits_effect hc
    cases effect with
    | other ok => cases hlanded.symm.trans (landed_of_ok rfl ok)
    | thinks => exact ⟨rfl, rfl⟩
    | lands hscript ok =>
      cases hlanded.symm.trans (landed_of_ok (congrArg Prod.snd hscript) ok)
    | refused => exact ⟨rfl, rfl⟩

theorem shared_run (M : Machine S A E O) (script : K → Script S A X P) (s : Shared S P K)
    (moves : List (Move A X K)) :
    let done := ((machine M script).history s moves).filterMap (landed M script)
    ((machine M script).run s moves).state = M.run s.state done ∧
      Machine.emitted ((machine M script).history s moves) =
        Machine.emitted (M.history s.state done) := by
  obtain ⟨hrun, -, hout⟩ := (part M script).run_eq s moves
  have hall : (Machine.emitted ((machine M script).history s moves)).filterMap some = _ := hout.symm
  rw [List.filterMap_some] at hall
  exact ⟨hrun.symm, hall.trans (List.map_id _)⟩

end

end Script

theorem Machine.fresh_or_rival {S A E O : Type} {M : Machine S A E O} {I J : S → Prop}
    {rival looks : Commit S A O → Prop} {s : S} (sound : I s) (start : J s)
    (inv : ∀ c, M.Commits c → I c.before → I c.after)
    (look : ∀ c, M.Commits c → I c.before → looks c → J c.after)
    (keep : ∀ c, M.Commits c → I c.before → ¬ rival c → J c.before → J c.after) (as : List A) :
    J (M.run s as) ∨ Past.Pending rival looks (M.history s as) := by
  refine (M.run_induction (P := fun h t => I t ∧ (J t ∨ Past.Pending rival looks h))
    ⟨sound, .inl start⟩ ?_ as).2
  rintro h c ⟨hinv, ih⟩ hc
  refine ⟨inv c hc hinv, ?_⟩
  rw [Past.pending_concat]
  by_cases hlook : looks c
  · exact .inl (look c hc hinv hlook)
  by_cases hrival : rival c
  · exact .inr (.inl hrival)
  rcases ih with hfresh | hpending
  · exact .inl (keep c hc hinv hrival hfresh)
  · exact .inr (.inr ⟨hpending, hlook⟩)

namespace Script
variable {S A E O X P K : Type} [DecidableEq K] {M : Machine S A E O}

structure Remembers (M : Machine S A E O) (script : Script S A X P) (starts : P → Prop)
    (Inv : S → Prop) (Seen : P → S → Prop) (Rival : Commit S A O → Prop) : Prop where
  inv : ∀ c, M.Commits c → Inv c.before → Inv c.after
  look : ∀ x s p, Inv s → starts p → Seen (script x s p).1 s
  turn : ∀ x s p, Inv s → Seen p s → Seen (script x s p).1 s
  act : ∀ x s p a t, Inv s → (script x s p).2 = some a → Seen (script x s p).1 t
  keep : ∀ p c, M.Commits c → ¬ Rival c → Seen p c.before → Seen p c.after

theorem seen_unless_overtaken {starts : P → Prop} {Inv : S → Prop} {Seen : P → S → Prop}
    {Rival : Commit S A O → Prop} (script : K → Script S A X P) (k : K)
    (remembers : Remembers M (script k) starts Inv Seen Rival) {s : Shared S P K}
    (sound : Inv s.state) (start : Seen (s.memory k) s.state) (moves : List (Move A X K)) :
    let t : Shared S P K := (machine M script).run s moves
    Seen (t.memory k) t.state ∨ Past.Pending (Overtaken M script Rival) (Looks starts k)
      ((machine M script).history s moves) := by
  obtain ⟨hinv, hlook, hturn, hact, hkeep⟩ := remembers
  refine Machine.fresh_or_rival (I := fun t : Shared S P K => Inv t.state)
    (J := fun t : Shared S P K => Seen (t.memory k) t.state) sound start ?_ ?_ ?_ moves
  · rintro ⟨s, move, s', out⟩ hc hsound
    have effect : Effect M script s move s' out := commits_effect hc
    cases effect with
    | @other a t out ok => exact hinv ⟨s.state, a, t, out⟩ ok hsound
    | thinks | refused => exact hsound
    | @lands j x p a t out hscript ok => exact hinv ⟨s.state, a, t, out⟩ ok hsound
  · rintro ⟨s, move, s', out⟩ hc hsound ⟨x, rfl, hstarts⟩
    have effect : Effect M script s (.turn k x) s' out := commits_effect hc
    cases effect with
    | thinks hscript | refused hscript =>
      have hseen := hlook x s.state _ hsound hstarts
      rw [hscript] at hseen
      simpa using hseen
    | @lands _ _ p a t out hscript ok =>
      have hseen := hact x s.state _ _ t hsound (congrArg Prod.snd hscript)
      rw [hscript] at hseen
      simpa using hseen
  · rintro ⟨s, move, s', out⟩ hc hsound hrival hseen
    have effect : Effect M script s move s' out := commits_effect hc
    cases effect with
    | @other a t out ok =>
      refine hkeep (s.memory k) ⟨s.state, a, t, out⟩ ok ?_ hseen
      exact fun hr => hrival ⟨_, based_of_ok rfl ok, hr⟩
    | @thinks j x p hscript | @refused j x p a e hscript error =>
      by_cases hj : j = k
      · subst hj
        have hnext := hturn x s.state _ hsound hseen
        rw [hscript] at hnext
        simpa using hnext
      · simpa [Function.update_of_ne (Ne.symm hj)] using hseen
    | @lands j x p a t out hscript ok =>
      by_cases hj : j = k
      · subst hj
        have hnext := hact x s.state _ _ t hsound (congrArg Prod.snd hscript)
        rw [hscript] at hnext
        simpa using hnext
      · have hnext := hkeep (s.memory k) ⟨s.state, a, t, out⟩ ok
          (fun hr => hrival ⟨_, based_of_ok (congrArg Prod.snd hscript) ok, hr⟩) hseen
        simpa [Function.update_of_ne (Ne.symm hj)] using hnext

end Script
