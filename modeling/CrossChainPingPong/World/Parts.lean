import CrossChainPingPong.Library.Composed
import CrossChainPingPong.World.System

namespace CrossChainPingPong.World
open Guard

variable {d : Deployment} {s s' : State} {out : List Packet}

def Packet.letter (p : Packet) : Bytes32 × Bytes := (p.guid, p.message)

def Packet.letterFrom (src : Chain) (p : Packet) : Option (Bytes32 × Bytes) :=
  if p.src = src then some p.letter else none

def evmLetter (p : Evm.Sent) : Bytes32 × Bytes := (p.guid, p.message)

def svmLetter (p : Svm.Sent) : Bytes32 × Bytes := (p.guid, p.params.message)

@[simp] theorem letters_evm_evm (s : Evm.Storage) (sent : List Evm.Sent) :
    (sent.map (fromEvm s)).filterMap (Packet.letterFrom .evm) = sent.map evmLetter := by
  rw [List.filterMap_map, ← List.filterMap_eq_map]
  rfl

@[simp] theorem letters_evm_svm (s : Evm.Storage) (sent : List Evm.Sent) :
    (sent.map (fromEvm s)).filterMap (Packet.letterFrom .svm) = [] := by
  rw [List.filterMap_map, List.filterMap_eq_nil_iff]
  exact fun _ _ => rfl

@[simp] theorem letters_svm_svm (sent : List Svm.Sent) :
    (sent.map fromSvm).filterMap (Packet.letterFrom .svm) = sent.map svmLetter := by
  rw [List.filterMap_map, ← List.filterMap_eq_map]
  rfl

@[simp] theorem letters_svm_evm (sent : List Svm.Sent) :
    (sent.map fromSvm).filterMap (Packet.letterFrom .evm) = [] := by
  rw [List.filterMap_map, List.filterMap_eq_nil_iff]
  exact fun _ _ => rfl

def evmPart (d : Deployment) : Machine.Part (machine d) (Evm.machine d.evm) (Bytes32 × Bytes) where
  view := State.evm
  move := evmMove
  item := Packet.letterFrom .evm
  label := evmLetter
  acts c tx hc hmove := by
    obtain ⟨s, a, s', out⟩ := c
    have effect : Effect s a s' out := commits_effect hc
    cases effect with
    | @evm tx' _ evm sent applied =>
      obtain rfl : tx' = tx := Option.some.inj hmove
      exact ⟨sent, applied, letters_evm_evm _ _⟩
    | @deliverEvm i lz value nonce p evm sent here reaches applied =>
      simp only [evmMove, here, Option.map_some, Option.some.injEq] at hmove
      obtain rfl := hmove
      exact ⟨sent, applied, letters_evm_evm _ _⟩
    | svm | deliverSvm => cases hmove
  rests c hc hmove := by
    obtain ⟨s, a, s', out⟩ := c
    have effect : Effect s a s' out := commits_effect hc
    cases effect with
    | evm => cases hmove
    | deliverEvm here => simp [evmMove, here] at hmove
    | svm | deliverSvm => exact ⟨rfl, letters_svm_evm _⟩

def svmPart (d : Deployment) : Machine.Part (machine d) (Svm.machine d.rt) (Bytes32 × Bytes) where
  view := State.svm
  move := svmMove
  item := Packet.letterFrom .svm
  label := svmLetter
  acts c ix hc hmove := by
    obtain ⟨s, a, s', out⟩ := c
    have effect : Effect s a s' out := commits_effect hc
    cases effect with
    | @svm ix' _ svm sent applied =>
      obtain rfl : ix' = ix := Option.some.inj hmove
      exact ⟨sent, applied, letters_svm_svm _⟩
    | @deliverSvm i oapp accounts nonce extraData p svm sent here reaches applied =>
      simp only [svmMove, here, Option.map_some, Option.some.injEq] at hmove
      obtain rfl := hmove
      exact ⟨sent, applied, letters_svm_svm _⟩
    | evm | deliverEvm => cases hmove
  rests c hc hmove := by
    obtain ⟨s, a, s', out⟩ := c
    have effect : Effect s a s' out := commits_effect hc
    cases effect with
    | svm => cases hmove
    | deliverSvm here => simp [svmMove, here] at hmove
    | evm | deliverEvm => exact ⟨rfl, letters_evm_svm _ _⟩

theorem erased {pool : List Packet} {i : Nat} {p : Packet} (here : pool[i]? = some p)
    (out : List Packet) :
    (pool + out : Multiset Packet) = [p] + ((pool.eraseIdx i ++ out : List Packet)) := by
  have hperm := (Pool.erase_perm here).append_right out
  rw [Multiset.coe_add, Multiset.coe_add, Multiset.coe_eq_coe]
  exact hperm.symm

theorem pool_step (c : Commit State (Act d) Packet) (hc : (machine d).Commits c) :
    (c.before.inFlight + c.out : Multiset Packet) = (taken c).toList + c.after.inFlight := by
  obtain ⟨s, a, s', out⟩ := c
  have effect : Effect s a s' out := commits_effect hc
  cases effect with
  | evm | svm =>
    simp only [taken, Option.toList_none, Multiset.coe_nil, zero_add]
    exact Multiset.coe_add _ _
  | deliverEvm here | deliverSvm here =>
    simp only [taken, here]
    exact erased here _

theorem sent_account (owner : Evm.Address) (balance : Evm.Wei) (as : List (Act d)) :
    let h := (machine d).history (start owner balance) as
    (Machine.emitted h : Multiset Packet) =
      h.filterMap taken + ((machine d).run (start owner balance) as).inFlight := by
  intro h
  have haccount := Machine.pool_account State.inFlight taken pool_step (start owner balance) as
  rwa [start, Multiset.coe_nil, zero_add] at haccount

end CrossChainPingPong.World
