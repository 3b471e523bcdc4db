import CrossChainPingPong.Library.Trace
import Mathlib.Logic.Function.Basic

namespace CrossChainPingPong

inductive Chain where
  | evm | svm
  deriving DecidableEq, Repr

structure Ball (G : Type) where
  dst : Chain
  guid : G
  value : Nat
  rally : Nat

-- both sides of the game and the balls between them, with natural numbers for the machine words
structure Table (G : Type) where
  active : Bool
  evmHolds : Bool
  cap : Nat
  evmValue : Nat
  evmRally : Nat
  svmHolds : Bool
  svmValue : Nat
  svmRally : Nat
  flying : List (Ball G)
  seen : G → Bool

inductive Move where
  | serve (maxRallies : Nat)
  | pause
  | idle
  | sendBall (ballValue : Nat)
  | receiveEvm (i : Nat)
  | receiveSvm (i : Nat)

def fullBall : Nat := 100000000000000000000

def rallyCap : Nat := 100

namespace Ball
variable {G : Type}

def message (b : Ball G) : Nat × Nat := (b.value, b.rally)

def toEvm (b : Ball G) : Bool := decide (b.dst = .evm)

def toSvm (b : Ball G) : Bool := decide (b.dst = .svm)

@[simp] theorem toEvm_evm (k : G) (v r : Nat) : toEvm ⟨.evm, k, v, r⟩ = true := rfl

@[simp] theorem toEvm_svm (k : G) (v r : Nat) : toEvm ⟨.svm, k, v, r⟩ = false := rfl

@[simp] theorem toSvm_evm (k : G) (v r : Nat) : toSvm ⟨.evm, k, v, r⟩ = false := rfl

@[simp] theorem toSvm_svm (k : G) (v r : Nat) : toSvm ⟨.svm, k, v, r⟩ = true := rfl

end Ball

namespace Table
variable {G : Type}

def start : Table G where
  active := false
  evmHolds := false
  cap := 0
  evmValue := 0
  evmRally := 0
  svmHolds := false
  svmValue := 0
  svmRally := 0
  flying := []
  seen := fun _ => false

variable [DecidableEq G]

def limit (t : Table G) : Nat := if t.active = true then t.cap else rallyCap

def mark (t : Table G) (k : G) : G → Bool := Function.update t.seen k true

inductive Step (t : Table G) : Move → Table G → List (Ball G) → Prop
  | serve {m k} (idle : t.active = false) (pos : 0 < m) (le : m ≤ rallyCap) :
      Step t (.serve m)
        { t with
          active := true
          evmHolds := false
          cap := m
          evmValue := fullBall
          evmRally := 0
          flying := t.flying ++ [⟨.svm, k, fullBall, 0⟩] } [⟨.svm, k, fullBall, 0⟩]
  | pause (active : t.active = true) : Step t .pause { t with active := false } []
  | idle : Step t .idle t []
  | sendBall {w k} (ball : t.svmHolds = true) (pos : 0 < w) :
      Step t (.sendBall w)
        { t with
          svmHolds := false
          flying := t.flying ++ [⟨.evm, k, w, t.svmRally⟩] } [⟨.evm, k, w, t.svmRally⟩]
  | replay {i k v r} (here : t.flying[i]? = some ⟨.evm, k, v, r⟩) (done : t.seen k = true) :
      Step t (.receiveEvm i) { t with flying := t.flying.eraseIdx i } []
  | finish {i k v r} (here : t.flying[i]? = some ⟨.evm, k, v, r⟩) (fresh : t.seen k = false)
      (free : t.evmHolds = false) (last : v = 0 ∨ t.limit ≤ r + 1) :
      Step t (.receiveEvm i)
        { t with
          active := false
          evmHolds := true
          cap := t.limit
          evmValue := v
          evmRally := r + 1
          flying := t.flying.eraseIdx i
          seen := t.mark k } []
  | reply {i k j v r} (here : t.flying[i]? = some ⟨.evm, k, v + 1, r⟩) (fresh : t.seen k = false)
      (free : t.evmHolds = false) (lt : r + 1 < t.limit) :
      Step t (.receiveEvm i)
        { t with
          active := true
          evmHolds := false
          cap := t.limit
          evmValue := v
          evmRally := r + 1
          flying := t.flying.eraseIdx i ++ [⟨.svm, j, v, r + 1⟩]
          seen := t.mark k } [⟨.svm, j, v, r + 1⟩]
  | keep {i k v r} (here : t.flying[i]? = some ⟨.svm, k, v + 1, r⟩) (high : v + 1 ≤ fullBall)
      (pos : 0 < v) (lt : t.svmRally + 1 < rallyCap) :
      Step t (.receiveSvm i)
        { t with
          svmHolds := true
          svmValue := v
          svmRally := t.svmRally + 1
          flying := t.flying.eraseIdx i } []
  | drop {i k v r} (here : t.flying[i]? = some ⟨.svm, k, v + 1, r⟩) (high : v + 1 ≤ fullBall)
      (cap : t.svmRally < rallyCap) (last : v = 0 ∨ t.svmRally + 1 = rallyCap) :
      Step t (.receiveSvm i)
        { t with
          svmHolds := false
          svmValue := v
          svmRally := t.svmRally + 1
          flying := t.flying.eraseIdx i } []

abbrev History (G : Type) := List (Commit (Table G) Move (Ball G))

def sendsStored (c : Commit (Table G) Move (Ball G)) : Bool :=
  match c.action with
  | .sendBall w => decide (w = c.before.svmValue)
  | _ => true

end Table

namespace Move

def isServe : Move → Bool
  | .serve _ => true
  | _ => false

def isPause : Move → Bool
  | .pause => true
  | _ => false

def isReceive : Move → Bool
  | .receiveEvm _ | .receiveSvm _ => true
  | _ => false

end Move
end CrossChainPingPong
