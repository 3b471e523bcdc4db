import CrossChainPingPong.Table.Rules

namespace CrossChainPingPong

inductive Place where
  | parked
  | toSvm (value rally : Nat)
  | held (value : Nat)
  | toEvm (value rally : Nat)
  | dead
  deriving DecidableEq

-- a table with at most one ball: where the ball is, and the counters that decide where it goes
structure Rally where
  place : Place
  evmHolds : Bool
  cap : Nat
  evmRally : Nat
  svmRally : Nat

namespace Rally

def start : Rally := ⟨.parked, false, 0, 0, 0⟩

inductive Step (g : Rally) : Move → Rally → List (Nat × Nat) → Prop
  | serve {m} (here : g.place = .parked) (pos : 0 < m) (le : m ≤ rallyCap) :
      Step g (.serve m)
        ⟨.toSvm fullBall 0, false, m, 0, g.svmRally⟩ [(fullBall, 0)]
  | idle : Step g .idle g []
  | sendBall {v w} (here : g.place = .held v) (pos : 0 < w) :
      Step g (.sendBall w) { g with place := .toEvm w g.svmRally } [(w, g.svmRally)]
  | finish {i v r} (here : g.place = .toEvm v r) (last : v = 0 ∨ g.cap ≤ r + 1) :
      Step g (.receiveEvm i)
        { g with
          place := .parked
          evmHolds := true
          evmRally := r + 1 } []
  | reply {i v r} (here : g.place = .toEvm (v + 1) r) (lt : r + 1 < g.cap) :
      Step g (.receiveEvm i)
        { g with
          place := .toSvm v (r + 1)
          evmHolds := false
          evmRally := r + 1 } [(v, r + 1)]
  | keep {i v r} (here : g.place = .toSvm (v + 1) r) (high : v + 1 ≤ fullBall) (pos : 0 < v)
      (lt : g.svmRally + 1 < rallyCap) :
      Step g (.receiveSvm i)
        { g with
          place := .held v
          svmRally := g.svmRally + 1 } []
  | drop {i v r} (here : g.place = .toSvm (v + 1) r) (high : v + 1 ≤ fullBall)
      (cap : g.svmRally < rallyCap) (last : v = 0 ∨ g.svmRally + 1 = rallyCap) :
      Step g (.receiveSvm i)
        { g with
          place := .dead
          svmRally := g.svmRally + 1 } []

end Rally

end CrossChainPingPong
