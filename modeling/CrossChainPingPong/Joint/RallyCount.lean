import CrossChainPingPong.Joint.SingleBall
import CrossChainPingPong.Rally.Counting

namespace CrossChainPingPong.Joint
open Machine

variable {d : Deployment} {as : List (Act d)}

def CountsReceived (c : Commit State (Act d) Packet) : Prop :=
  match c.action with
  | .deliverEvm i .. => ∀ p, c.before.inFlight[i]? = some p →
      c.before.evm.processedGuid p.guid = false →
      c.after.evm.rallyCount.toNat = p.ball.rally + 1
  | .deliverSvm i .. => ∀ p, c.before.inFlight[i]? = some p →
      c.after.svmRallyCount = p.ball.rally + 1
  | _ => True

def CountsAgree (h : List (Commit State (Act d) Packet)) : Prop :=
  (emitted h).map (fun p => p.ball.rally) = List.range (emitted h).length ∧
    ∀ c ∈ h, CountsReceived c

def firstReceive (c : Commit State (Act d) Packet) : Bool :=
  match c.action with
  | .deliverSvm .. => decide (c.before.svmRallyCount = 0)
  | _ => true

theorem firstReceive_view (c : Commit State (Act d) Packet) :
    Rally.FirstReceive (view c) ↔ firstReceive c = true := by
  obtain ⟨s, a, s', out⟩ := c
  cases a with
  | evm tx isLocal => cases tx <;> exact ⟨fun _ => rfl, nofun⟩
  | svm ix isLocal => cases ix <;> exact ⟨fun _ => rfl, nofun⟩
  | deliverEvm => exact ⟨fun _ => rfl, nofun⟩
  | deliverSvm i => exact ⟨fun hf => decide_eq_true (hf i rfl), fun hf _ _ => of_decide_eq_true hf⟩

theorem agrees_view {c : Commit State (Act d) Packet} (hr : Rallies c) :
    Rally.Agrees (view c) ↔ CountsReceived c := by
  have hstep := hr.step
  have hcons := hr.conserved
  have hunseen := hr.unseen
  obtain ⟨s, a, s', out⟩ := c
  cases a with
  | evm tx isLocal => cases tx <;> exact ⟨fun _ => trivial, fun _ => trivial⟩
  | svm ix isLocal => cases ix <;> exact ⟨fun _ => trivial, fun _ => trivial⟩
  | deliverEvm i lz value nonce =>
    obtain ⟨b, hb, hplace⟩ := Table.place_of_receiveEvm hcons hstep
    have hnew := hunseen b (List.mem_of_getElem? hb)
    obtain ⟨p, hp, rfl⟩ := Option.map_eq_some_iff.mp ((List.getElem?_map ..).symm.trans hb)
    constructor
    · intro ha q hq _
      obtain rfl := Option.some.inj (hp.symm.trans hq)
      exact ha _ _ hplace
    · intro hcount v r hv
      cases hplace.symm.trans hv
      exact hcount p hp hnew
  | deliverSvm i oapp accounts nonce extraData =>
    obtain ⟨b, hb, hplace⟩ := Table.place_of_receiveSvm hcons hstep
    obtain ⟨p, hp, rfl⟩ := Option.map_eq_some_iff.mp ((List.getElem?_map ..).symm.trans hb)
    constructor
    · intro ha q hq
      obtain rfl := Option.some.inj (hp.symm.trans hq)
      exact ha _ _ hplace
    · intro hcount v r hv
      cases hplace.symm.trans hv
      exact hcount p hp

theorem serves_view (h : List (Commit State (Act d) Packet)) :
    Rally.serves (h.map view) = h.countP fun c => c.action.isServe :=
  countP_view isServe_move h

theorem counts_agree_iff (d : Deployment) (as : List (Act d))
    (single : ((machine d).history (fresh d) as).countP (fun c => c.action.isServe) ≤ 1)
    (noPause : ∀ c ∈ (machine d).history (fresh d) as, c.action.isPauseGame = false)
    (distinct : GuidsDistinct ((machine d).history (fresh d) as)) :
    CountsAgree ((machine d).history (fresh d) as) ↔
      ∀ c ∈ (machine d).history (fresh d) as, firstReceive c = true := by
  have hiff := Rally.counts_iff (single_ball_fresh distinct noPause)
    ((serves_view _).trans_le single)
  have hnumbered (out : List Packet) : Rally.Numbered (out.map Packet.content) ↔
      out.map (fun p => p.ball.rally) = List.range out.length := by
    rw [Rally.Numbered, List.map_map, List.length_map]
    rfl
  rw [emitted_view, hnumbered, List.forall_mem_map, List.forall_mem_map] at hiff
  simp only [firstReceive_view] at hiff
  rw [← hiff, CountsAgree]
  refine and_congr_right fun _ => forall₂_congr fun c hc => ?_
  exact (agrees_view (rallies_of_mem distinct noPause hc)).symm

def driftingRun : List (Act sampleDeployment) :=
  [sampleServe 7 100, reachesSvm sampleDeployment,
    returnsBall sampleDeployment 5 99999999999999999999, reachesEvm sampleDeployment 9,
    reachesSvm sampleDeployment, returnsBall sampleDeployment 6 99999999999999999997]

theorem counts_disagree_in_driftingRun :
    ¬ CountsAgree ((machine sampleDeployment).history (fresh sampleDeployment) driftingRun) := by
  intro hagree
  have hfirst := (counts_agree_iff sampleDeployment driftingRun (by decide +kernel)
    (by decide +kernel) (by decide +kernel)).mp hagree
  exact absurd hfirst (by decide +kernel)

theorem counts_not_always_agree : ¬ ∀ (d : Deployment) (as : List (Act d)),
    ((machine d).history (fresh d) as).countP (fun c => c.action.isServe) ≤ 1 →
    (∀ c ∈ (machine d).history (fresh d) as, c.action.isPauseGame = false) →
    (∀ c ∈ (machine d).history (fresh d) as, sendsStored c = true) →
    GuidsDistinct ((machine d).history (fresh d) as) →
    CountsAgree ((machine d).history (fresh d) as) := by
  intro h
  have hnumbered := (h sampleDeployment driftingRun (by decide +kernel) (by decide +kernel)
    (by decide +kernel) (by decide +kernel)).1
  exact absurd hnumbered (by decide +kernel)

end CrossChainPingPong.Joint
