import CrossChainPingPong.Joint.Games
import CrossChainPingPong.Rally.Course

namespace CrossChainPingPong.Joint
open Machine

variable {d : Deployment} {as : List (Act d)} {m : Uint256} {c : Commit State (Act d) Packet}
  {pre seg : List (Commit State (Act d) Packet)}

def Act.isDelivery : Act d → Bool
  | .deliverEvm .. | .deliverSvm .. => true
  | _ => false

def CapBinds (m : Nat) (h : List (Commit State (Act d) Packet)) : Prop :=
  (h.countP fun c => c.action.isDelivery) ≤ m ∧ ∀ c ∈ h, c.after.evm.rallyCount.toNat ≤ m

instance (m : Nat) (h : List (Commit State (Act d) Packet)) : Decidable (CapBinds m h) :=
  inferInstanceAs (Decidable (_ ∧ _))

theorem isReceive_move (a : Act d) : a.move.isReceive = a.isDelivery := by
  cases a with
  | evm tx isLocal => cases tx <;> rfl
  | svm ix isLocal => cases ix <;> rfl
  | deliverEvm | deliverSvm => rfl

theorem deliveries_view (h : List (Commit State (Act d) Packet)) :
    Rally.deliveries (h.map view) = h.countP fun c => c.action.isDelivery :=
  countP_view isReceive_move h

theorem within_view (m : Nat) (h : List (Commit State (Act d) Packet)) :
    Rally.Within m (h.map view) ↔ CapBinds m h := by
  rw [Rally.Within, deliveries_view, List.forall_mem_map]
  rfl

structure Opens (c : Commit State (Act d) Packet) (m : Uint256) : Prop where
  serve : c.action.served = some m
  quiet : c.before.inPlay = 0

theorem Opens.accepted (opens : Opens c m) (hs : Sound d c.before) (hc : (machine d).Commits c) :
    Table.Conserved 0 c.before.table ∧ 0 < m.toNat ∧ m.toNat ≤ rallyCap := by
  have hstep := refines_effect hs (commits_effect hc)
  rw [served_move opens.serve] at hstep
  obtain ⟨idle, pos, le⟩ := Table.serve_accepted hstep
  exact ⟨Table.conserved_of_quiet idle ((table_inPlay _).trans opens.quiet), pos, le⟩

theorem Opens.trace (opens : Opens c m)
    (split : (machine d).history (fresh d) as = pre ++ c :: seg)
    (undisturbed : ∀ e ∈ seg, e.action.isServe = false ∧ e.action.isPauseGame = false)
    (distinct : GuidsDistinct ((machine d).history (fresh d) as)) :
    let s := (machine d).run (fresh d) as
    Table.Conserved 0 s.table ∧ c.after.evm.rallyCount.toNat = 0 ∧
      Trace Rally.Step (Rally.served m.toNat c.before.svmRallyCount) (seg.map view) s.table.rally ∧
      ∀ e ∈ seg.map view, e.action.isServe = false := by
  obtain ⟨bs, cs, rfl, -, hrun, hcommit, rfl, -⟩ := (machine d).history_split split
  have hsound : Sound d c.before := hrun ▸ (simulation d).inv_run (sound_fresh d) bs
  have hhist := (machine d).history_cons_of_commits hcommit cs
  have hcons := (opens.accepted hsound hcommit).1
  rw [← hrun] at hhist hcons
  obtain ⟨hend, hafter, -, htrace, hnoServe⟩ :=
    served_trace hcons distinct hhist opens.serve undisturbed
  rw [← run_append] at hend htrace
  rw [hrun] at hafter htrace
  exact ⟨hend, congrArg Rally.evmRally hafter, htrace, hnoServe⟩

theorem capBinds_cons (opens : Opens c m) (start : c.after.evm.rallyCount.toNat = 0) (n : Nat) :
    CapBinds n (c :: seg) ↔ CapBinds n seg := by
  have hdelivery : c.action.isDelivery = false := by
    rw [← isReceive_move, served_move opens.serve]
    rfl
  rw [CapBinds, CapBinds, List.countP_cons_of_neg (by simp [hdelivery]), List.forall_mem_cons, start]
  simp

theorem cap_binds_iff (d : Deployment) (as : List (Act d))
    (pre seg : List (Commit State (Act d) Packet)) (c : Commit State (Act d) Packet) (m : Uint256)
    (split : (machine d).history (fresh d) as = pre ++ c :: seg)
    (opens : Opens c m)
    (undisturbed : ∀ e ∈ seg, e.action.isServe = false ∧ e.action.isPauseGame = false)
    (distinct : GuidsDistinct ((machine d).history (fresh d) as)) :
    (Rally.CapFits m.toNat c.before.svmRallyCount → CapBinds m.toNat (c :: seg)) ∧
      ((∀ e ∈ seg, sendsStored e = true) → Finished d ((machine d).run (fresh d) as) →
        CapBinds m.toNat (c :: seg) → Rally.CapFits m.toNat c.before.svmRallyCount) := by
  have hmem : c ∈ (machine d).history (fresh d) as := by simp [split]
  have hsound : Sound d c.before := (simulation d).inv_before (sound_fresh d) hmem
  obtain ⟨-, hpos, hle⟩ := opens.accepted hsound ((machine d).commits_of_mem hmem)
  obtain ⟨hend, hstart, htrace, hnoServe⟩ := opens.trace split undisturbed distinct
  rw [capBinds_cons opens hstart, ← within_view]
  constructor
  · intro fits
    exact Rally.within_trace htrace hnoServe fits hpos hle
  · intro honest finished within
    have hfinal : Sound d ((machine d).run (fresh d) as) :=
      (simulation d).inv_run (sound_fresh d) as
    have hreturns := returns_trace htrace honest
    have hstuck := next_of_finished hfinal hend finished
    exact Rally.fits_of_trace htrace hnoServe hreturns hstuck within hle

def fiveRallyGame : List (Act sampleDeployment) :=
  [sampleServe 7 5,
    reachesSvm sampleDeployment, returnsBall sampleDeployment 1 99999999999999999999,
    reachesEvm sampleDeployment 11,
    reachesSvm sampleDeployment, returnsBall sampleDeployment 2 99999999999999999997,
    reachesEvm sampleDeployment 12,
    reachesSvm sampleDeployment, returnsBall sampleDeployment 3 99999999999999999995,
    reachesEvm sampleDeployment 13,
    reachesSvm sampleDeployment, returnsBall sampleDeployment 4 99999999999999999993,
    reachesEvm sampleDeployment 14]

def fiveRallyHistory : List (Commit State (Act sampleDeployment) Packet) :=
  (machine sampleDeployment).history (fresh sampleDeployment) fiveRallyGame

theorem fiveRallyHistory_ne_nil : fiveRallyHistory ≠ [] :=
  List.ne_nil_of_length_pos (by decide +kernel)

theorem cap_not_binding_in_fiveRallyGame : ¬ CapBinds 5 fiveRallyHistory := by
  intro binds
  have hopens : Opens (fiveRallyHistory.head fiveRallyHistory_ne_nil) 5 :=
    ⟨by decide +kernel, by decide +kernel⟩
  have hfits := (cap_binds_iff sampleDeployment fiveRallyGame [] fiveRallyHistory.tail
    (fiveRallyHistory.head fiveRallyHistory_ne_nil) 5
    (List.cons_head_tail fiveRallyHistory_ne_nil).symm hopens (by decide +kernel)
    (by decide +kernel)).2 (by decide +kernel) (finished_of_inPlay (by decide +kernel))
    (by rw [List.cons_head_tail]; exact binds)
  exact absurd hfits (by decide +kernel)

theorem cap_not_always_binding : ¬ ∀ (d : Deployment) (as : List (Act d))
    (pre seg : List (Commit State (Act d) Packet)) (c : Commit State (Act d) Packet) (m : Uint256),
    (machine d).history (fresh d) as = pre ++ c :: seg →
    c.action.served = some m →
    (∀ e ∈ seg, e.action.isServe = false ∧ e.action.isPauseGame = false) →
    GuidsDistinct ((machine d).history (fresh d) as) →
    CapBinds m.toNat (c :: seg) := by
  intro h
  have hbinds := h sampleDeployment fiveRallyGame [] fiveRallyHistory.tail
    (fiveRallyHistory.head fiveRallyHistory_ne_nil) 5
    (List.cons_head_tail fiveRallyHistory_ne_nil).symm (by decide +kernel) (by decide +kernel)
    (by decide +kernel)
  exact absurd hbinds (by decide +kernel)

end CrossChainPingPong.Joint
