import CrossChainPingPong.Library.Past
import CrossChainPingPong.Svm.Outcome

namespace CrossChainPingPong.Svm

def Unsent (h : History) : Prop :=
  Past.Pending (fun c => c.action.isReceive = true ∧ c.after.holdsBall = true)
    (fun d => d.action.isSend = true) h

structure NeverOverwritten (h : History) : Prop where
  alternates : Past.Alternates (fun c => c.action.isReceive = true ∧ c.after.holdsBall = true)
    (fun e => e.action.isReceive = true) (fun d => d.action.isSend = true) h
  unheld : ∀ c ∈ h, c.action.isReceive = true → c.before.holdsBall = false

variable {rt : Runtime} {l l' : Ledger} {ix : Ix} {out : List Sent} {h : History}

theorem holdsBall_of_send (ho : Outcome rt l ix l' out) (hs : ix.isSend = true) :
    l.holdsBall = true ∧ l'.holdsBall = false := by
  cases ho with
  | sendBall game known running ball =>
    simp only [Ledger.holdsBall, game, Option.elim_some, ball, and_self]
  | _ => cases hs

theorem holdsBall_of_close (ho : Outcome rt l ix l' out) (hc : ix.isClose = true) :
    l'.holdsBall = false := by
  cases ho with
  | closeGame => rfl
  | _ => cases hc

theorem holdsBall_kept (ho : Outcome rt l ix l' out) (hr : ix.isReceive = false)
    (hs : ix.isSend = false) (hc : ix.isClose = false) : l'.holdsBall = l.holdsBall := by
  cases ho with
  | initStore absent => simp only [Ledger.holdsBall, absent, Option.elim_some, Option.elim_none,
      GameState.fresh]
  | setPeerAddress | setEnforcedOptions | pauseGame | resumeGame => rfl
  | closeGame => cases hc
  | sendBall => cases hs
  | lzReceive => cases hr

def Spares (c : Commit Ledger Ix Sent) : Prop :=
  c.action.isReceive = true ∨ c.action.isClose = true → c.before.holdsBall = false

theorem neverOverwritten_nil : NeverOverwritten [] where
  alternates := Past.alternates_iff.mpr (Past.all_nil _)
  unheld _ hc := absurd hc List.not_mem_nil

theorem neverOverwritten_concat {c : Commit Ledger Ix Sent} (never : NeverOverwritten h)
    (free : c.action.isReceive = true → ¬ Unsent h ∧ c.before.holdsBall = false) :
    NeverOverwritten (h ++ [c]) where
  alternates := by
    refine Past.alternates_iff.mpr (Past.all_concat.mpr ⟨Past.alternates_iff.mp never.alternates, ?_⟩)
    exact fun hr => (free hr).1
  unheld := by
    intro e he hr
    rcases List.mem_append.mp he with he | he
    · exact never.unheld e he hr
    · obtain rfl := List.mem_singleton.mp he
      exact (free hr).2

theorem unsent_step {c : Commit Ledger Ix Sent} (unsent : Unsent h ↔ c.before.holdsBall = true)
    (ho : Outcome rt c.before c.action c.after c.out) (spares : Spares c) :
    Unsent (h ++ [c]) ↔ c.after.holdsBall = true := by
  have hunsent : Unsent (h ++ [c]) ↔ (c.action.isReceive = true ∧ c.after.holdsBall = true) ∨
      (Unsent h ∧ ¬ c.action.isSend = true) := Past.pending_concat
  obtain ⟨l, ix, l', out⟩ := c
  rw [hunsent, unsent]
  cases ix with
  | lzReceive =>
    have hfree : l.holdsBall = false := spares (.inl rfl)
    simp [Ix.isReceive, hfree]
  | sendBall => simp [Ix.isReceive, Ix.isSend, holdsBall_of_send ho rfl]
  | closeGame =>
    have hfree : l.holdsBall = false := spares (.inr rfl)
    simp [Ix.isReceive, hfree, holdsBall_of_close ho rfl]
  | initStore | setPeerConfig | pauseGame | resumeGame =>
    simp [Ix.isReceive, Ix.isSend, holdsBall_kept ho rfl rfl rfl]

theorem neverOverwritten_of_spares {ixs : List Ix}
    (spares : ∀ c ∈ (machine rt).history Ledger.empty ixs, Spares c) :
    NeverOverwritten ((machine rt).history Ledger.empty ixs) := by
  refine (((machine rt).trace Ledger.empty ixs).rule (P := fun h l =>
    NeverOverwritten h ∧ (Unsent h ↔ l.holdsBall = true)) ⟨neverOverwritten_nil, ?_⟩ ?_ spares).1
  · exact iff_of_false Past.not_pending_nil (by simp [Ledger.holdsBall, Ledger.empty])
  · rintro h c ⟨hnever, hunsent⟩ hc hspares
    refine ⟨neverOverwritten_concat hnever fun hr => ?_, unsent_step hunsent (apply_outcome hc) hspares⟩
    have hfree := hspares (.inl hr)
    exact ⟨fun hu => absurd (hunsent.mp hu) (by simp [hfree]), hfree⟩

-- two serves of the other chain, both verified
def secondServeRun : List Ix :=
  sampleSetup ++ [sampleReceive 100000000000000000000 0,
    .lzReceive (obligingOapp 0) []
      ⟨40161, 6, 2, 9, PingPongMessage.encode ⟨100000000000000000000, 0⟩, []⟩]

theorem ball_overwritten_in_secondServeRun : ¬ ∀ (rt : Runtime) (ixs : List Ix),
    NeverOverwritten ((machine rt).history Ledger.empty ixs) := by
  intro h
  have hunheld := (h sampleRuntime secondServeRun).unheld
  have hmem : (true, true) ∈ ((machine sampleRuntime).history Ledger.empty secondServeRun).map
      (fun c => (c.action.isReceive, c.before.holdsBall)) := by
    decide +kernel
  obtain ⟨c, hc, heq⟩ := List.mem_map.mp hmem
  obtain ⟨hr, hball⟩ := Prod.mk.inj heq
  exact absurd (hball.symm.trans (hunheld c hc hr)) (by decide)

end CrossChainPingPong.Svm
