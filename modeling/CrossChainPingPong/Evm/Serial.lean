import CrossChainPingPong.Evm.Delivery
import CrossChainPingPong.Evm.Invariant
import CrossChainPingPong.Evm.Pause
import CrossChainPingPong.Evm.Reentry

namespace CrossChainPingPong.Evm
open Guard

variable {I : Immutables} {owns : Address → Prop} {s s' t u : Storage} {out : List Sent}

def Tx.Passes (owns : Address → Prop) (tx : Tx I) : Prop :=
  ∀ sender owner, tx.sender = some sender → owns sender → tx.newOwner = some owner → owns owner

-- whoever owns the contract makes no call while serve waits for the refund to its caller
inductive Guarded (owns : Address → Prop) : Call (Tx I) → Prop
  | mk {tx callbacks}
      (refund : tx.isServe = true →
        ∀ call ∈ callbacks, ∀ owner, owns owner → call.action.sender ≠ some owner)
      (passes : tx.Passes owns)
      (inside : ∀ call ∈ callbacks, Guarded owns call) : Guarded owns (.mk tx callbacks)

theorem owns_outcome {tx : Tx I} (passes : tx.Passes owns) (ho : Outcome s tx s' out)
    (owned : owns s.owner) : owns s'.owner := by
  by_cases hsender : tx.sender = some s.owner
  · rw [ho.owner_after]
    cases hnew : tx.newOwner with
    | none => exact owned
    | some owner => exact passes s.owner owner hsender owned hnew
  · rw [ho.owner_kept hsender]
    exact owned

theorem enter_of_not_serve {tx : Tx I} (h : tx.isServe = false) (s : Storage) :
    enter tx s = apply tx s ∧ resume tx s = s := by
  cases tx with
  | serve => cases h
  | _ => exact ⟨rfl, rfl⟩

theorem apply_unlocked {tx : Tx I} (locked : Locked s) (stranger : tx.sender ≠ some s.owner)
    (h : apply tx s = .ok (t, out)) :
    apply tx (s.setHasBall false) = .ok (t.setHasBall false, out) := by
  cases tx with
  | serve =>
    cases apply_outcome h with
    | serve idle => exact absurd (idle.symm.trans locked.active) (by decide)
    | aside aside => cases aside
  | pauseGame sender =>
    cases apply_outcome h with
    | pauseGame howner => exact absurd (congrArg some howner) stranger
    | aside aside => cases aside
  | setPeer | setEnforcedOptions | setDelegate | transferOwnership | renounceOwnership =>
    exact absurd (administers_ok rfl h).1 stranger
  | withdraw sender recipient amount accepted =>
    exact absurd (congrArg some (withdraw_ok h).1) stranger
  | sendBackWithValue lz msg message options =>
    rw [apply, sendBackWithValue_external msg.external] at h
    cases h
  | fund msg =>
    simp only [apply, fund, bind_eq_ok, revertIf_eq_ok, pure_eq_ok, exists_const, Prod.mk.injEq] at h ⊢
    obtain ⟨hvalue, rfl, rfl⟩ := h
    exact ⟨hvalue, rfl, rfl⟩
  | receive msg =>
    cases (apply_receive s msg).symm.trans h
    exact apply_receive (s.setHasBall false) msg
  | fallback msg =>
    cases (apply_fallback s msg).symm.trans h
    exact apply_fallback (s.setHasBall false) msg
  | lzReceive lz value origin guid message =>
    cases apply_outcome h with
    | aside aside => cases aside
    | finish peer fresh free | reply peer fresh free =>
      exact absurd (free.symm.trans locked.ball) (by decide)
    | replay peer done =>
      have hadmits : lz.admits = true := by
        simp only [apply, bind_eq_ok, revertIf_eq_ok, exists_const] at h
        exact Bool.eq_true_of_not_eq_false h.1
      cases (apply_replay message hadmits peer done).symm.trans h
      exact apply_replay message hadmits peer done

theorem enter_unlocked {tx : Tx I} (locked : Locked s) (stranger : tx.sender ≠ some s.owner)
    (h : enter tx s = .ok (t, out)) :
    apply tx (s.setHasBall false) = .ok ((resume tx t).setHasBall false, out) := by
  cases hserve : tx.isServe with
  | true =>
    cases tx with
    | serve lz msg maxRallies options =>
      exact absurd ((enter_serve h).1.symm.trans locked.active) (by decide)
    | _ => cases hserve
  | false =>
    rw [(enter_of_not_serve hserve s).1] at h
    rw [(enter_of_not_serve hserve t).2]
    exact apply_unlocked locked stranger h

theorem serial_singleton {tx : Tx I} (h : apply tx s = .ok (t, out)) :
    (machine I).Serial [tx] s (t, out) := Machine.Serial.of_ok (M := machine I) h

theorem serve_serial {lz : OApp} {msg : Msg I} {maxRallies : Uint256} {options : Bytes}
    {callbacks : List (Call (Tx I))}
    (strangers : ∀ call ∈ callbacks, call.action.sender ≠ some s.owner)
    (h : (reentrant I).apply (.mk (.serve lz msg maxRallies options) callbacks) s = .ok (t, out)) :
    t.owner = s.owner ∧
      (machine I).Serial (Call.actions (.mk (.serve lz msg maxRallies options) callbacks)) s
        (t, out) := by
  obtain ⟨u, first, henter, rfl, rfl⟩ := Reentrant.apply_eq_ok.mp h
  obtain ⟨-, hlocked, howner, sent, rfl, hplain⟩ := enter_serve henter
  have hmirror (tx : Tx I) (v w v' : Storage) (nested : List Sent)
      (stranger : tx.sender ≠ some s.owner) (related : SameGame u v ∧ w = v.setHasBall false)
      (henter : (reentrant I).enter tx v = .ok (v', nested)) :
      tx.callsOut = false ∧ ∃ w', (machine I).apply tx w = .ok (w', nested) ∧
        SameGame u (resume tx v') ∧ w' = (resume tx v').setHasBall false := by
    obtain ⟨hsame, rfl⟩ := related
    have hv : v.owner = s.owner := hsame.owner.trans howner
    rw [← hv] at stranger
    have hv' := hsame.locked hlocked
    obtain ⟨hatomic, hstep, -⟩ := enter_locked hv' stranger henter
    exact ⟨hatomic, _, enter_unlocked hv' stranger henter, hsame.trans hstep, rfl⟩
  obtain ⟨t', ⟨hsame, rfl⟩, hserial⟩ :=
    Reentrant.applyAll_mirror hmirror ⟨SameGame.refl u, rfl⟩ callbacks strangers
  refine ⟨hsame.owner.trans howner, ?_⟩
  exact ((serial_singleton hplain).append hserial).mono ((Call.map_action_sublist callbacks).cons_cons _)

theorem call_serial {call : Call (Tx I)} (guarded : Guarded owns call) :
    ∀ s t out, owns s.owner → (reentrant I).apply call s = .ok (t, out) →
      owns t.owner ∧ (machine I).Serial call.actions s (t, out) := by
  induction guarded with
  | @mk tx callbacks refund passes inside ih =>
    intro s t out owned h
    cases hserve : tx.isServe with
    | true =>
      cases tx with
      | serve lz msg maxRallies options =>
        obtain ⟨howner, hserial⟩ :=
          serve_serial (fun call hcall => refund hserve call hcall s.owner owned) h
        exact ⟨howner ▸ owned, hserial⟩
      | _ => cases hserve
    | false =>
      obtain ⟨u, first, henter, hstate, hout⟩ := Reentrant.apply_eq_ok.mp h
      have hplain : apply tx s = .ok (u, first) := (enter_of_not_serve hserve s).1.symm.trans henter
      have howner : owns u.owner := owns_outcome passes (apply_outcome hplain) owned
      have hresume (v : Storage) : (reentrant I).resume tx v = v := (enter_of_not_serve hserve v).2
      have hnested := Reentrant.applyAll_serial (C := reentrant I) (M := machine I)
        (P := fun v => owns v.owner) howner ih
      rw [hresume] at hstate
      subst hstate hout
      rw [Call.actions]
      split
      case isTrue =>
        exact ⟨hnested.1, (serial_singleton hplain).append hnested.2⟩
      case isFalse =>
        refine ⟨howner, ?_⟩
        rw [List.append_nil]
        exact (serial_singleton hplain).mono (List.singleton_sublist.mpr List.mem_cons_self)

theorem reentrant_runs_are_serial (I : Immutables) (owner : Address) (balance : Wei)
    (calls : List (Call (Tx I))) (owns : Address → Prop) (first : owns owner)
    (guarded : ∀ call ∈ calls, Guarded owns call) :
    let start := deployed owner balance
    let result := (reentrant I).applyAll calls start
    Consistent result.2 result.1 ∧ ∃ txs, txs.Sublist (Call.actionsAll calls) ∧
      result = ((machine I).run start txs, Machine.emitted ((machine I).history start txs)) := by
  intro start result
  obtain ⟨-, txs, hsub, hrun, hout⟩ := Reentrant.applyAll_serial (C := reentrant I)
    (M := machine I) (P := fun s => owns s.owner) (s := start) first
    (fun call hcall => call_serial (guarded call hcall))
  have hresult : result =
      ((machine I).run start txs, Machine.emitted ((machine I).history start txs)) :=
    Prod.ext hrun.symm hout.symm
  refine ⟨?_, txs, hsub, hresult⟩
  rw [hresult]
  exact consistent_run owner balance txs

theorem passes_of_none {tx : Tx I} (keeps : tx.newOwner = none) : tx.Passes owns := by
  intro sender owner hsender howns hnew
  cases keeps.symm.trans hnew

theorem guarded_leaf {tx : Tx I} (passes : tx.Passes owns) : Guarded owns (.mk tx []) :=
  .mk (fun _ _ hcall => absurd hcall List.not_mem_nil) passes
    fun _ hcall => absurd hcall List.not_mem_nil

def reentrantRun : List (Call (Tx sampleImmutables)) :=
  [.mk (sampleServe 10) [.mk (sampleServe 9) [], .mk (.fund samplePlayer) []],
    .mk (.withdraw 3 8 5 true)
      [.mk (.transferOwnership 3 4) [], .mk (.pauseGame 4) [], .mk (sampleServe 9) []]]

theorem reentrantRun_serial :
    let result := (reentrant sampleImmutables).applyAll reentrantRun (deployed 3 0)
    result.2.length = 2 ∧ Consistent result.2 result.1 ∧
      ∃ txs, txs.Sublist (Call.actionsAll reentrantRun) ∧
        result = ((machine sampleImmutables).run (deployed 3 0) txs,
          Machine.emitted ((machine sampleImmutables).history (deployed 3 0) txs)) := by
  have guarded : ∀ call ∈ reentrantRun, Guarded (fun a => a = 3 ∨ a = 4) call := by
    simp only [reentrantRun, List.forall_mem_cons]
    refine ⟨.mk ?_ (passes_of_none rfl) ?_, .mk nofun (passes_of_none rfl) ?_, nofun⟩
    · simp [Call.action, Tx.sender, sampleServe, samplePlayer]
    · simp only [List.forall_mem_cons]
      exact ⟨guarded_leaf (passes_of_none rfl), guarded_leaf (passes_of_none rfl), nofun⟩
    · simp only [List.forall_mem_cons]
      have hpasses : (Tx.transferOwnership 3 4 : Tx sampleImmutables).Passes fun a => a = 3 ∨ a = 4 := by
        rintro _ _ - - ⟨⟩
        exact .inr rfl
      exact ⟨guarded_leaf hpasses, guarded_leaf (passes_of_none rfl), guarded_leaf (passes_of_none rfl),
        nofun⟩
  exact ⟨by decide +kernel, reentrant_runs_are_serial sampleImmutables 3 0 reentrantRun
    (fun a => a = 3 ∨ a = 4) (.inl rfl) guarded⟩

end CrossChainPingPong.Evm
