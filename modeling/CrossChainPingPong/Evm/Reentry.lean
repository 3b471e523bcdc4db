import CrossChainPingPong.Library.Reentry
import CrossChainPingPong.Evm.Outcome

namespace CrossChainPingPong.Evm
open Guard

variable {I : Immutables}

def enter : Tx I → Storage → Except Revert (Storage × List Sent)
  | .serve lz msg maxRallies options, s => do
      let (s, message, combinedOptions) ← serveOpen I lz msg.sender msg.value maxRallies options s
      let (s, sent) ← lzSend I lz message combinedOptions ⟨msg.value, 0⟩ msg.sender s
      pure (s, [sent])
  | tx, s => apply tx s

-- serve refunds its caller and withdraw calls its recipient; what is left of the fee of a reply
-- goes to the contract itself
def Tx.callsOut : Tx I → Bool
  | .serve .. => true
  | .withdraw _ recipient _ _ => decide (recipient ≠ I.self)
  | _ => false

def resume : Tx I → Storage → Storage
  | .serve .., s => s.setHasBall false
  | _, s => s

def reentrant (I : Immutables) : Reentrant Storage (Tx I) Revert Sent where
  enter := enter
  callsOut := Tx.callsOut
  resume := resume

theorem alone_reentrant : (reentrant I).alone = machine I := by
  refine congrArg Machine.mk (funext fun tx => funext fun s => ?_)
  cases tx with
  | serve lz msg maxRallies options =>
    simp only [reentrant, enter, resume, apply, serve, bind_assoc, pure_bind]
  | _ => exact bind_pure _

structure SameGame (s t : Storage) : Prop where
  ballValue : t.ballValue = s.ballValue
  rallyCount : t.rallyCount = s.rallyCount
  gameState : t.gameState = s.gameState
  processedGuid : t.processedGuid = s.processedGuid
  owner : t.owner = s.owner

structure Locked (s : Storage) : Prop where
  active : s.gameState.gameActive = true
  ball : s.gameState.hasBall = true

variable {s s' t u : Storage} {out : List Sent}

theorem SameGame.refl (s : Storage) : SameGame s s := ⟨rfl, rfl, rfl, rfl, rfl⟩

theorem SameGame.locked (same : SameGame s t) (locked : Locked s) : Locked t := by
  obtain ⟨hactive, hball⟩ := locked
  rw [← same.gameState] at hactive hball
  exact ⟨hactive, hball⟩

theorem SameGame.trans (first : SameGame s t) (second : SameGame t u) : SameGame s u where
  ballValue := second.ballValue.trans first.ballValue
  rallyCount := second.rallyCount.trans first.rallyCount
  gameState := second.gameState.trans first.gameState
  processedGuid := second.processedGuid.trans first.processedGuid
  owner := second.owner.trans first.owner

theorem SameGame.setHasBall (same : SameGame s t) (b : Bool) :
    SameGame (s.setHasBall b) (t.setHasBall b) where
  ballValue := same.ballValue
  rallyCount := same.rallyCount
  gameState := congrArg (fun gs => { gs with hasBall := b }) same.gameState
  processedGuid := same.processedGuid
  owner := same.owner

theorem outcome_locked {tx : Tx I} (locked : Locked s) (stranger : tx.sender ≠ some s.owner)
    (ho : Outcome s tx t out) : SameGame s t ∧ out = [] := by
  have howner : t.owner = s.owner := ho.owner_kept stranger
  cases ho with
  | serve idle => exact absurd (idle.symm.trans locked.active) (by decide)
  | pauseGame owner => exact absurd (congrArg some owner) stranger
  | aside => exact ⟨⟨rfl, rfl, rfl, rfl, howner⟩, rfl⟩
  | replay => exact ⟨⟨rfl, rfl, rfl, rfl, rfl⟩, rfl⟩
  | finish peer fresh free | reply peer fresh free =>
    exact absurd (free.symm.trans locked.ball) (by decide)

theorem enter_serve {lz : OApp} {msg : Msg I} {maxRallies : Uint256} {options : Bytes}
    (h : enter (.serve lz msg maxRallies options) s = .ok (t, out)) :
    s.gameState.gameActive = false ∧ Locked t ∧ t.owner = s.owner ∧ ∃ sent, out = [sent] ∧
      apply (.serve lz msg maxRallies options) s = .ok (t.setHasBall false, [sent]) := by
  have halone : (machine I).apply (.serve lz msg maxRallies options) s =
      .ok (t.setHasBall false, out) := by
    rw [← alone_reentrant]
    exact Reentrant.alone_eq_ok.mpr ⟨t, h, rfl⟩
  simp only [enter, serveOpen, bind_eq_ok, revertIf_eq_ok, okOr_eq_ok, pure_eq_ok, Prod.mk.injEq,
    Prod.exists, exists_const] at h
  obtain ⟨_, _, _, ⟨hidle, -, _, -, fee, -, -, rfl, rfl, rfl⟩, u, sent, hsend, rfl, rfl⟩ := h
  obtain ⟨-, b, rfl⟩ := lzSend_message hsend
  exact ⟨Bool.eq_false_of_not_eq_true hidle, ⟨rfl, rfl⟩, rfl, sent, rfl, halone⟩

theorem enter_locked {tx : Tx I} (locked : Locked s) (stranger : tx.sender ≠ some s.owner)
    (h : enter tx s = .ok (t, out)) :
    tx.callsOut = false ∧ SameGame s (resume tx t) ∧ out = [] := by
  cases tx with
  | serve lz msg maxRallies options =>
    exact absurd ((enter_serve h).1.symm.trans locked.active) (by decide)
  | withdraw sender recipient amount accepted =>
    exact absurd (congrArg some (withdraw_ok h).1) stranger
  | _ => exact ⟨rfl, outcome_locked locked stranger (apply_outcome h)⟩

theorem serve_reentry_safe (s s' : Storage) (lz : OApp) (msg : Msg I) (maxRallies : Uint256)
    (options : Bytes) (callbacks : List (Call (Tx I))) (out : List Sent)
    (strangers : ∀ call ∈ callbacks, call.action.sender ≠ some s.owner)
    (h : (reentrant I).apply (.mk (.serve lz msg maxRallies options) callbacks) s =
      .ok (s', out)) :
    ∃ t sent, apply (.serve lz msg maxRallies options) s = .ok (t, [sent]) ∧ out = [sent] ∧
      SameGame t s' := by
  obtain ⟨t, first, henter, hstate, hout⟩ := Reentrant.apply_eq_ok.mp h
  obtain ⟨-, hlocked, howner, sent, rfl, hplain⟩ := enter_serve henter
  have hquiet (tx : Tx I) (u v : Storage) (nested : List Sent)
      (stranger : tx.sender ≠ some s.owner) (same : SameGame t u)
      (henter : (reentrant I).enter tx u = .ok (v, nested)) :
      tx.callsOut = false ∧ SameGame t (resume tx v) ∧ nested = [] := by
    have howner' : u.owner = s.owner := same.owner.trans howner
    rw [← howner'] at stranger
    obtain ⟨hatomic, hstep, hnone⟩ := enter_locked (same.locked hlocked) stranger henter
    exact ⟨hatomic, same.trans hstep, hnone⟩
  obtain ⟨hsame, hnone⟩ :=
    Reentrant.applyAll_quiet hquiet (SameGame.refl t) callbacks strangers
  refine ⟨_, sent, hplain, ?_, ?_⟩
  · rw [← hout]
    exact congrArg ([sent] ++ ·) hnone
  · rw [← hstate]
    exact hsame.setHasBall false

def nestedCalls : List (Call (Tx sampleImmutables)) :=
  [.mk (sampleServe 9) [.mk (.fund samplePlayer) []],
    .mk (.receive samplePlayer) [],
    .mk (.pauseGame 2) [],
    .mk (.sendBackWithValue (obligingOApp 7 0) samplePlayer [] []) [],
    .mk (sampleDelivery 1 7 3) [],
    .mk (sampleDelivery 1 8 3) []]

theorem serve_safe_with_nestedCalls : ∃ s' t sent,
    (reentrant sampleImmutables).apply (.mk (sampleServe 10) nestedCalls) (deployed 3 0) =
        .ok (s', [sent]) ∧
      apply (sampleServe 10) (deployed 3 0) = .ok (t, [sent]) ∧ SameGame t s' := by
  cases hcall : (reentrant sampleImmutables).apply (.mk (sampleServe 10) nestedCalls)
      (deployed 3 0) with
  | error e =>
    have hok : ((reentrant sampleImmutables).apply (.mk (sampleServe 10) nestedCalls)
        (deployed 3 0)).isOk = true := by decide +kernel
    rw [hcall] at hok
    cases hok
  | ok result =>
    obtain ⟨t, sent, hplain, hout, hsame⟩ := serve_reentry_safe (deployed 3 0) result.1
      (obligingOApp 7 5) samplePlayer 10 [] nestedCalls result.2 (by decide) hcall
    exact ⟨result.1, t, sent, hout ▸ rfl, hplain, hsame⟩

end CrossChainPingPong.Evm
