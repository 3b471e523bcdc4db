import CrossChainPingPong.Joint.Refinement

namespace CrossChainPingPong.Joint

variable {d : Deployment} {s s' : State} {a : Act d} {out : List Packet}

def sendsBall (a : Act d) (ballValue : U128) : Prop :=
  ∃ oapp accounts params isLocal, a = .svm (.sendBall oapp accounts params) isLocal ∧
    params.ballValue = ballValue

structure Lossless (c : Commit State (Act d) Packet) : Prop where
  toSvm : ∀ p ∈ c.out, p.dst = .svm → p.message.length = 64 ∧
    ∃ m, PingPongMessage.decode p.message = .ok m ∧
      m.ballValue.toNat = c.after.evm.ballValue.toNat ∧
      m.rallyCount.toNat = c.after.evm.rallyCount.toNat
  toEvm : ∀ p ∈ c.out, p.dst = .evm → ∃ ballValue g v r, sendsBall c.action ballValue ∧
    c.before.svm.game = some g ∧ abiDecode p.message = some (v, r) ∧
    v.toNat = ballValue.toNat ∧ r.toNat = g.rallyCount.toNat
  fits : ∀ p ∈ c.out, ∃ v r, abiDecode p.message = some (v, r) ∧
    v.toNat < 2 ^ 128 ∧ r.toNat < 2 ^ 64

theorem Effect.out_inFlight (he : Effect s a s' out) : ∀ p ∈ out, p ∈ s'.inFlight := by
  intro p hp
  cases he with
  | evm | svm | deliverEvm | deliverSvm => exact List.mem_append_right _ hp

theorem Effect.toSvm (he : Effect s a s' out) : ∀ p ∈ out, p.dst = .svm →
    p.message = abiEncode s'.evm.ballValue s'.evm.rallyCount := by
  intro p hp hdst
  cases he with
  | evm outcome | deliverEvm here dst outcome =>
    obtain ⟨sent, hsent, rfl⟩ := List.mem_map.mp hp
    exact outcome.sends_stored sent hsent
  | svm outcome | deliverSvm here dst outcome =>
    obtain ⟨sent, hsent, rfl⟩ := List.mem_map.mp hp
    cases hdst

theorem Effect.toEvm (he : Effect s a s' out) : ∀ p ∈ out, p.dst = .evm →
    ∃ ballValue g, sendsBall a ballValue ∧ s.svm.game = some g ∧
      p.message = PingPongMessage.encode ⟨ballValue, g.rallyCount⟩ := by
  intro p hp hdst
  cases he with
  | evm outcome | deliverEvm here dst outcome =>
    obtain ⟨sent, hsent, rfl⟩ := List.mem_map.mp hp
    cases hdst
  | svm outcome =>
    obtain ⟨sent, hsent, rfl⟩ := List.mem_map.mp hp
    obtain ⟨oapp, accounts, params, g, rfl, game, hm⟩ := outcome.sends_built sent hsent
    exact ⟨params.ballValue, g, ⟨oapp, accounts, params, _, rfl, rfl⟩, game, hm⟩
  | deliverSvm here dst outcome =>
    obtain ⟨sent, hsent, rfl⟩ := List.mem_map.mp hp
    obtain ⟨oapp, accounts, params, g, hix, -⟩ := outcome.sends_built sent hsent
    cases hix

theorem lossless_effect (hs : Sound d s') (he : Effect s a s' out) :
    Lossless (⟨s, a, s', out⟩ : Commit State (Act d) Packet) where
  toSvm p hp hdst := by
    have hm := he.toSvm p hp hdst
    obtain ⟨v, r, hfits, hv, hr⟩ := hs.wire p (he.out_inFlight p hp)
    obtain ⟨rfl, rfl⟩ := abiEncode_injective (hm.symm.trans hfits)
    rw [hm]
    exact ⟨length_abiEncode _ _, PingPongMessage.decode_abiEncode_of_lt hv hr⟩
  toEvm p hp hdst := by
    obtain ⟨ballValue, g, hsends, game, hm⟩ := he.toEvm p hp hdst
    refine ⟨ballValue, g, _, _, hsends, game, hm ▸ PingPongMessage.abiDecode_encode _, ?_, ?_⟩
    · exact BitVec.toNat_setWidth_of_le (by decide)
    · exact BitVec.toNat_setWidth_of_le (by decide)
  fits p hp := by
    obtain ⟨v, r, hfits, hv, hr⟩ := hs.wire p (he.out_inFlight p hp)
    exact ⟨v, r, hfits ▸ abiDecode_abiEncode v r, hv, hr⟩

theorem transit_is_lossless (d : Deployment) (as : List (Act d)) :
    ∀ c ∈ (machine d).history (fresh d) as, Lossless c := by
  intro c hc
  have hcommits := (machine d).commits_of_mem hc
  have hbefore : Sound d c.before := (simulation d).inv_before (sound_fresh d) hc
  have heffect := commits_effect hcommits
  exact lossless_effect (sound_effect hbefore heffect) heffect

def returnedBall : List (Act sampleDeployment) :=
  [sampleServe 7 10, reachesSvm sampleDeployment,
    returnsBall sampleDeployment 5 99999999999999999999]

theorem transit_is_lossless_in_returnedBall :
    ∃ c ∈ (machine sampleDeployment).history (fresh sampleDeployment) returnedBall,
      c.out.map Packet.dst = [.evm] ∧ Lossless c := by
  have hmem : [Chain.evm] ∈ ((machine sampleDeployment).history (fresh sampleDeployment)
      returnedBall).map fun c => c.out.map Packet.dst := by
    decide +kernel
  obtain ⟨c, hc, hdst⟩ := List.mem_map.mp hmem
  exact ⟨c, hc, hdst, transit_is_lossless sampleDeployment returnedBall c hc⟩

end CrossChainPingPong.Joint
