import CrossChainPingPong.Evm.Outcome

namespace CrossChainPingPong.Evm

variable {I : Immutables}

def Playable (p : Sent) : Prop :=
  ∃ b r, abiDecode p.message = some (b, r) ∧ 1 ≤ b.toNat ∧ b.toNat ≤ initialBallValue.toNat

def ReturnsInRange (c : Commit Storage (Tx I) Sent) : Prop :=
  ∀ lz value origin guid message v r, c.action = .lzReceive lz value origin guid message →
    origin.srcEid = I.peerEid → c.before.processedGuid guid = false →
    abiDecode message = some (v, r) → r.toNat + 1 < c.before.cap.toNat →
    v = 0 ∨ 2 ≤ v.toNat ∧ v.toNat ≤ initialBallValue.toNat + 1

theorem playable_of_payload {p : Sent} {b r : Uint256} (h : p.message = encodeMessage b r) :
    Playable p ↔ 1 ≤ b.toNat ∧ b.toNat ≤ initialBallValue.toNat := by
  simp [Playable, h, encodeMessage]

theorem playable_commit {c : Commit Storage (Tx I) Sent} (hc : (machine I).Commits c) :
    (∀ p ∈ c.out, Playable p) ↔ ReturnsInRange c := by
  obtain ⟨s, tx, s', out⟩ := c
  have ho : Outcome s tx s' out := apply_outcome hc
  cases ho with
  | @serve lz msg m options p idle pos le payload =>
    have hp : Playable p := (playable_of_payload payload).mpr (by decide)
    simp [ReturnsInRange, hp]
  | pauseGame => simp [ReturnsInRange]
  | aside h =>
    constructor
    · rintro - lz value origin guid message v r rfl
      cases h
    · simp
  | replay peer done =>
    constructor
    · rintro - lz value origin guid message v r ⟨⟩ - fresh
      exact absurd (done.symm.trans fresh) (by decide)
    · simp
  | @finish lz value origin guid message v r count balance peer fresh free decoded next last =>
    constructor
    · rintro - lz value origin guid message v' r' ⟨⟩ - - hd hlt
      obtain ⟨rfl, rfl⟩ := Prod.mk.inj (Option.some.inj (decoded.symm.trans hd))
      exact last.elim .inl fun hle => absurd hlt (by simp only; omega)
    · simp
  | @reply lz value origin guid message v r count balance p peer fresh free decoded next pos lt
      payload =>
    have hv := toNat_sub_one pos
    have hp := playable_of_payload payload
    constructor
    · rintro hall lz value origin guid message v' r' ⟨⟩ - - hd -
      obtain ⟨rfl, rfl⟩ := Prod.mk.inj (Option.some.inj (decoded.symm.trans hd))
      have := hp.mp (hall p (by simp))
      exact .inr (by omega)
    · intro hr q hq
      obtain rfl : q = p := by simpa using hq
      rcases hr _ _ _ _ _ v r rfl peer fresh decoded (next ▸ lt) with hz | hrange
      · exact absurd hz pos
      · exact hp.mpr (by omega)

theorem sent_playable_iff (I : Immutables) (owner : Address) (balance : Wei) (txs : List (Tx I)) :
    (∀ p ∈ Machine.emitted ((machine I).history (deployed owner balance) txs), Playable p) ↔
      ∀ c ∈ (machine I).history (deployed owner balance) txs, ReturnsInRange c := by
  constructor
  · intro h c hc
    refine (playable_commit ((machine I).commits_of_mem hc)).mp fun p hp => ?_
    exact h p (Machine.mem_emitted.mpr ⟨c, hc, hp⟩)
  · intro h p hp
    obtain ⟨c, hc, hpc⟩ := Machine.mem_emitted.mp hp
    exact (playable_commit ((machine I).commits_of_mem hc)).mpr (h c hc) p hpc

-- what the peer can send carries a u128 value and a u64 rally count
inductive PeerBounded : Tx I → Prop
  | serve {lz msg maxRallies options} : PeerBounded (.serve lz msg maxRallies options)
  | pauseGame {sender} : PeerBounded (.pauseGame sender)
  | fund {msg} : PeerBounded (.fund msg)
  | withdraw {sender recipient amount accepted} :
      PeerBounded (.withdraw sender recipient amount accepted)
  | lzReceive {lz value origin guid} {v : U128} {r : U64} : PeerBounded
      (.lzReceive lz value origin guid (abiEncode (v.setWidth 256) (r.setWidth 256)))

theorem not_always_playable : ¬ ∀ (I : Immutables) (owner : Address) (balance : Wei)
    (txs : List (Tx I)), (∀ tx ∈ txs, PeerBounded tx) →
      ∀ p ∈ Machine.emitted ((machine I).history (deployed owner balance) txs), Playable p := by
  intro h
  have hb : ∀ tx ∈ [sampleDelivery 1 1 0], PeerBounded tx := by
    intro tx htx
    obtain rfl : tx = sampleDelivery 1 1 0 := by simpa using htx
    exact .lzReceive (v := 1) (r := 0)
  have hsent : (Machine.emitted ((machine sampleImmutables).history (deployed 3 0)
      [sampleDelivery 1 1 0])).map Sent.message = [encodeMessage 0 1] := by decide +kernel
  obtain ⟨p, hp, hm⟩ := List.exists_of_mem_map (hsent ▸ List.mem_singleton_self (encodeMessage 0 1))
  have hplay := (playable_of_payload hm).mp (h sampleImmutables 3 0 [sampleDelivery 1 1 0] hb p hp)
  exact absurd hplay.1 (by decide)

end CrossChainPingPong.Evm
