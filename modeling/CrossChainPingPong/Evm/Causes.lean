import CrossChainPingPong.Library.Past
import CrossChainPingPong.Evm.Outcome

namespace CrossChainPingPong.Evm
open Machine

variable {I : Immutables}

abbrev History (I : Immutables) := List (Commit Storage (Tx I) Sent)

def Tx.delivers (guid : Bytes32) : Tx I → Bool
  | .lzReceive _ _ origin g _ => decide (origin.srcEid = I.peerEid ∧ g = guid)
  | _ => false

def delivered (h : History I) (guid : Bytes32) : Bool := h.any fun c => c.action.delivers guid

def cause (past : History I) (c : Commit Storage (Tx I) Sent) : List (Uint256 × Uint256) :=
  match c.action with
  | .serve .. => if c.before.gameState.gameActive = false then [(initialBallValue, 0)] else []
  | .lzReceive _ _ origin guid message =>
      if origin.srcEid = I.peerEid ∧ delivered past guid = false then
        match abiDecode message with
        | some (v, r) =>
            if 0 < v.toNat ∧ r.toNat + 1 < c.before.cap.toNat then [(v - 1, r + 1)] else []
        | none => []
      else []
  | _ => []

def causes (h : History I) : List (Uint256 × Uint256) := Past.tally cause h

def Remembers (h : History I) (s : Storage) : Prop :=
  ∀ guid, s.processedGuid guid = delivered h guid

variable {h : History I} {c : Commit Storage (Tx I) Sent}

theorem delivered_snoc (h : History I) (c : Commit Storage (Tx I) Sent) (guid : Bytes32) :
    delivered (h ++ [c]) guid = (delivered h guid || c.action.delivers guid) := by
  simp [delivered]

theorem delivers_of_isAside {tx : Tx I} (h : tx.isAside = true) (guid : Bytes32) :
    tx.delivers guid = false := by
  cases tx <;> first | rfl | cases h

theorem remembers_commit (hr : Remembers h c.before) (hc : (machine I).Commits c) :
    Remembers (h ++ [c]) c.after := by
  obtain ⟨s, tx, s', out⟩ := c
  have ho : Outcome s tx s' out := apply_outcome hc
  intro guid
  rw [delivered_snoc, ← hr guid]
  cases ho with
  | serve | pauseGame => exact (Bool.or_false _).symm
  | aside aside => simp only [delivers_of_isAside aside, Bool.or_false]
  | @replay lz value origin g message balance peer done =>
    by_cases hg : g = guid
    · subst hg
      rw [done, Bool.true_or]
    · simp [Tx.delivers, hg]
  | @finish lz value origin g message v r count balance peer fresh free decoded next last
  | @reply lz value origin g message v r count balance p peer fresh free decoded next pos lt
      payload =>
    by_cases hg : g = guid
    · subst hg
      simp [Tx.delivers, peer, Storage.received]
    · simp [Tx.delivers, hg, Storage.received, Function.update_of_ne (Ne.symm hg)]

theorem eq_add_one {r count : Uint256} (next : count.toNat = r.toNat + 1) : count = r + 1 := by
  have hlt := count.isLt
  have hone : (1 : Uint256).toNat = 1 := rfl
  apply BitVec.eq_of_toNat_eq
  rw [BitVec.toNat_add, hone, ← next, Nat.mod_eq_of_lt hlt]

def encoded (m : Uint256 × Uint256) : Bytes := encodeMessage m.1 m.2

theorem sent_commit (hr : Remembers h c.before) (hc : (machine I).Commits c) :
    c.out.map Sent.message = (cause h c).map encoded := by
  obtain ⟨s, tx, s', out⟩ := c
  have ho : Outcome s tx s' out := apply_outcome hc
  cases ho with
  | @serve lz msg maxRallies options p idle pos le payload => simp [cause, idle, payload, encoded]
  | pauseGame => rfl
  | aside aside => cases tx <;> first | rfl | cases aside
  | @replay lz value origin guid message balance peer done =>
    have hseen : delivered h guid = true := (hr guid).symm.trans done
    simp [cause, hseen]
  | @finish lz value origin guid message v r count balance peer fresh free decoded next last =>
    have hlast : ¬ (0 < v.toNat ∧ r.toNat + 1 < s.cap.toNat) := by
      rintro ⟨hpos, hlt⟩
      rcases last with rfl | hcap
      · exact absurd hpos (by decide)
      · omega
    simp [cause, decoded, hlast]
  | @reply lz value origin guid message v r count balance p peer fresh free decoded next pos lt
      payload =>
    have hnew : delivered h guid = false := (hr guid).symm.trans fresh
    have hgo : 0 < v.toNat ∧ r.toNat + 1 < s.cap.toNat :=
      ⟨Nat.pos_of_ne_zero (BitVec.toNat_ne.mp pos), next ▸ lt⟩
    obtain rfl := eq_add_one next
    simp [cause, peer, hnew, decoded, hgo, payload, encoded]

theorem remembers_deployed (owner : Address) (balance : Wei) :
    Remembers ([] : History I) (deployed owner balance) := fun _ => rfl

theorem sent_eq_causes (I : Immutables) (owner : Address) (balance : Wei) (txs : List (Tx I)) :
    let h := (machine I).history (deployed owner balance) txs
    (emitted h).map Sent.message = (causes h).map fun m => encodeMessage m.1 m.2 := by
  have hmain := (machine I).run_induction (s := deployed owner balance)
    (P := fun h s => Remembers h s ∧ (emitted h).map Sent.message = (causes h).map encoded)
    ⟨remembers_deployed owner balance, rfl⟩ ?_ txs
  · exact hmain.2
  · rintro h c ⟨hr, ih⟩ hc
    refine ⟨remembers_commit hr hc, ?_⟩
    have hcauses : causes (h ++ [c]) = causes h ++ cause h c := Past.tally_concat cause h c
    rw [emitted_append, emitted_singleton, hcauses, List.map_append, List.map_append, ih,
      sent_commit hr hc]

end CrossChainPingPong.Evm
