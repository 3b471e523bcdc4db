import CrossChainPingPong.Evm.Journal
import CrossChainPingPong.Library.Record

namespace CrossChainPingPong.Evm
open Guard Logged

structure Mined (I : Immutables) where
  timestamp : Uint256
  tx : Tx I

variable {I : Immutables}

def emitting (I : Immutables) (endpoint : Address) : Machine Storage (Mined I) Revert Emission where
  apply m s := (Emitting.apply endpoint m.timestamp m.tx s).run

def Emission.sent? : Emission → Option Sent
  | .sent p => some p
  | .event _ => none

def Emission.event? : Emission → Option Event
  | .sent _ => none
  | .event e => some e

inductive Board where
  | over (ballValue rallyCount maxRallies : Uint256) (hasBall : Bool)
  | opened (ballValue maxRallies : Uint256)
  | holding (ballValue rallyCount maxRallies : Uint256)
  | away (ballValue rallyCount maxRallies : Uint256)
  deriving DecidableEq, Repr

namespace Board

def read : Board → Event → Option Board
  | b, .contractFunded .. => some b
  | .over .., .gameStarted v cap _ => some (.opened v cap)
  | .opened v cap, .feeEstimated .. => some (.opened v cap)
  | .opened v cap, .ballServed v' count _ =>
      if v' = v ∧ count = 0 then some (.away v 0 cap) else none
  | .opened v cap, .ballReceived v' count _ =>
      if v' = v ∧ 0 < count.toNat then some (.holding v count cap) else none
  | .away _ _ cap, .ballReceived v count _ =>
      if 0 < count.toNat then some (.holding v count cap) else none
  | .away v count cap, .gameEnded final _ reason =>
      if final = count ∧ reason = "Paused by owner" then some (.over v count cap false) else none
  | .holding v count cap, .feeEstimated .. => some (.holding v count cap)
  | .holding v count cap, .ballReturned v' count' _ =>
      if v ≠ 0 ∧ v' = v - 1 ∧ count' = count ∧ count.toNat < cap.toNat then some (.away v' count cap)
      else none
  | .holding v count cap, .gameEnded final _ reason =>
      if final = count ∧ (v = 0 ∧ reason = "Ball reached 0" ∨
        v ≠ 0 ∧ cap.toNat ≤ count.toNat ∧ reason = "Max rallies reached") then
        some (.over v count cap true)
      else none
  | _, _ => none

def ballValue : Board → Uint256
  | .over v .. | .opened v _ | .holding v .. | .away v .. => v

def rallyCount : Board → Uint256
  | .over _ count .. | .holding _ count _ | .away _ count _ => count
  | .opened .. => 0

def maxRallies : Board → Uint256
  | .over _ _ cap _ | .opened _ cap | .holding _ _ cap | .away _ _ cap => cap

def hasBall : Board → Bool
  | .over _ _ _ b => b
  | .opened .. | .holding .. => true
  | .away .. => false

def gameActive : Board → Bool
  | .over .. => false
  | _ => true

def follow (b : Board) (o : Emission) : Option Board :=
  match o.event? with
  | some e => b.read e
  | none => some b

end Board

def Storage.board (s : Storage) : Board :=
  if s.gameState.gameActive = true then
    .away s.ballValue s.rallyCount (s.gameState.maxRallies.setWidth 256)
  else .over s.ballValue s.rallyCount (s.gameState.maxRallies.setWidth 256) s.gameState.hasBall

def Settled (s : Storage) : Prop := s.gameState.gameActive = true → s.gameState.hasBall = false

theorem settled_of_idle {s : Storage} (idle : s.gameState.gameActive = false) : Settled s :=
  fun active => absurd (idle.symm.trans active) Bool.false_ne_true

section
variable {endpoint : Address} {lz : OApp} {now : Uint256} {p : Sent} {s s' : Storage}
  {out : List Sent}

@[simp] theorem sent_event (e : Event) : (Emission.event e).sent? = none := rfl

@[simp] theorem estimates_sent (lz : OApp) (p : Sent) :
    (lz.estimates p).filterMap Emission.sent? = [] := by
  unfold OApp.estimates
  split <;> rfl

@[simp] theorem sendLog_sent : (sendLog I endpoint lz p).filterMap Emission.sent? = [p] := by
  unfold sendLog
  split <;> rfl

theorem journal_sent {tx : Tx I} (ho : Outcome s tx s' out) :
    (journal endpoint now tx s out).filterMap Emission.sent? = out := by
  cases ho with
  | serve => simp [journal, serveLog, List.filterMap_cons]
  | pauseGame => rfl
  | aside aside =>
    cases tx with
    | withdraw =>
      simp only [journal]
      split <;> rfl
    | fund | receive | fallback | setPeer | setEnforcedOptions | setDelegate | transferOwnership
    | renounceOwnership => rfl
    | _ => cases aside
  | replay peer done => simp [journal, done]
  | @finish _ _ _ _ _ _ _ _ _ peer fresh free decoded =>
    simp only [journal, fresh, decoded, deliverLog, closeLog, Bool.false_eq_true, if_false]
    split <;> rfl
  | @reply _ _ _ _ _ _ _ _ _ _ peer fresh free decoded =>
    simp only [journal, fresh, decoded, deliverLog, closeLog, replyLog, Bool.false_eq_true, if_false]
    split <;> simp [List.filterMap_cons]

end

theorem emitting_details (I : Immutables) (endpoint : Address) :
    (emitting I endpoint).Details (machine I) Mined.tx Emission.sent? where
  ok {m s s' log} h := by
    obtain ⟨out, happly, rfl⟩ := apply_run.mp h
    rw [journal_sent (apply_outcome happly)]
    exact happly
  error {m s e} h := by
    cases happly : (machine I).apply m.tx s with
    | error f => exact ⟨f, rfl⟩
    | ok r =>
      have hrun : (emitting I endpoint).apply m s = .ok (r.1, journal endpoint m.timestamp m.tx s r.2) :=
        apply_run.mpr ⟨r.2, happly, rfl⟩
      cases h.symm.trans hrun

section
variable {endpoint : Address} {lz : OApp} {now : Uint256} {p : Sent} {b : Board} {s s' : Storage}
  {out : List Sent}

theorem read_contractFunded (b : Board) (funder : Address) (amount : Wei) :
    b.read (.contractFunded funder amount) = some b := by
  cases b <;> rfl

theorem read_served (v cap : Uint256) (guid : Bytes32) :
    Board.read (.opened v cap) (.ballServed v 0 guid) = some (.away v 0 cap) := if_pos ⟨rfl, rfl⟩

theorem follow_read {b' : Board} {e : Event} (h : b.read e = some b') (log : List Emission) :
    (Emission.event e :: log).foldlM Board.follow b = log.foldlM Board.follow b' := by
  have hcons : (Emission.event e :: log).foldlM Board.follow b =
      b.read e >>= fun b' => log.foldlM Board.follow b' := rfl
  rw [hcons, h]
  rfl

theorem follow_estimates (hb : ∀ fee token, b.read (.feeEstimated fee token) = some b) :
    (lz.estimates p).foldlM Board.follow b = some b := by
  unfold OApp.estimates
  split
  · exact follow_read (hb _ _) []
  · rfl

theorem follow_sendLog : (sendLog I endpoint lz p).foldlM Board.follow b = some b := by
  have hsent (log : List Emission) :
      (Emission.sent p :: log).foldlM Board.follow b = log.foldlM Board.follow b := rfl
  rw [sendLog, hsent]
  split
  · exact follow_read (read_contractFunded b _ _) []
  · rfl

theorem follow_announced {b' : Board} {e : Event}
    (hb : ∀ fee token, b.read (.feeEstimated fee token) = some b) (h : b.read e = some b') :
    (lz.estimates p ++ (sendLog I endpoint lz p ++ [Emission.event e])).foldlM Board.follow b =
      some b' := by
  rw [List.foldlM_append, follow_estimates hb, Option.bind_eq_bind, Option.bind_some,
    List.foldlM_append, follow_sendLog, Option.bind_eq_bind, Option.bind_some]
  exact follow_read h []

theorem follow_replyLog {v count cap : Uint256} (pos : v ≠ 0) (lt : count.toNat < cap.toNat) :
    (replyLog I endpoint lz (v - 1) count p).foldlM Board.follow (.holding v count cap) =
      some (.away (v - 1) count cap) :=
  follow_announced (fun _ _ => rfl) (if_pos ⟨pos, rfl, rfl, lt⟩)

theorem follow_ended {v count cap : Uint256} (last : v = 0 ∨ cap.toNat ≤ count.toNat) :
    (closeLog I endpoint lz now v count []).foldlM Board.follow (.holding v count cap) =
      some (.over v count cap true) := by
  have hreason : v = 0 ∧ (if v = 0 then "Ball reached 0" else "Max rallies reached") = "Ball reached 0" ∨
      v ≠ 0 ∧ cap.toNat ≤ count.toNat ∧
        (if v = 0 then "Ball reached 0" else "Max rallies reached") = "Max rallies reached" := by
    by_cases hv : v = 0
    · exact .inl ⟨hv, if_pos hv⟩
    · exact .inr ⟨hv, last.resolve_left hv, if_neg hv⟩
  have hended : Board.read (.holding v count cap) (.gameEnded count now
      (if v = 0 then "Ball reached 0" else "Max rallies reached")) =
      some (.over v count cap true) := if_pos ⟨rfl, hreason⟩
  exact follow_read hended []

theorem follow_deliverLog {v r count : Uint256} (next : count.toNat = r.toNat + 1) :
    (deliverLog I endpoint lz now s v (r + 1) out).foldlM Board.follow s.board =
      (closeLog I endpoint lz now v count out).foldlM Board.follow
        (.holding v count (s.cap.setWidth 256)) := by
  obtain rfl := eq_add_one next
  have hpos : 0 < (r + 1).toNat := next ▸ Nat.succ_pos _
  rw [deliverLog, Storage.board, Storage.cap]
  split
  · have hreceived : Board.read (.away s.ballValue s.rallyCount (s.gameState.maxRallies.setWidth 256))
        (.ballReceived v (r + 1) now) =
        some (.holding v (r + 1) (s.gameState.maxRallies.setWidth 256)) := if_pos hpos
    exact follow_read hreceived _
  · have hstarted : Board.read (.over s.ballValue s.rallyCount (s.gameState.maxRallies.setWidth 256)
        s.gameState.hasBall) (.gameStarted v maxRalliesCap now) = some (.opened v maxRalliesCap) := rfl
    have hreceived : Board.read (.opened v maxRalliesCap) (.ballReceived v (r + 1) now) =
        some (.holding v (r + 1) maxRalliesCap) := if_pos ⟨rfl, hpos⟩
    rw [List.singleton_append, follow_read hstarted]
    exact follow_read hreceived _

theorem setWidth_cap {cap : Uint256} (le : cap.toNat ≤ 100) :
    (cap.setWidth 128).setWidth 256 = cap := by
  apply BitVec.eq_of_toNat_eq
  rw [BitVec.toNat_setWidth_of_le (by decide), BitVec.toNat_setWidth, Nat.mod_eq_of_lt]
  omega

theorem board_step {tx : Tx I} (hs : Settled s) (ho : Outcome s tx s' out) :
    (journal endpoint now tx s out).foldlM Board.follow s.board = some s'.board ∧ Settled s' := by
  have hcap : (s.cap.setWidth 256).toNat = s.cap.toNat := BitVec.toNat_setWidth_of_le (by decide)
  cases ho with
  | @serve lz msg maxRallies options p idle pos le payload =>
    refine ⟨?_, fun _ => rfl⟩
    have hboard : s.board = .over s.ballValue s.rallyCount (s.gameState.maxRallies.setWidth 256)
        s.gameState.hasBall := if_neg (Bool.eq_false_iff.mp idle)
    have hstarted : s.board.read (.gameStarted initialBallValue maxRallies now) =
        some (.opened initialBallValue maxRallies) := by
      rw [hboard]
      rfl
    have hserved := read_served initialBallValue maxRallies p.guid
    rw [journal, List.flatMap_singleton, serveLog, follow_read hstarted,
      follow_announced (fun _ _ => rfl) hserved, Storage.board]
    simp only [if_true, setWidth_cap le]
  | pauseGame owner active =>
    refine ⟨?_, settled_of_idle rfl⟩
    have hboard : s.board = .away s.ballValue s.rallyCount (s.gameState.maxRallies.setWidth 256) :=
      if_pos active
    have hover : (s.setGameActive false).board =
        .over s.ballValue s.rallyCount (s.gameState.maxRallies.setWidth 256) false :=
      congrArg (Board.over _ _ _) (hs active)
    have hpaused : s.board.read (.gameEnded s.rallyCount now "Paused by owner") =
        some (s.setGameActive false).board := by
      rw [hboard, hover]
      exact if_pos ⟨rfl, rfl⟩
    exact follow_read hpaused []
  | aside aside =>
    refine ⟨?_, hs⟩
    cases tx with
    | withdraw =>
      simp only [journal]
      split
      · exact follow_read (read_contractFunded _ _ _) []
      · rfl
    | fund | receive | fallback => exact follow_read (read_contractFunded _ _ _) []
    | setPeer | setEnforcedOptions | setDelegate | transferOwnership | renounceOwnership => rfl
    | _ => cases aside
  | replay peer done =>
    refine ⟨?_, hs⟩
    simp only [journal, done, if_true]
    rfl
  | @finish lz value origin guid message v r count balance peer fresh free decoded next last =>
    refine ⟨?_, settled_of_idle rfl⟩
    simp only [journal, fresh, decoded, Bool.false_eq_true, if_false]
    rw [follow_deliverLog next, follow_ended]
    · rfl
    · exact hcap ▸ last
  | @reply lz value origin guid message v r count balance p peer fresh free decoded next pos lt =>
    refine ⟨?_, fun _ => rfl⟩
    simp only [journal, fresh, decoded, Bool.false_eq_true, if_false]
    rw [follow_deliverLog next, closeLog, follow_replyLog pos]
    · rfl
    · exact hcap ▸ lt

end

structure Shows (b : Board) (s : Storage) : Prop where
  ballValue : b.ballValue = s.ballValue
  rallyCount : b.rallyCount = s.rallyCount
  maxRallies : b.maxRallies = s.gameState.maxRallies.setWidth 256
  hasBall : b.hasBall = s.gameState.hasBall
  gameActive : b.gameActive = s.gameState.gameActive

theorem board_shows {s : Storage} (hs : Settled s) : Shows s.board s := by
  unfold Storage.board
  split
  case isTrue hactive => exact ⟨rfl, rfl, rfl, (hs hactive).symm, hactive.symm⟩
  case isFalse hidle => exact ⟨rfl, rfl, rfl, rfl, (Bool.eq_false_of_not_eq_true hidle).symm⟩

def events (log : List Emission) : List Event := log.filterMap Emission.event?

theorem follow_events (log : List Emission) (b : Board) :
    log.foldlM Board.follow b = (events log).foldlM Board.read b := by
  rw [events, List.foldlM_filterMap]
  congr 1
  funext b o
  cases o <;> rfl

end CrossChainPingPong.Evm
