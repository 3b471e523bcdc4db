import CrossChainPingPong.Evm.Scoreboard
import CrossChainPingPong.Library.Past

namespace CrossChainPingPong.Evm

variable {I : Immutables}

def Event.announced? : Event → Option (Bytes32 × Bytes)
  | .ballServed v count messageId | .ballReturned v count messageId =>
      some (messageId, encodeMessage v count)
  | _ => none

def Event.received? : Event → Option (Uint256 × Uint256)
  | .ballReceived v count _ => some (v, count)
  | _ => none

def Event.funding : Event → Wei
  | .contractFunded _ amount => amount
  | _ => 0

def arrival (past : History I) (c : Commit Storage (Tx I) Sent) : List (Uint256 × Uint256) :=
  match c.action with
  | .lzReceive _ _ _ guid message =>
      if delivered past guid = true then []
      else match abiDecode message with
        | some (v, r) => [(v, r + 1)]
        | none => []
  | _ => []

section
variable {endpoint : Address} {lz : OApp} {now : Uint256} {p : Sent} {s s' : Storage}
  {out : List Sent} {X : Type} {f : Event → Option X}

@[simp] theorem events_nil : events [] = [] := rfl

@[simp] theorem events_event (e : Event) (log : List Emission) :
    events (.event e :: log) = e :: events log := rfl

@[simp] theorem events_append (first rest : List Emission) :
    events (first ++ rest) = events first ++ events rest := List.filterMap_append

theorem filterMap_announcement (hfee : ∀ fee token, f (.feeEstimated fee token) = none)
    (hfund : ∀ funder amount, f (.contractFunded funder amount) = none) (e : Event) :
    (events (lz.estimates p ++ (sendLog I endpoint lz p ++ [.event e]))).filterMap f =
      (f e).toList := by
  have hestimates : (events (lz.estimates p)).filterMap f = [] := by
    unfold OApp.estimates
    split
    · exact List.filterMap_cons_none (hfee _ _)
    · rfl
  have hsend : (events (sendLog I endpoint lz p)).filterMap f = [] := by
    unfold sendLog
    split
    · exact List.filterMap_cons_none (hfund _ _)
    · rfl
  rw [events_append, events_append, List.filterMap_append, List.filterMap_append, hestimates, hsend,
    List.nil_append, List.nil_append, events_event, events_nil]
  cases h : f e with
  | none => exact List.filterMap_cons_none h
  | some x => exact List.filterMap_cons_some h

def moves (now : Uint256) : Tx I → Storage → List Sent → List Event
  | .serve .., _, out => out.map fun p => .ballServed initialBallValue 0 p.guid
  | .lzReceive _ _ _ guid message, s, out =>
      if s.processedGuid guid = true then []
      else match abiDecode message with
        | some (v, r) =>
            .ballReceived v (r + 1) now :: out.map fun p => .ballReturned (v - 1) (r + 1) p.guid
        | none => []
  | _, _, _ => []

structure OnMoves (f : Event → Option X) : Prop where
  fee : ∀ fee token, f (.feeEstimated fee token) = none
  funded : ∀ funder amount, f (.contractFunded funder amount) = none
  started : ∀ v cap now, f (.gameStarted v cap now) = none
  ended : ∀ final now reason, f (.gameEnded final now reason) = none

theorem filterMap_closeLog (hf : OnMoves f) {v count : Uint256} (single : out.length ≤ 1) :
    (events (closeLog I endpoint lz now v count out)).filterMap f =
      (out.map fun p => .ballReturned (v - 1) count p.guid).filterMap f := by
  cases out with
  | nil => exact List.filterMap_cons_none (hf.ended _ _ _)
  | cons p rest =>
    obtain rfl : rest = [] := List.eq_nil_of_length_eq_zero (by simpa using single)
    rw [closeLog, replyLog, filterMap_announcement hf.fee hf.funded]
    rfl

theorem filterMap_deliverLog (hf : OnMoves f) {v count : Uint256} (single : out.length ≤ 1) :
    (events (deliverLog I endpoint lz now s v count out)).filterMap f =
      (.ballReceived v count now ::
        out.map fun p => .ballReturned (v - 1) count p.guid).filterMap f := by
  have hclose : (events (closeLog I endpoint lz now v count out)).filterMap f =
      (out.map fun p => .ballReturned (v - 1) count p.guid).filterMap f := filterMap_closeLog hf single
  rw [deliverLog, events_append, List.filterMap_append, events_event, List.filterMap_cons,
    List.filterMap_cons, hclose]
  split
  · rfl
  · rw [events_event, List.filterMap_cons_none (hf.started _ _ _)]
    rfl

theorem filterMap_journal (hf : OnMoves f) {tx : Tx I} (ho : Outcome s tx s' out) :
    (events (journal endpoint now tx s out)).filterMap f = (moves now tx s out).filterMap f := by
  cases ho with
  | @serve lz msg maxRallies options p idle pos le payload =>
    rw [journal, List.flatMap_singleton, serveLog, events_event,
      List.filterMap_cons_none (hf.started _ _ _), filterMap_announcement hf.fee hf.funded]
    rfl
  | pauseGame => exact List.filterMap_cons_none (hf.ended _ _ _)
  | aside aside =>
    cases tx with
    | withdraw =>
      simp only [journal]
      split
      · exact List.filterMap_cons_none (hf.funded _ _)
      · rfl
    | fund | receive | fallback => exact List.filterMap_cons_none (hf.funded _ _)
    | setPeer | setEnforcedOptions | setDelegate | transferOwnership | renounceOwnership => rfl
    | _ => cases aside
  | replay peer done => simp only [journal, moves, done, if_true, events_nil]
  | finish peer fresh free decoded | reply peer fresh free decoded =>
    simp only [journal, moves, fresh, decoded, Bool.false_eq_true, if_false]
    exact filterMap_deliverLog hf (by simp)

theorem announced_onMoves : OnMoves Event.announced? where
  fee _ _ := rfl
  funded _ _ := rfl
  started _ _ _ := rfl
  ended _ _ _ := rfl

theorem received_onMoves : OnMoves Event.received? where
  fee _ _ := rfl
  funded _ _ := rfl
  started _ _ _ := rfl
  ended _ _ _ := rfl

theorem moves_announced {tx : Tx I} (ho : Outcome s tx s' out) :
    (moves now tx s out).filterMap Event.announced? = out.map fun p => (p.guid, p.message) := by
  cases ho with
  | serve idle pos le payload => simp [moves, Event.announced?, payload]
  | pauseGame => rfl
  | aside aside => cases tx <;> first | rfl | cases aside
  | replay peer done => simp [moves, done]
  | finish peer fresh free decoded => simp [moves, fresh, decoded, Event.announced?]
  | reply peer fresh free decoded next pos lt payload =>
    obtain rfl := eq_add_one next
    simp [moves, fresh, decoded, Event.announced?, payload, List.filterMap_cons]

end

theorem moves_received {h : History I} {now : Uint256} {s s' : Storage} {tx : Tx I}
    {out : List Sent} (hr : Remembers h s) :
    (moves now tx s out).filterMap Event.received? = arrival h ⟨s, tx, s', out⟩ := by
  cases tx with
  | serve => simp [moves, arrival, Event.received?]
  | lzReceive lz value origin guid message =>
    simp only [moves, arrival, hr guid]
    split
    · rfl
    · cases abiDecode message with
      | none => rfl
      | some m => simp [Event.received?]
  | _ => rfl

section
variable (I : Immutables) (endpoint owner : Address) (balance : Wei) (txs : List (Mined I))

theorem announcements_are_messages :
    let log := Machine.emitted ((emitting I endpoint).history (deployed owner balance) txs)
    (events log).filterMap Event.announced? =
      (log.filterMap Emission.sent?).map fun p => (p.guid, p.message) := by
  refine (emitting I endpoint).run_induction (P := fun h _ =>
    (events (Machine.emitted h)).filterMap Event.announced? =
      ((Machine.emitted h).filterMap Emission.sent?).map fun p => (p.guid, p.message)) rfl ?_ txs
  intro h c ih hc
  obtain ⟨out, happly, hout⟩ := apply_run.mp hc
  have ho := apply_outcome happly
  rw [Machine.emitted_append, Machine.emitted_singleton, events_append, List.filterMap_append,
    List.filterMap_append, List.map_append, ih, hout, filterMap_journal announced_onMoves ho,
    moves_announced ho, journal_sent ho]

theorem received_run :
    let k := (emitting I endpoint).history (deployed owner balance) txs
    let h := (machine I).history (deployed owner balance) (txs.map Mined.tx)
    Remembers h ((emitting I endpoint).run (deployed owner balance) txs) ∧
      (events (Machine.emitted k)).filterMap Event.received? = Past.tally arrival h := by
  intro k h
  have hplain : h = k.map (Machine.Details.plain Mined.tx Emission.sent?) :=
    (emitting_details I endpoint).history_eq _ _
  rw [hplain]
  refine (emitting I endpoint).run_induction (P := fun k s =>
    let h := k.map (Machine.Details.plain Mined.tx Emission.sent?)
    Remembers h s ∧ (events (Machine.emitted k)).filterMap Event.received? = Past.tally arrival h)
    ?_ ?_ txs
  · exact ⟨remembers_deployed owner balance, rfl⟩
  · rintro k c ⟨hr, ih⟩ hc
    obtain ⟨out, happly, hout⟩ := apply_run.mp hc
    have ho := apply_outcome happly
    have hplain : Machine.Details.plain Mined.tx Emission.sent? c =
        ⟨c.before, c.action.tx, c.after, out⟩ := by
      rw [Machine.Details.plain, hout, journal_sent ho]
    rw [List.map_append, List.map_singleton, hplain]
    refine ⟨remembers_commit hr happly, ?_⟩
    rw [Machine.emitted_append, Machine.emitted_singleton, events_append, List.filterMap_append, ih,
      Past.tally_concat, hout, filterMap_journal received_onMoves ho, moves_received hr]

theorem receptions_are_first_deliveries :
    let log := Machine.emitted ((emitting I endpoint).history (deployed owner balance) txs)
    let h := (machine I).history (deployed owner balance) (txs.map Mined.tx)
    (events log).filterMap Event.received? = Past.tally arrival h :=
  (received_run I endpoint owner balance txs).2

end

end CrossChainPingPong.Evm
