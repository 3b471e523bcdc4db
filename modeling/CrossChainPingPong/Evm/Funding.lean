import CrossChainPingPong.Evm.Announced

namespace CrossChainPingPong.Evm
open Guard

variable {I : Immutables}

def funded (log : List Emission) : Wei := ((events log).map Event.funding).sum

structure Bill where
  estimated : Wei
  spent : Wei

namespace Bill

def read (b : Bill) : Event → Bill
  | .feeEstimated nativeFee _ => { b with estimated := nativeFee }
  | .ballReturned .. => { b with spent := b.spent + b.estimated }
  | _ => b

def follow (b : Bill) (log : List Emission) : Bill := (events log).foldl read b

end Bill

def spent (log : List Emission) : Wei := (Bill.follow ⟨0, 0⟩ log).spent

def Raises (n : Wei) (log : List Emission) : Prop := ∀ b : Bill, (b.follow log).spent = b.spent + n

-- ether that comes along with a delivery is in no event, nor is what is withdrawn
def Tx.unannounced : Tx I → Wei
  | .lzReceive _ value _ _ _ => value
  | _ => 0

def Tx.outflow : Tx I → Wei
  | .withdraw _ _ amount _ => amount
  | _ => 0

section
variable {endpoint : Address} {lz : OApp} {now : Uint256} {p : Sent} {s s' : Storage}
  {out : List Sent}

@[simp] theorem funded_append (first rest : List Emission) :
    funded (first ++ rest) = funded first + funded rest := by
  simp [funded]

@[simp] theorem funded_event (e : Event) (log : List Emission) :
    funded (.event e :: log) = e.funding + funded log := by
  simp [funded]

@[simp] theorem funded_nil : funded [] = 0 := rfl

@[simp] theorem funded_estimates : funded (lz.estimates p) = 0 := by
  unfold OApp.estimates
  split <;> rfl

@[simp] theorem funded_sendLog : funded (sendLog I endpoint lz p) = handedBack I lz p := by
  unfold sendLog
  split
  case isTrue => simp [funded, events, Emission.event?, Event.funding, List.filterMap_cons]
  case isFalse hnone => exact (Nat.eq_zero_of_not_pos hnone).symm

@[simp] theorem Bill.follow_append (b : Bill) (first rest : List Emission) :
    b.follow (first ++ rest) = (b.follow first).follow rest := by
  simp [Bill.follow]

@[simp] theorem Bill.follow_event (b : Bill) (e : Event) (log : List Emission) :
    b.follow (.event e :: log) = (b.read e).follow log := rfl

@[simp] theorem Bill.follow_nil (b : Bill) : b.follow [] = b := rfl

@[simp] theorem Bill.follow_sendLog (b : Bill) : b.follow (sendLog I endpoint lz p) = b := by
  unfold sendLog
  split <;> rfl

theorem Bill.follow_estimates (b : Bill) {fee : MessagingFee}
    (quoted : lz.quote p.dstEid p.message p.options false = some fee) :
    b.follow (lz.estimates p) = { b with estimated := fee.nativeFee } := by
  rw [OApp.estimates, quoted]
  rfl

@[simp] theorem Bill.spent_follow_estimates (b : Bill) : (b.follow (lz.estimates p)).spent = b.spent := by
  unfold OApp.estimates
  split <;> rfl

theorem Raises.spent_eq {n : Wei} {log : List Emission} (raises : Raises n log) : spent log = n :=
  (raises ⟨0, 0⟩).trans (Nat.zero_add n)

theorem raises_nil : Raises 0 [] := fun _ => rfl

theorem Raises.append {m n : Wei} {first rest : List Emission} (hfirst : Raises m first)
    (hrest : Raises n rest) : Raises (m + n) (first ++ rest) := by
  intro b
  rw [Bill.follow_append, hrest, hfirst, Nat.add_assoc]

theorem raises_serveLog (maxRallies : Uint256) : Raises 0 (serveLog I endpoint lz now maxRallies p) := by
  intro b
  simp [serveLog, Bill.read]

theorem raises_replyLog (v count : Uint256) {fee : MessagingFee}
    (quoted : lz.quote p.dstEid p.message p.options false = some fee) :
    Raises fee.nativeFee (replyLog I endpoint lz v count p) := by
  intro b
  simp [replyLog, Bill.follow_estimates b quoted, Bill.read]

theorem serve_refunds {sender : Address} {value : Wei} {maxRallies : Uint256} {options : Bytes}
    (h : serve I lz sender value maxRallies options s = .ok (s', out)) :
    ∃ p, out = [p] ∧ p.refundAddress = sender := by
  simp only [serve, lzSend, Guard.bind_eq_ok, okOr_eq_ok, pure_eq_ok, Prod.mk.injEq, Prod.exists] at h
  obtain ⟨_, _, _, -, _, _, ⟨receipt, -, -, rfl⟩, -, rfl⟩ := h
  exact ⟨_, rfl, rfl⟩

theorem sendBack_refunds (h : sendBack I lz s = .ok (s', out)) :
    ∀ p ∈ out, p.refundAddress = I.self := by
  simp only [sendBack, sendBackWithValue, lzSend, Guard.bind_eq_ok, revertIf_eq_ok, okOr_eq_ok,
    mapError_eq_ok, pure_eq_ok, Prod.mk.injEq, Prod.exists, exists_const] at h
  obtain ⟨-, -, -, fee, -, -, t, o, ⟨-, t', sent, ⟨receipt, -, -, rfl⟩, -, rfl⟩, -, rfl⟩ := h
  exact List.forall_mem_singleton.mpr rfl

theorem lzReceive_refunds {origin : Origin} {guid : Bytes32} {message : Bytes}
    (h : lzReceive I lz origin guid message s = .ok (s', out)) :
    ∀ p ∈ out, p.refundAddress = I.self := by
  obtain ⟨-, ⟨-, -, rfl⟩ | ⟨-, v, r, -, hdeliver⟩⟩ := lzReceive_cases h
  · nofun
  · obtain ⟨-, count, -, hsettle⟩ := deliver_eq_ok.mp hdeliver
    split at hsettle
    · cases hsettle
      nofun
    · exact sendBack_refunds hsettle

theorem deliverLog_opens (s : Storage) (v count : Uint256) (out : List Sent) :
    let log := deliverLog I endpoint lz now s v count out
    let rest := closeLog I endpoint lz now v count out
    funded log = funded rest ∧ ∀ b : Bill, b.follow log = b.follow rest := by
  intro log rest
  simp only [log, deliverLog]
  split <;> simp [Event.funding, Bill.read, rest]

theorem deliverLog_account {v count : Uint256} (refunds : ∀ p ∈ out, p.refundAddress = I.self)
    (paid : out = [] ∨ ∃ p, out = [p] ∧ Paid lz s s' p) (t : Storage) :
    let log := deliverLog I endpoint lz now t v count out
    funded log = (out.map (handedBack I lz)).sum ∧ Raises (out.map Sent.nativeFee).sum log := by
  intro log
  obtain ⟨hfunded, hfollow⟩ : funded log = funded (closeLog I endpoint lz now v count out) ∧
      ∀ b : Bill, b.follow log = b.follow (closeLog I endpoint lz now v count out) :=
    deliverLog_opens t v count out
  rcases paid with rfl | ⟨p, rfl, ⟨fee, hquote, hfee⟩, -, -⟩
  · refine ⟨hfunded.trans ?_, fun b => ?_⟩
    · simp [closeLog, Event.funding]
    · rw [hfollow]
      rfl
  · have hself := refunds p (List.mem_singleton_self p)
    refine ⟨hfunded.trans ?_, fun b => ?_⟩
    · simp [closeLog, replyLog, Event.funding]
    · rw [hfollow, List.map_singleton, List.sum_singleton, hfee]
      exact raises_replyLog (v - 1) count hquote b

end

theorem receive_account {endpoint : Address} {lz : OApp} {now : Uint256} {s s' : Storage}
    {out : List Sent} {value : Wei} {origin : Origin} {guid : Bytes32} {message : Bytes}
    (h : apply (.lzReceive lz value origin guid message : Tx I) s = .ok (s', out)) :
    let log := journal endpoint now (.lzReceive lz value origin guid message : Tx I) s out
    Raises (out.map Sent.nativeFee).sum log ∧
      s'.balance + (out.map Sent.nativeFee).sum = s.balance + (funded log + value) := by
  intro log
  have hreceive := lzReceive_of_apply h
  have hrefunds := lzReceive_refunds hreceive
  have hpaid := lzReceive_paid hreceive
  have hbalance : s'.balance + (out.map Sent.nativeFee).sum =
      s.balance + value + (out.map (handedBack I lz)).sum := by
    rcases hpaid with ⟨rfl, hsame⟩ | ⟨p, rfl, -, hfunds, receipt, hsend, hpaid⟩
    · exact hsame
    · have hback : handedBack I lz p = p.nativeFee - receipt.fee.nativeFee := by
        rw [handedBack, if_pos (hrefunds p (List.mem_singleton_self p)), keeps_of_sent hsend]
      rw [List.map_singleton, List.map_singleton, List.sum_singleton, List.sum_singleton, hback,
        hpaid, Nat.add_right_comm, Nat.sub_add_cancel hfunds]
  have hlog : funded log = (out.map (handedBack I lz)).sum ∧ Raises (out.map Sent.nativeFee).sum log := by
    cases apply_outcome h with
    | aside aside => cases aside
    | replay peer done =>
      simp only [log, journal, done, if_true]
      exact ⟨rfl, raises_nil⟩
    | finish peer fresh free decoded | reply peer fresh free decoded =>
      simp only [log, journal, fresh, decoded, Bool.false_eq_true, if_false]
      exact deliverLog_account hrefunds (hpaid.imp_left And.left) s
  refine ⟨hlog.2, ?_⟩
  rw [hlog.1, hbalance, Nat.add_assoc, Nat.add_comm value]

theorem account_step {endpoint : Address} {now : Uint256} {tx : Tx I} {s s' : Storage}
    {out : List Sent} (h : apply tx s = .ok (s', out)) :
    let log := journal endpoint now tx s out
    Raises (spent log) log ∧
      s'.balance + (spent log + tx.outflow) = s.balance + (funded log + tx.unannounced) := by
  intro log
  obtain ⟨n, hraises, hbalance⟩ : ∃ n, Raises n log ∧
      s'.balance + (n + tx.outflow) = s.balance + (funded log + tx.unannounced) := by
    cases tx with
    | lzReceive => exact ⟨_, receive_account h⟩
    | serve lz msg maxRallies options =>
      obtain ⟨p, rfl, hrefund⟩ := serve_refunds h
      have hexternal : p.refundAddress ≠ I.self := hrefund ▸ msg.external
      have hbalance : s'.balance = s.balance := by
        cases apply_outcome h with
        | serve => rfl
      have hlog : log = serveLog I endpoint lz now maxRallies p := List.append_nil _
      refine ⟨0, hlog ▸ raises_serveLog maxRallies, ?_⟩
      simp [hlog, serveLog, Event.funding, handedBack, hexternal, Tx.outflow, Tx.unannounced, hbalance]
    | fund msg =>
      obtain ⟨rfl, rfl⟩ := fund_ok h
      refine ⟨0, fun _ => rfl, ?_⟩
      simp [log, journal, Event.funding, Tx.outflow, Tx.unannounced]
    | receive msg =>
      cases (apply_receive s msg).symm.trans h
      refine ⟨0, fun _ => rfl, ?_⟩
      simp [log, journal, Event.funding, Tx.outflow, Tx.unannounced]
    | fallback msg =>
      cases (apply_fallback s msg).symm.trans h
      refine ⟨0, fun _ => rfl, ?_⟩
      simp [log, journal, Event.funding, Tx.outflow, Tx.unannounced]
    | pauseGame =>
      cases apply_outcome h with
      | pauseGame => exact ⟨0, fun _ => rfl, rfl⟩
      | aside aside => cases aside
    | sendBackWithValue lz msg message options =>
      rw [apply, sendBackWithValue_external msg.external] at h
      cases h
    | setPeer | setEnforcedOptions | setDelegate | transferOwnership | renounceOwnership =>
      obtain ⟨-, rfl, enforcedOptions, rfl⟩ := administers_ok rfl h
      exact ⟨0, raises_nil, rfl⟩
    | withdraw sender recipient amount accepted =>
      obtain ⟨-, hfunds, rfl, rfl⟩ := withdraw_ok h
      refine ⟨0, ?_, ?_⟩
      · simp only [log, journal]
        split
        · exact fun _ => rfl
        · exact raises_nil
      · simp only [log, journal, Tx.outflow, Tx.unannounced]
        split
        · simp [Event.funding]
        · simpa using Nat.sub_add_cancel hfunds
  rw [hraises.spent_eq]
  exact ⟨hraises, hbalance⟩

theorem raises_emitted {h : List (Commit Storage (Mined I) Emission)}
    (raises : ∀ c ∈ h, Raises (spent c.out) c.out) :
    Raises (h.map fun c => spent c.out).sum (Machine.emitted h) := by
  induction h with
  | nil => exact raises_nil
  | cons c h ih =>
    obtain ⟨hfirst, hrest⟩ := List.forall_mem_cons.mp raises
    exact hfirst.append (ih hrest)

theorem funded_emitted (h : List (Commit Storage (Mined I) Emission)) :
    funded (Machine.emitted h) = (h.map fun c => funded c.out).sum := by
  induction h with
  | nil => rfl
  | cons c h ih =>
    rw [List.map_cons, List.sum_cons, ← ih]
    exact funded_append c.out (Machine.emitted h)

theorem events_account_for_balance (I : Immutables) (endpoint owner : Address) (balance : Wei)
    (txs : List (Mined I)) :
    let h := (emitting I endpoint).history (deployed owner balance) txs
    let log := Machine.emitted h
    ((emitting I endpoint).run (deployed owner balance) txs).balance +
        (spent log + (h.map fun c => c.action.tx.outflow).sum) =
      balance + (funded log + (h.map fun c => c.action.tx.unannounced).sum) := by
  intro h log
  have haccount : ∀ c ∈ h, Raises (spent c.out) c.out ∧
      c.after.balance + (spent c.out + c.action.tx.outflow) =
        c.before.balance + (funded c.out + c.action.tx.unannounced) := by
    intro c hc
    obtain ⟨out, happly, hout⟩ := apply_run.mp ((emitting I endpoint).commits_of_mem hc)
    rw [hout]
    exact account_step happly
  have htotal := ((emitting I endpoint).trace (deployed owner balance) txs).conserved
    Storage.balance (fun c => funded c.out + c.action.tx.unannounced)
    (fun c => spent c.out + c.action.tx.outflow) fun c hc => (haccount c hc).2
  rw [List.sum_map_add, List.sum_map_add] at htotal
  rw [(raises_emitted fun c hc => (haccount c hc).1).spent_eq, funded_emitted]
  exact htotal

end CrossChainPingPong.Evm
