import CrossChainPingPong.Library.Composed
import CrossChainPingPong.Library.Transfer
import CrossChainPingPong.Svm.Accounts
import CrossChainPingPong.Svm.Outcome

namespace CrossChainPingPong.Svm
open Guard

inductive ProgramAccount where
  | game
  | lzReceiveTypesAccounts
  | peer (eid : U32)
  deriving DecidableEq, Repr

abbrev LamportTransfer := Transfer ProgramAccount Pubkey

structure Holdings where
  ledger : Ledger
  lamports : ProgramAccount → Nat

structure Rent where
  minimumBalance : Nat → Nat

namespace Lamports

inductive Failure where
  | program (e : Error)
  | insufficientLamports
  deriving DecidableEq, Repr

inductive Item where
  | sent (p : Sent)
  | moved (t : LamportTransfer)

-- what the payer of a new account pays; there may be lamports at its address already
def initPays (rent : Rent) (space current : Nat) : Nat :=
  if current = 0 then rent.minimumBalance space else max (rent.minimumBalance space) 1 - current

def transfers (rent : Rent) (payer : Pubkey) (h : Holdings) : Ix → List LamportTransfer
  | .initStore _ =>
      [.paid payer .game (initPays rent GameState.size (h.lamports .game)),
        .paid payer .lzReceiveTypesAccounts
          (initPays rent LzReceiveTypesAccounts.size (h.lamports .lzReceiveTypesAccounts))]
  | .setPeerConfig _ admin params => match h.ledger.peer params.remoteEid with
      | some _ => []
      | none => [.paid admin (.peer params.remoteEid)
          (initPays rent PeerConfig.size (h.lamports (.peer params.remoteEid)))]
  | .closeGame admin =>
      [.returned .lzReceiveTypesAccounts admin (h.lamports .lzReceiveTypesAccounts),
        .returned .game admin (h.lamports .game)]
  | .pauseGame _ | .resumeGame _ | .sendBall .. | .lzReceive .. => []

def price (ts : List LamportTransfer) : Nat :=
  (ts.map fun
    | .paid _ _ n => n
    | .returned .. => 0).sum

-- wallet is what the account that pays for the instruction holds; the endpoint's fees are paid by
-- an account of the sender's choice, which the program does not own
inductive Act where
  | ix (payer : Pubkey) (wallet : Nat) (ix : Ix)
  | fundContract (funder : Pubkey) (wallet : Nat) (amount : U64)
  | transfer (sender : Pubkey) (account : ProgramAccount) (lamports : Nat)

def move (ts : List LamportTransfer) (h : Holdings) : Except Failure Holdings := do
  let lamports ← okOr (Transfer.postAll h.lamports ts) .insufficientLamports
  pure { h with lamports }

def FundContract.apply (funder : Pubkey) (wallet : Nat) (amount : U64) (h : Holdings) :
    Except Failure (Holdings × List Item) := do
  let _ ← okOr h.ledger.game (.program .accountNotInitialized)
  require (amount.toNat ≤ wallet) .insufficientLamports
  let transfer : LamportTransfer := .paid funder .game amount.toNat
  let h ← move [transfer] h
  pure (h, [.moved transfer])

def apply (rt : Runtime) (rent : Rent) : Act → Holdings → Except Failure (Holdings × List Item)
  | .ix payer wallet ix, h => do
      let (ledger, sent) ← (Svm.apply rt ix h.ledger).mapError .program
      let ts := transfers rent payer h ix
      require (price ts ≤ wallet) .insufficientLamports
      let h ← move ts h
      pure ({ h with ledger }, sent.map .sent ++ ts.map .moved)
  | .fundContract funder wallet amount, h => FundContract.apply funder wallet amount h
  | .transfer sender account lamports, h => do
      let transfer : LamportTransfer := .paid sender account lamports
      let h ← move [transfer] h
      pure (h, [.moved transfer])

def machine (rt : Runtime) (rent : Rent) : Machine Holdings Act Failure Item := ⟨apply rt rent⟩

def empty : Holdings := ⟨Ledger.empty, fun _ => 0⟩

def Item.message : Item → Option Sent
  | .sent p => some p
  | .moved _ => none

def Item.transfer : Item → Option LamportTransfer
  | .sent _ => none
  | .moved t => some t

def Act.instruction : Act → Option Ix
  | .ix _ _ i => some i
  | .fundContract .. | .transfer .. => none

def ReturnsToAdmin (c : Commit Holdings Act Item) : Prop :=
  ∀ account payee n, .moved (.returned account payee n) ∈ c.out →
    (∃ payer wallet g, c.action = .ix payer wallet (.closeGame payee) ∧
      c.before.ledger.game = some g ∧ g.admin = payee) ∧
    (account = .game ∨ account = .lzReceiveTypesAccounts) ∧
    n = c.before.lamports account ∧ c.after.lamports account = 0

structure RentExempt (rent : Rent) (h : Holdings) : Prop where
  game : h.ledger.game.isSome → rent.minimumBalance GameState.size ≤ h.lamports .game
  lzReceiveTypesAccounts : h.ledger.lzReceiveTypesAccounts.isSome →
    rent.minimumBalance LzReceiveTypesAccounts.size ≤ h.lamports .lzReceiveTypesAccounts
  peer : ∀ eid, (h.ledger.peer eid).isSome →
    rent.minimumBalance PeerConfig.size ≤ h.lamports (.peer eid)

variable {rt : Runtime} {rent : Rent} {c : Commit Holdings Act Item}

theorem move_eq_ok {ts : List LamportTransfer} {h h' : Holdings} :
    move ts h = .ok h' ↔ ∃ lamports, Transfer.postAll h.lamports ts = some lamports ∧
      h' = { h with lamports } := by
  simp only [move, bind_eq_ok, okOr_eq_ok, pure_eq_ok]
  exact exists_congr fun _ => and_congr_right fun _ => eq_comm

inductive Effect (rt : Runtime) (rent : Rent) (h : Holdings) : Act → Holdings → List Item → Prop
  | ix {payer wallet ix ledger sent lamports} (ok : Svm.apply rt ix h.ledger = .ok (ledger, sent))
      (posted : Transfer.postAll h.lamports (transfers rent payer h ix) = some lamports) :
      Effect rt rent h (.ix payer wallet ix) ⟨ledger, lamports⟩
        (sent.map .sent ++ (transfers rent payer h ix).map .moved)
  | fundContract {funder wallet amount g} (game : h.ledger.game = some g) :
      Effect rt rent h (.fundContract funder wallet amount)
        { h with lamports := Function.update h.lamports .game (h.lamports .game + amount.toNat) }
        [.moved (.paid funder .game amount.toNat)]
  | transfer {sender account lamports} : Effect rt rent h (.transfer sender account lamports)
      { h with lamports := Function.update h.lamports account (h.lamports account + lamports) }
      [.moved (.paid sender account lamports)]

theorem commits_effect (hc : (machine rt rent).Commits c) :
    Effect rt rent c.before c.action c.after c.out := by
  obtain ⟨h, act, h', out⟩ := c
  have happly : apply rt rent act h = .ok (h', out) := hc
  cases act with
  | ix payer wallet ix =>
    simp only [apply, bind_eq_ok, mapError_eq_ok, require_eq_ok, move_eq_ok, pure_eq_ok, Prod.exists,
      Prod.mk.injEq, exists_const] at happly
    obtain ⟨ledger, sent, hok, -, _, ⟨lamports, hposted, rfl⟩, rfl, rfl⟩ := happly
    exact .ix hok hposted
  | fundContract funder wallet amount =>
    simp only [apply, FundContract.apply, bind_eq_ok, okOr_eq_ok, require_eq_ok, move_eq_ok,
      pure_eq_ok, Prod.mk.injEq, exists_const] at happly
    obtain ⟨g, hgame, -, _, ⟨lamports, hposted, rfl⟩, rfl, rfl⟩ := happly
    obtain rfl := Option.some.inj hposted
    exact .fundContract hgame
  | transfer sender account n =>
    simp only [apply, bind_eq_ok, move_eq_ok, pure_eq_ok, Prod.mk.injEq] at happly
    obtain ⟨_, ⟨lamports, hposted, rfl⟩, rfl, rfl⟩ := happly
    obtain rfl := Option.some.inj hposted
    exact .transfer

theorem out_ix (sent : List Sent) (ts : List LamportTransfer) :
    (sent.map Item.sent ++ ts.map Item.moved).filterMap Item.message = sent ∧
      (sent.map Item.sent ++ ts.map Item.moved).filterMap Item.transfer = ts := by
  constructor
  · rw [List.filterMap_append, List.filterMap_map, List.filterMap_map]
    simp [Function.comp_def, Item.message]
  · rw [List.filterMap_append, List.filterMap_map, List.filterMap_map]
    simp [Function.comp_def, Item.transfer]

def play (rt : Runtime) (rent : Rent) : (machine rt rent).Part (Svm.machine rt) Sent where
  view := Holdings.ledger
  move c := c.action.instruction
  item := Item.message
  label := id
  acts := by
    intro c i hc hmove
    obtain ⟨h, act, h', out⟩ := c
    have effect : Effect rt rent h act h' out := commits_effect hc
    cases effect with
    | @ix payer wallet i' ledger sent lamports ok =>
      obtain rfl := Option.some.inj hmove
      refine ⟨sent, ok, ?_⟩
      rw [(out_ix _ _).1, List.map_id]
    | fundContract | transfer => cases hmove
  rests := by
    intro c hc hmove
    obtain ⟨h, act, h', out⟩ := c
    have effect : Effect rt rent h act h' out := commits_effect hc
    cases effect with
    | ix => cases hmove
    | fundContract | transfer => exact ⟨rfl, rfl⟩

theorem posted_commit (hc : (machine rt rent).Commits c) :
    Transfer.postAll c.before.lamports (c.out.filterMap Item.transfer) = some c.after.lamports := by
  obtain ⟨h, act, h', out⟩ := c
  have effect : Effect rt rent h act h' out := commits_effect hc
  cases effect with
  | ix ok posted =>
    rw [(out_ix _ _).2]
    exact posted
  | fundContract | transfer => rfl

theorem closeGame_ok {admin : Pubkey} {l l' : Ledger} {out : List Sent}
    (h : Svm.apply rt (.closeGame admin) l = .ok (l', out)) :
    ∃ g, l.game = some g ∧ g.admin = admin := by
  simp only [Svm.apply, CloseGame.apply, bind_eq_ok, okOr_eq_ok, require_eq_ok, exists_const] at h
  obtain ⟨g, hgame, hadmin, -⟩ := h
  exact ⟨g, hgame, hadmin⟩

theorem posted_close {lamports after : ProgramAccount → Nat} {admin : Pubkey}
    (h : Transfer.postAll lamports
      ([.returned .lzReceiveTypesAccounts admin (lamports .lzReceiveTypesAccounts),
        .returned .game admin (lamports .game)] : List LamportTransfer) = some after) :
    after .game = 0 ∧ after .lzReceiveTypesAccounts = 0 ∧
      ∀ eid, after (.peer eid) = lamports (.peer eid) := by
  have hgame := Transfer.postAll_account h .game
  have htypes := Transfer.postAll_account h .lzReceiveTypesAccounts
  refine ⟨?_, ?_, fun eid => ?_⟩
  · simpa [Transfer.outOf, Transfer.into] using hgame
  · simpa [Transfer.outOf, Transfer.into] using htypes
  · simpa [Transfer.outOf, Transfer.into] using Transfer.postAll_account h (.peer eid)

theorem returnsToAdmin_commit (hc : (machine rt rent).Commits c) : ReturnsToAdmin c := by
  obtain ⟨h, act, h', out⟩ := c
  have effect : Effect rt rent h act h' out := commits_effect hc
  intro account payee n hmem
  cases effect with
  | @ix payer wallet i ledger sent lamports ok posted =>
    have hmoved : Transfer.returned account payee n ∈ transfers rent payer h i := by
      simpa using hmem
    cases i with
    | closeGame admin =>
      obtain ⟨hgame, htypes, -⟩ := posted_close posted
      obtain ⟨g, hg, hadmin⟩ := closeGame_ok ok
      simp only [transfers, List.mem_cons, List.not_mem_nil, or_false, Transfer.returned.injEq] at hmoved
      obtain ⟨rfl, rfl, rfl⟩ | ⟨rfl, rfl, rfl⟩ := hmoved
      · exact ⟨⟨payer, wallet, g, rfl, hg, hadmin⟩, .inr rfl, rfl, htypes⟩
      · exact ⟨⟨payer, wallet, g, rfl, hg, hadmin⟩, .inl rfl, rfl, hgame⟩
    | setPeerConfig oapp admin params =>
      simp only [transfers] at hmoved
      split at hmoved <;> simp at hmoved
    | initStore | pauseGame | resumeGame | sendBall | lzReceive => simp [transfers] at hmoved
  | fundContract | transfer => simp at hmem

theorem initPays_enough (rent : Rent) (space current : Nat) :
    rent.minimumBalance space ≤ current + initPays rent space current := by
  unfold initPays
  split <;> omega

theorem RentExempt.mono {h : Holdings} {lamports : ProgramAccount → Nat} (exempt : RentExempt rent h)
    (le : ∀ a, h.lamports a ≤ lamports a) : RentExempt rent { h with lamports } where
  game hsome := (exempt.game hsome).trans (le _)
  lzReceiveTypesAccounts hsome := (exempt.lzReceiveTypesAccounts hsome).trans (le _)
  peer eid hsome := (exempt.peer eid hsome).trans (le _)

theorem paid_le {before after : ProgramAccount → Nat} {ts : List LamportTransfer}
    (h : Transfer.postAll before ts = some after)
    (none : ∀ a, (ts.map (Transfer.outOf a)).sum = 0) (a : ProgramAccount) : before a ≤ after a := by
  have haccount := Transfer.postAll_account h a
  rw [none a, Nat.add_zero] at haccount
  exact haccount ▸ Nat.le_add_right _ _

theorem nothing_returned {payer : Pubkey} {h : Holdings} {i : Ix} (stays : i.isClose = false)
    (a : ProgramAccount) : ((transfers rent payer h i).map (Transfer.outOf a)).sum = 0 := by
  cases i with
  | initStore => rfl
  | setPeerConfig oapp admin params =>
    simp only [transfers]
    split <;> rfl
  | pauseGame | resumeGame | sendBall | lzReceive => rfl
  | closeGame => cases stays

theorem peer_paid {h : Holdings} {oapp : Oapp} {admin payer : Pubkey} {params : SetPeerConfigParams}
    {lamports : ProgramAccount → Nat}
    (posted : Transfer.postAll h.lamports (transfers rent payer h (.setPeerConfig oapp admin params)) =
      some lamports) (exempt : RentExempt rent h) :
    rent.minimumBalance PeerConfig.size ≤ lamports (.peer params.remoteEid) := by
  simp only [transfers] at posted
  split at posted
  · rename_i hpeer
    obtain rfl := Option.some.inj posted
    exact exempt.peer params.remoteEid (by rw [hpeer]; rfl)
  · have haccount := Transfer.postAll_account posted (.peer params.remoteEid)
    simp only [List.map_cons, List.map_nil, List.sum_singleton, Transfer.outOf, Transfer.into,
      if_true, Nat.add_zero] at haccount
    exact (initPays_enough rent _ _).trans_eq haccount.symm

theorem rentExempt_ix {payer : Pubkey} {h : Holdings} {i : Ix} {ledger : Ledger} {sent : List Sent}
    {lamports : ProgramAccount → Nat} (ok : Svm.apply rt i h.ledger = .ok (ledger, sent))
    (posted : Transfer.postAll h.lamports (transfers rent payer h i) = some lamports)
    (exempt : RentExempt rent h) : RentExempt rent ⟨ledger, lamports⟩ := by
  have ho : Outcome rt h.ledger i ledger sent := apply_outcome ok
  cases ho with
  | initStore =>
    have hgame : lamports .game = h.lamports .game +
        initPays rent GameState.size (h.lamports .game) := by
      simpa [transfers, Transfer.outOf, Transfer.into] using Transfer.postAll_account posted .game
    have htypes : lamports .lzReceiveTypesAccounts = h.lamports .lzReceiveTypesAccounts +
        initPays rent LzReceiveTypesAccounts.size (h.lamports .lzReceiveTypesAccounts) := by
      simpa [transfers, Transfer.outOf, Transfer.into] using
        Transfer.postAll_account posted .lzReceiveTypesAccounts
    refine ⟨fun _ => ?_, fun _ => ?_, fun eid hsome => ?_⟩
    · exact (initPays_enough rent _ _).trans_eq hgame.symm
    · exact (initPays_enough rent _ _).trans_eq htypes.symm
    · exact (exempt.peer eid hsome).trans (paid_le posted (nothing_returned rfl) _)
  | @setPeerAddress oapp g eid address peer | @setEnforcedOptions oapp g eid send peer =>
    have hgrown := exempt.mono (paid_le posted (nothing_returned rfl))
    refine ⟨hgrown.game, hgrown.lzReceiveTypesAccounts, fun other hsome => ?_⟩
    by_cases heid : other = eid
    · subst heid
      exact peer_paid posted exempt
    · refine hgrown.peer other ?_
      simpa [Function.update_of_ne heid] using hsome
  | pauseGame | resumeGame => exact exempt.mono (paid_le posted (nothing_returned rfl))
  | sendBall game | lzReceive game =>
    have hgrown := exempt.mono (paid_le posted (nothing_returned rfl))
    refine ⟨fun _ => hgrown.game ?_, hgrown.lzReceiveTypesAccounts, hgrown.peer⟩
    exact Option.isSome_of_eq_some game
  | closeGame =>
    obtain ⟨-, -, hpeer⟩ := posted_close posted
    refine ⟨by rintro ⟨⟩, by rintro ⟨⟩, fun eid hsome => ?_⟩
    exact (exempt.peer eid hsome).trans_eq (hpeer eid).symm

theorem rentExempt_commit (hc : (machine rt rent).Commits c) (exempt : RentExempt rent c.before) :
    RentExempt rent c.after := by
  obtain ⟨h, act, h', out⟩ := c
  have effect : Effect rt rent h act h' out := commits_effect hc
  cases effect with
  | fundContract | transfer =>
    refine exempt.mono fun a => ?_
    simp only [Function.update_apply]
    split
    case isTrue ha => exact ha ▸ Nat.le_add_right _ _
    case isFalse => exact le_rfl
  | ix ok posted => exact rentExempt_ix ok posted exempt

theorem lamports_accounted (rt : Runtime) (rent : Rent) (acts : List Act) :
    let h := (machine rt rent).history empty acts
    let holdings := (machine rt rent).run empty acts
    let transfers := (Machine.emitted h).filterMap Item.transfer
    (∀ account, holdings.lamports account + (transfers.map (Transfer.outOf account)).sum =
        (transfers.map (Transfer.into account)).sum) ∧
      (∀ c ∈ h, ReturnsToAdmin c) ∧ RentExempt rent holdings ∧
      ∃ ixs, holdings.ledger = (Svm.machine rt).run Ledger.empty ixs ∧
        (Machine.emitted h).filterMap Item.message =
          Machine.emitted ((Svm.machine rt).history Ledger.empty ixs) := by
  intro h holdings transfers
  refine ⟨fun account => ?_, fun c hc => ?_, ?_, ?_⟩
  · have haccount := (machine rt rent).balances_accounted Holdings.lamports Item.transfer empty
      (fun c hc => posted_commit hc) acts account
    exact haccount.trans (Nat.zero_add _)
  · exact returnsToAdmin_commit ((machine rt rent).commits_of_mem hc)
  · have hempty : RentExempt rent empty := ⟨by rintro ⟨⟩, by rintro ⟨⟩, by rintro _ ⟨⟩⟩
    exact (machine rt rent).invariant_run hempty (fun c exempt hc => rentExempt_commit hc exempt) acts
  · obtain ⟨hrun, -, hout⟩ := (play rt rent).run_eq empty acts
    exact ⟨_, hrun.symm, hout.symm.trans (List.map_id _)⟩

end Lamports

end CrossChainPingPong.Svm
