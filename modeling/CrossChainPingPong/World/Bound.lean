import CrossChainPingPong.World.System

namespace CrossChainPingPong

def rallyWithin (limit : Nat) (message : Bytes) : Bool :=
  match abiDecode message with
  | some (_, r) => decide (r.toNat ≤ limit)
  | none => false

theorem rallyWithin_encode (limit : Nat) (m : PingPongMessage) :
    rallyWithin limit m.encode = decide (m.rallyCount.toNat ≤ limit) := by
  rw [rallyWithin, m.encode_eq_abiEncode, abiDecode_abiEncode]
  dsimp only
  rw [BitVec.toNat_setWidth_of_le (by decide)]

def Evm.Tx.budget {I : Evm.Immutables} : Evm.Tx I → Nat
  | .serve .. => 1
  | .lzReceive _ _ _ _ message => (rallyWithin 98 message).toNat
  | _ => 0

def Svm.Ledger.room (limit : Nat) (l : Ledger) : Nat :=
  l.game.elim 0 fun g =>
    (g.hasBall && decide (g.rallyCount.toNat ≤ limit)).toNat + (limit - g.rallyCount.toNat)

def Svm.Ledger.mayReceive (l : Ledger) : Nat := l.game.elim 0 fun g => 100 - g.rallyCount.toNat

structure Svm.GameState.Open (g : GameState) : Prop where
  max : g.maxRallies = maxRalliesCap
  holds : g.hasBall = true → g.rallyCount.toNat ≤ 99

namespace World

def Packet.isFrom (src : Chain) (p : Packet) : Bool := decide (p.src = src)

def Packet.within (limit : Nat) (p : Packet) : Bool := p.isFrom .svm && rallyWithin limit p.message

section
variable {rt : Svm.Runtime} {l l' : Svm.Ledger} {ix : Svm.Ix} {sent : List Svm.Sent}

theorem room_outcome (limit : Nat) (ho : Svm.Outcome rt l ix l' sent) :
    (sent.map fromSvm).countP (Packet.within limit) + l'.room limit ≤
      l.room limit + limit * ix.isInit.toNat := by
  cases ho with
  | initStore => simp [Svm.Ledger.room, Svm.GameState.fresh, Svm.Ix.isInit]
  | setPeerAddress | setEnforcedOptions | pauseGame | resumeGame => simp [Svm.Ledger.room]
  | closeGame => simp [Svm.Ledger.room]
  | @sendBall oapp accounts params g peer p game known running ball pos dst receiver payload =>
    have hwithin : Packet.within limit (fromSvm p) = decide (g.rallyCount.toNat ≤ limit) := by
      rw [Packet.within, fromSvm, payload, rallyWithin_encode]
      rfl
    have hcount : ([p].map fromSvm).countP (Packet.within limit) =
        (decide (g.rallyCount.toNat ≤ limit)).toNat := by
      rw [List.map_singleton, List.countP_singleton, hwithin]
      cases decide (g.rallyCount.toNat ≤ limit) <;> rfl
    simp only [hcount, Svm.Ledger.room, game, Option.elim, ball, Bool.true_and, Bool.false_and,
      Bool.toNat_false, Nat.zero_add]
    exact Nat.le_add_right _ _
  | @lzReceive oapp accounts params g peer m newValue count game known sender running decoded =>
    rename_i value high next cap
    simp only [List.map_nil, List.countP_nil, Svm.Ledger.room, game, Option.elim,
      Svm.GameState.received, next, Nat.zero_add]
    rcases Nat.lt_or_ge g.rallyCount.toNat limit with hlt | hge
    · have hone := Bool.toNat_le (decide (newValue ≠ 0 ∧ g.rallyCount.toNat + 1 < g.maxRallies.toNat) &&
        decide (g.rallyCount.toNat + 1 ≤ limit))
      omega
    · have hpast : decide (g.rallyCount.toNat + 1 ≤ limit) = false := decide_eq_false (by omega)
      rw [hpast, Bool.and_false, Bool.toNat_false]
      omega

theorem mayReceive_outcome (ho : Svm.Outcome rt l ix l' sent) :
    l'.mayReceive + ix.isReceive.toNat ≤ l.mayReceive + 100 * ix.isInit.toNat := by
  cases ho with
  | initStore => simp [Svm.Ledger.mayReceive, Svm.GameState.fresh, Svm.Ix.isReceive, Svm.Ix.isInit]
  | setPeerAddress | setEnforcedOptions | pauseGame | resumeGame => exact Nat.le_refl _
  | closeGame => exact Nat.zero_le _
  | sendBall game =>
    simp only [Svm.Ledger.mayReceive, game]
    exact Nat.le_refl _
  | lzReceive game known sender running decoded value high next cap =>
    simp only [Svm.Ledger.mayReceive, game, Option.elim, Svm.GameState.received, next,
      Svm.Ix.isReceive, Bool.toNat_true]
    omega

theorem open_outcome (hl : ∀ g, l.game = some g → g.Open) (ho : Svm.Outcome rt l ix l' sent) :
    (∀ g, l'.game = some g → g.Open) ∧ ∀ p ∈ sent.map fromSvm, p.within 99 = true := by
  cases ho with
  | initStore =>
    refine ⟨?_, nofun⟩
    rintro g ⟨⟩
    exact ⟨rfl, nofun⟩
  | setPeerAddress | setEnforcedOptions | pauseGame | resumeGame => exact ⟨hl, nofun⟩
  | closeGame => exact ⟨nofun, nofun⟩
  | @sendBall oapp accounts params g peer p game known running ball pos dst receiver payload =>
    obtain ⟨hmax, hholds⟩ := hl g game
    constructor
    · rintro g' ⟨⟩
      exact ⟨hmax, nofun⟩
    · intro q hq
      obtain rfl := List.mem_singleton.mp hq
      rw [Packet.within, fromSvm, payload, rallyWithin_encode]
      exact decide_eq_true (hholds ball)
  | @lzReceive oapp accounts params g peer m newValue count game =>
    obtain ⟨hmax, -⟩ := hl g game
    refine ⟨?_, nofun⟩
    rintro g' ⟨⟩
    refine ⟨hmax, fun hgoes => ?_⟩
    have hlt := (of_decide_eq_true hgoes).2
    rw [hmax] at hlt
    exact Nat.le_of_lt_succ hlt

end

section
variable {I : Evm.Immutables} {s s' : Evm.Storage} {tx : Evm.Tx I} {sent : List Evm.Sent}

theorem budget_outcome (hcap : s.cap.toNat ≤ 100) (ho : Evm.Outcome s tx s' sent) :
    sent.length ≤ tx.budget := by
  cases ho with
  | serve => exact Nat.le_refl 1
  | pauseGame | aside | replay | finish => exact Nat.zero_le _
  | @reply lz value origin guid message v r count balance p peer fresh free decoded next pos lt =>
    have hlow : rallyWithin 98 message = true := by
      rw [rallyWithin, decoded]
      dsimp only
      exact decide_eq_true (by omega)
    rw [Evm.Tx.budget, hlow]
    exact Nat.le_refl 1

theorem cap_outcome (hcap : s.gameState.maxRallies.toNat ≤ 100) (ho : Evm.Outcome s tx s' sent) :
    s'.gameState.maxRallies.toNat ≤ 100 := by
  have hlimit : s.cap.toNat ≤ 100 := by
    unfold Evm.Storage.cap
    split
    · exact hcap
    · decide
  cases ho with
  | serve idle pos le =>
    rw [BitVec.toNat_setWidth]
    exact (Nat.mod_le _ _).trans le
  | pauseGame | aside | replay => exact hcap
  | finish | reply => exact hlimit

end

variable {d : Deployment}

namespace Act

def opens : Act d → Bool
  | .svm ix _ => ix.isInit
  | _ => false

def serves : Act d → Bool
  | .evm (.serve ..) _ => true
  | _ => false

def brings : Act d → Bool
  | .evm (.lzReceive ..) _ => true
  | _ => false

def receives : Act d → Bool
  | .svm ix _ => ix.isReceive
  | .deliverSvm .. => true
  | _ => false

end Act

theorem budget_le (tx : Evm.Tx d.evm) (foreign : ∀ c, tx.origin? ≠ some (d.address c)) :
    tx.budget ≤ (Act.evm tx foreign).serves.toNat + (Act.evm tx foreign).brings.toNat := by
  cases tx with
  | serve => exact Nat.le_refl 1
  | lzReceive lz value origin guid message => exact Bool.toNat_le _
  | _ => exact Nat.zero_le _

@[simp] theorem within_fromEvm (limit : Nat) (s : Evm.Storage) (sent : List Evm.Sent) :
    (sent.map (fromEvm s)).countP (Packet.within limit) = 0 := by
  rw [List.countP_map, List.countP_eq_zero]
  exact fun _ _ => Bool.false_ne_true

@[simp] theorem isFrom_fromEvm (s : Evm.Storage) (sent : List Evm.Sent) :
    (sent.map (fromEvm s)).countP (Packet.isFrom .evm) = sent.length := by
  rw [List.countP_map, List.countP_eq_length]
  exact fun _ _ => rfl

@[simp] theorem isFrom_fromSvm (sent : List Svm.Sent) :
    (sent.map fromSvm).countP (Packet.isFrom .evm) = 0 := by
  rw [List.countP_map, List.countP_eq_zero]
  exact fun _ _ => Bool.false_ne_true

theorem delivery_sends {s : Evm.Storage} {s' : Evm.Storage} {p : Packet} {lz : Evm.OApp}
    {value : Evm.Wei} {nonce : U64} {sent : List Evm.Sent} (hcap : s.cap.toNat ≤ 100)
    (ho : Evm.Outcome s (d.delivery p lz value nonce) s' sent) :
    sent.length ≤ (p.within 98).toNat := by
  have hbudget := budget_outcome hcap ho
  rw [Packet.within, Packet.isFrom, src_of_delivery ho]
  exact hbudget

def count (f : Act d → Bool) (h : History d) : Nat := h.countP fun c => f c.action

def posted (f : Packet → Bool) (h : History d) : Nat := (Machine.emitted h).countP f

theorem count_snoc (f : Act d → Bool) (h : History d) (c : Commit State (Act d) Packet) :
    count f (h ++ [c]) = count f h + (f c.action).toNat := by
  rw [count, List.countP_append, List.countP_singleton]
  cases f c.action <;> rfl

theorem posted_snoc (f : Packet → Bool) (h : History d) (c : Commit State (Act d) Packet) :
    posted f (h ++ [c]) = posted f h + c.out.countP f := by
  rw [posted, Machine.emitted_append, Machine.emitted_singleton, List.countP_append, posted]

structure Bounded (h : History d) (s : State) : Prop where
  cap : s.evm.gameState.maxRallies.toNat ≤ 100
  opened : ∀ g, s.svm.game = some g → g.Open
  within : ∀ p ∈ Machine.emitted h, p.isFrom .svm = true → p.within 99 = true
  rallies : ∀ limit,
    posted (Packet.within limit) h + s.svm.room limit ≤ limit * count Act.opens h
  receives : count Act.receives h + s.svm.mayReceive ≤ 100 * count Act.opens h
  replies : posted (Packet.isFrom .evm) h + s.inFlight.countP (Packet.within 98) ≤
    count Act.serves h + count Act.brings h + posted (Packet.within 98) h

theorem Bounded.cap_le {h : History d} {s : State} (hb : Bounded h s) : s.evm.cap.toNat ≤ 100 := by
  unfold Evm.Storage.cap
  split
  · exact hb.cap
  · decide

theorem bounded_evm {h : History d} {s : State} {a : Act d} {evm : Evm.Storage}
    {sent : List Evm.Sent} {pool : List Packet} {tx : Evm.Tx d.evm} (hb : Bounded h s)
    (ho : Evm.Outcome s.evm tx evm sent) (hopens : a.opens = false) (hreceives : a.receives = false)
    (hsent : sent.length + pool.countP (Packet.within 98) ≤
      s.inFlight.countP (Packet.within 98) + a.serves.toNat + a.brings.toNat) :
    Bounded (h ++ [⟨s, a, ⟨evm, s.svm, pool ++ sent.map (fromEvm s.evm)⟩,
        sent.map (fromEvm s.evm)⟩])
      ⟨evm, s.svm, pool ++ sent.map (fromEvm s.evm)⟩ where
  cap := cap_outcome hb.cap ho
  opened := hb.opened
  within p hp hsrc := by
    rw [Machine.emitted_append, Machine.emitted_singleton] at hp
    rcases List.mem_append.mp hp with hp | hp
    · exact hb.within p hp hsrc
    · obtain ⟨_, -, rfl⟩ := List.mem_map.mp hp
      cases hsrc
  rallies limit := by
    rw [posted_snoc, count_snoc, hopens, within_fromEvm]
    exact hb.rallies limit
  receives := by
    rw [count_snoc, count_snoc, hopens, hreceives]
    exact hb.receives
  replies := by
    have hreplies := hb.replies
    rw [posted_snoc, posted_snoc, count_snoc, count_snoc, isFrom_fromEvm, within_fromEvm,
      List.countP_append, within_fromEvm]
    dsimp only
    omega

theorem bounded_svm {h : History d} {s : State} {a : Act d} {svm : Svm.Ledger}
    {sent : List Svm.Sent} {pool : List Packet} {ix : Svm.Ix} (hb : Bounded h s)
    (ho : Svm.Outcome d.rt s.svm ix svm sent) (hopens : a.opens = ix.isInit)
    (hreceives : a.receives = ix.isReceive)
    (hpool : pool.countP (Packet.within 98) ≤ s.inFlight.countP (Packet.within 98)) :
    Bounded (h ++ [⟨s, a, ⟨s.evm, svm, pool ++ sent.map fromSvm⟩, sent.map fromSvm⟩])
      ⟨s.evm, svm, pool ++ sent.map fromSvm⟩ where
  cap := hb.cap
  opened := (open_outcome hb.opened ho).1
  within p hp hsrc := by
    rw [Machine.emitted_append, Machine.emitted_singleton] at hp
    rcases List.mem_append.mp hp with hp | hp
    · exact hb.within p hp hsrc
    · exact (open_outcome hb.opened ho).2 p hp
  rallies limit := by
    have hrallies := hb.rallies limit
    have hroom := room_outcome limit ho
    rw [posted_snoc, count_snoc, hopens, Nat.mul_add]
    dsimp only
    omega
  receives := by
    have hreceived := hb.receives
    have hmay := mayReceive_outcome ho
    rw [count_snoc, count_snoc, hopens, hreceives, Nat.mul_add]
    dsimp only
    omega
  replies := by
    have hreplies := hb.replies
    rw [posted_snoc, posted_snoc, count_snoc, count_snoc, isFrom_fromSvm, List.countP_append]
    dsimp only
    omega

theorem bounded_step {h : History d} {c : Commit State (Act d) Packet} (hb : Bounded h c.before)
    (hc : (machine d).Commits c) : Bounded (h ++ [c]) c.after := by
  obtain ⟨s, a, s', out⟩ := c
  have effect : Effect s a s' out := commits_effect hc
  cases effect with
  | @evm tx foreign evm sent applied =>
    have ho := Evm.apply_outcome applied
    have hbudget := budget_outcome hb.cap_le ho
    have hfrom := budget_le tx foreign
    refine bounded_evm hb ho rfl rfl ?_
    omega
  | svm applied => exact bounded_svm hb (Svm.apply_outcome applied) rfl rfl (Nat.le_refl _)
  | deliverEvm here reaches applied =>
    have ho := Evm.apply_outcome applied
    have hsends := delivery_sends hb.cap_le ho
    have hcount := Pool.countP_erase (Packet.within 98) here
    refine bounded_evm hb ho rfl rfl ?_
    dsimp only [Act.serves, Act.brings]
    omega
  | deliverSvm here reaches applied =>
    have hcount := Pool.countP_erase (Packet.within 98) here
    refine bounded_svm hb (Svm.apply_outcome applied) rfl rfl ?_
    omega

theorem bounded_run (d : Deployment) (owner : Evm.Address) (balance : Evm.Wei) (as : List (Act d)) :
    Bounded ((machine d).history (start owner balance) as)
      ((machine d).run (start owner balance) as) := by
  refine (machine d).run_induction ?_ (fun h c hb hc => bounded_step hb hc) as
  exact {
    cap := Nat.zero_le _
    opened := nofun
    within := nofun
    rallies := fun _ => Nat.zero_le _
    receives := Nat.zero_le _
    replies := Nat.zero_le _ }

theorem rallies_end_across_reopens (d : Deployment) (owner : Evm.Address) (balance : Evm.Wei)
    (as : List (Act d)) :
    let h := (machine d).history (start owner balance) as
    (∀ limit, posted (Packet.within limit) h ≤ limit * count Act.opens h) ∧
      posted (Packet.isFrom .svm) h ≤ 99 * count Act.opens h ∧
      count Act.receives h ≤ 100 * count Act.opens h ∧
      posted (Packet.isFrom .evm) h ≤
        count Act.serves h + count Act.brings h + 98 * count Act.opens h := by
  intro h
  have hb := bounded_run d owner balance as
  have hlimit (limit : Nat) : posted (Packet.within limit) h ≤ limit * count Act.opens h :=
    (Nat.le_add_right _ _).trans (hb.rallies limit)
  have hsvm : posted (Packet.isFrom .svm) h ≤ posted (Packet.within 99) h :=
    List.countP_mono_left hb.within
  have hreplies := hb.replies
  have hlow := hlimit 98
  refine ⟨hlimit, hsvm.trans (hlimit 99), (Nat.le_add_right _ _).trans hb.receives, ?_⟩
  dsimp only [h] at hlow ⊢
  omega

end World
end CrossChainPingPong
