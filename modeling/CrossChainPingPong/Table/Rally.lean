import CrossChainPingPong.Rally.Rules
import CrossChainPingPong.Table.Conservation
import CrossChainPingPong.Table.Stamps

namespace CrossChainPingPong.Table
variable {G : Type}

def place (t : Table G) : Place :=
  if t.active = true then
    match t.flying with
    | [] => if t.svmHolds = true then .held t.svmValue else .dead
    | ⟨.svm, _, v, r⟩ :: _ => .toSvm v r
    | ⟨.evm, _, v, r⟩ :: _ => .toEvm v r
  else .parked

def rally (t : Table G) : Rally := ⟨t.place, t.evmHolds, t.cap, t.evmRally, t.svmRally⟩

theorem lone_ball {t : Table G} {i : Nat} {b : Ball G} (hc : Conserved 0 t)
    (here : t.flying[i]? = some b) :
    t.active = true ∧ t.svmHolds = false ∧ t.flying = [b] ∧ t.flying.eraseIdx i = [] := by
  have hshare : t.flying.length + t.svmHolds.toNat ≤ 0 + t.active.toNat := hc.share
  have hlen := Pool.length_erase here
  have hact := Bool.toNat_le t.active
  have hactive : t.active.toNat = 1 := by omega
  have hholds : t.svmHolds.toNat = 0 := by omega
  have herase : t.flying.eraseIdx i = [] := List.length_eq_zero_iff.mp (by omega)
  have hperm := Pool.erase_perm here
  rw [herase] at hperm
  exact ⟨Bool.toNat_eq_one.mp hactive, Bool.toNat_eq_zero.mp hholds,
    (List.singleton_perm.mp hperm).symm, herase⟩

theorem lone_held {t : Table G} (hc : Conserved 0 t) (ball : t.svmHolds = true) :
    t.active = true ∧ t.flying = [] := by
  have hshare : t.flying.length + t.svmHolds.toNat ≤ 0 + t.active.toNat := hc.share
  have hact := Bool.toNat_le t.active
  rw [ball, Bool.toNat_true] at hshare
  exact ⟨Bool.toNat_eq_one.mp (by omega), List.length_eq_zero_iff.mp (by omega)⟩

theorem lone_idle {t : Table G} (hc : Conserved 0 t) (idle : t.active = false) :
    t.flying = [] ∧ t.svmHolds = false := by
  have hshare : t.flying.length + t.svmHolds.toNat ≤ 0 + t.active.toNat := hc.share
  rw [idle, Bool.toNat_false] at hshare
  exact ⟨List.length_eq_zero_iff.mp (by omega), Bool.toNat_eq_zero.mp (by omega)⟩

section place
variable {t : Table G} {k : G} {v r : Nat}

theorem inPlay_eq_zero_iff : t.inPlay = 0 ↔ t.flying = [] ∧ t.svmHolds = false := by
  rw [inPlay, Nat.add_eq_zero_iff, List.length_eq_zero_iff, Bool.toNat_eq_zero]

theorem place_of_idle (idle : t.active = false) : t.place = .parked := by
  simp [place, idle]

theorem place_of_svm (active : t.active = true) (alone : t.flying = [⟨.svm, k, v, r⟩]) :
    t.place = .toSvm v r := by
  simp [place, active, alone]

theorem place_of_evm (active : t.active = true) (alone : t.flying = [⟨.evm, k, v, r⟩]) :
    t.place = .toEvm v r := by
  simp [place, active, alone]

theorem place_of_held (active : t.active = true) (empty : t.flying = [])
    (ball : t.svmHolds = true) : t.place = .held t.svmValue := by
  simp [place, active, empty, ball]

theorem place_of_dead (active : t.active = true) (empty : t.flying = [])
    (noBall : t.svmHolds = false) : t.place = .dead := by
  simp [place, active, empty, noBall]

theorem active_of_place (h : t.place ≠ .parked) : t.active = true := by
  by_contra hact
  exact h (place_of_idle (eq_false_of_ne_true hact))

theorem flying_of_toSvm (h : t.place = .toSvm v r) : ∃ k, t.flying[0]? = some ⟨.svm, k, v, r⟩ := by
  have hact : t.active = true := active_of_place (by rw [h]; nofun)
  rw [place, if_pos hact] at h
  split at h
  · split at h <;> cases h
  · rename_i hfly
    cases h
    exact ⟨_, by rw [hfly]; rfl⟩
  · cases h

theorem flying_of_toEvm (h : t.place = .toEvm v r) : ∃ k, t.flying[0]? = some ⟨.evm, k, v, r⟩ := by
  have hact : t.active = true := active_of_place (by rw [h]; nofun)
  rw [place, if_pos hact] at h
  split at h
  · split at h <;> cases h
  · cases h
  · rename_i hfly
    cases h
    exact ⟨_, by rw [hfly]; rfl⟩

theorem holds_of_held (h : t.place = .held v) : t.svmHolds = true ∧ t.svmValue = v := by
  have hact : t.active = true := active_of_place (by rw [h]; nofun)
  rw [place, if_pos hact] at h
  split at h
  · split at h
    · rename_i hball
      cases h
      exact ⟨hball, rfl⟩
    · cases h
  · cases h
  · cases h

theorem quiet_iff_place (hc : Conserved 0 t) :
    t.inPlay = 0 ↔ t.place = .parked ∨ t.place = .dead := by
  rw [inPlay_eq_zero_iff]
  constructor
  · rintro ⟨hfly, hholds⟩
    cases hact : t.active with
    | true => exact .inr (place_of_dead hact hfly hholds)
    | false => exact .inl (place_of_idle hact)
  · rintro (h | h)
    · refine lone_idle hc (eq_false_of_ne_true fun hact => ?_)
      rw [place, if_pos hact] at h
      split at h
      · split at h <;> cases h
      · cases h
      · cases h
    · have hact : t.active = true := active_of_place (by rw [h]; nofun)
      rw [place, if_pos hact] at h
      split at h
      · rename_i hfly
        split at h
        · cases h
        · rename_i hholds
          exact ⟨hfly, eq_false_of_ne_true hholds⟩
      · cases h
      · cases h

end place

theorem rally_serve {t : Table G} {m : Nat} {k : G} (hc : Conserved 0 t) (idle : t.active = false) :
    rally { t with
      active := true
      evmHolds := false
      cap := m
      evmValue := fullBall
      evmRally := 0
      flying := t.flying ++ [⟨.svm, k, fullBall, 0⟩] } =
      ⟨.toSvm fullBall 0, false, m, 0, t.svmRally⟩ := by
  obtain ⟨hfly, -⟩ := lone_idle hc idle
  simp [rally, place, hfly]

variable [DecidableEq G] {t t' : Table G} {mv : Move} {out : List (Ball G)}

theorem rally_step (hc : Conserved 0 t) (unseen : ∀ b ∈ t.flying, t.seen b.guid = false)
    (hs : t.Step mv t' out) (noPause : mv.isPause = false) :
    t.rally.Step mv t'.rally (out.map Ball.message) := by
  cases hs with
  | serve idle pos le =>
    rw [rally_serve hc idle]
    exact .serve (place_of_idle idle) pos le
  | pause active => cases noPause
  | idle => exact .idle
  | @sendBall w k ball pos =>
    obtain ⟨hact, hfly⟩ := lone_held hc ball
    have hafter : place { t with
        svmHolds := false
        flying := t.flying ++ [⟨.evm, k, w, t.svmRally⟩] } = .toEvm w t.svmRally :=
      place_of_evm (k := k) hact (by rw [hfly, List.nil_append])
    simp only [rally, hafter]
    exact .sendBall (place_of_held hact hfly ball) pos
  | replay here done =>
    have hnew := unseen _ (List.mem_of_getElem? here)
    rw [done] at hnew
    cases hnew
  | @finish i k v r here fresh free last =>
    obtain ⟨hact, -, hfly, -⟩ := lone_ball hc here
    have hlim : t.limit = t.cap := if_pos hact
    rw [hlim] at last ⊢
    exact .finish (place_of_evm hact hfly) last
  | @reply i k j v r here fresh free lt =>
    obtain ⟨hact, -, hfly, herase⟩ := lone_ball hc here
    have hlim : t.limit = t.cap := if_pos hact
    rw [hlim] at lt ⊢
    rw [herase, List.nil_append]
    exact .reply (place_of_evm hact hfly) lt
  | @keep i k v r here high pos lt =>
    obtain ⟨hact, -, hfly, herase⟩ := lone_ball hc here
    have hafter : place { t with
        svmHolds := true
        svmValue := v
        svmRally := t.svmRally + 1
        flying := t.flying.eraseIdx i } = .held v := place_of_held hact herase rfl
    simp only [rally, hafter]
    exact .keep (place_of_svm hact hfly) high pos lt
  | @drop i k v r here high cap last =>
    obtain ⟨hact, -, hfly, herase⟩ := lone_ball hc here
    have hafter : place { t with
        svmHolds := false
        svmValue := v
        svmRally := t.svmRally + 1
        flying := t.flying.eraseIdx i } = .dead := place_of_dead hact herase rfl
    simp only [rally, hafter]
    exact .drop (place_of_svm hact hfly) high cap last

theorem place_of_receiveSvm {i : Nat} (hc : Conserved 0 t) (hs : t.Step (.receiveSvm i) t' out) :
    ∃ b, t.flying[i]? = some b ∧ t.place = .toSvm b.value b.rally := by
  cases hs with
  | keep here | drop here =>
    obtain ⟨hact, -, hfly, -⟩ := lone_ball hc here
    exact ⟨_, here, place_of_svm hact hfly⟩

theorem place_of_receiveEvm {i : Nat} (hc : Conserved 0 t) (hs : t.Step (.receiveEvm i) t' out) :
    ∃ b, t.flying[i]? = some b ∧ t.place = .toEvm b.value b.rally := by
  cases hs with
  | replay here | finish here | reply here =>
    obtain ⟨hact, -, hfly, -⟩ := lone_ball hc here
    exact ⟨_, here, place_of_evm hact hfly⟩

theorem conserved_of_noPause {n : Nat} (hc : Conserved n t) (hs : t.Step mv t' out)
    (noPause : mv.isPause = false) : Conserved n t' := by
  have hn : abandons ⟨t, mv, t', out⟩ = false := by simp [abandons, noPause]
  have hc' := conserved_step hc hs
  rw [hn] at hc'
  exact hc'

theorem rally_trace {s : Table G} {h : History G} (hc : Conserved 0 s) (trace : Trace Step s h t)
    (unseen : ∀ c ∈ h, ∀ b ∈ c.before.flying, c.before.seen b.guid = false)
    (noPause : ∀ c ∈ h, c.action.isPause = false) :
    Conserved 0 t ∧ Trace Rally.Step s.rally (h.map (Commit.map rally id Ball.message)) t.rally :=
  trace.refine (Q := fun c => (∀ b ∈ c.before.flying, c.before.seen b.guid = false) ∧
      c.action.isPause = false) hc
    (fun _ hi hs hq => ⟨conserved_of_noPause hi hs hq.2, rally_step hi hq.1 hs hq.2⟩)
    fun c hc => ⟨unseen c hc, noPause c hc⟩

end CrossChainPingPong.Table
