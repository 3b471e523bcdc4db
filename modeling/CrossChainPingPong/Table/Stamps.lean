import CrossChainPingPong.Table.Rules

namespace CrossChainPingPong.Table
variable {G : Type}

-- E holds the guids given out so far; no two messages get the same one
structure Stamped (E : List G) (t : Table G) : Prop where
  distinct : (t.flying.map Ball.guid).Nodup
  known : ∀ b ∈ t.flying, b.guid ∈ E
  unseen : ∀ b ∈ t.flying, t.seen b.guid = false
  spent : ∀ k, t.seen k = true → k ∈ E

def guids (h : History G) : List G := (Machine.emitted h).map Ball.guid

theorem stamped_start : Stamped [] (start : Table G) := ⟨.nil, nofun, nofun, nofun⟩

namespace Stamped
variable {E : List G} {t t' : Table G} {i : Nat} {b : Ball G}

theorem push (hs : Stamped E t) (new : b.guid ∉ E) (flying : t'.flying = t.flying ++ [b])
    (seen : t'.seen = t.seen) : Stamped (E ++ [b.guid]) t' where
  distinct := by
    rw [flying, List.map_append, List.map_singleton]
    refine List.nodup_append.mpr ⟨hs.distinct, List.pairwise_singleton _ _, ?_⟩
    rintro k hk k' hk' rfl
    obtain ⟨c, hc, rfl⟩ := List.mem_map.mp hk
    obtain heq := List.mem_singleton.mp hk'
    exact new (heq ▸ hs.known c hc)
  known := by
    rw [flying]
    intro c hc
    rcases List.mem_append.mp hc with hc | hc
    · exact List.mem_append_left _ (hs.known c hc)
    · obtain rfl := List.mem_singleton.mp hc
      exact List.mem_append_right _ (List.mem_singleton_self _)
  unseen := by
    rw [flying, seen]
    intro c hc
    rcases List.mem_append.mp hc with hc | hc
    · exact hs.unseen c hc
    · obtain rfl := List.mem_singleton.mp hc
      exact eq_false_of_ne_true fun h => new (hs.spent _ h)
  spent := by
    rw [seen]
    intro k hk
    exact List.mem_append_left _ (hs.spent k hk)

theorem erase (hs : Stamped E t) (flying : t'.flying = t.flying.eraseIdx i)
    (seen : t'.seen = t.seen) : Stamped E t' := by
  have hsub : t'.flying.Sublist t.flying := flying ▸ List.eraseIdx_sublist _ _
  refine ⟨(hsub.map _).nodup hs.distinct, fun c hc => hs.known c (hsub.subset hc), ?_, ?_⟩
  · rw [seen]
    exact fun c hc => hs.unseen c (hsub.subset hc)
  · rw [seen]
    exact hs.spent

theorem take [DecidableEq G] (hs : Stamped E t) (here : t.flying[i]? = some b)
    (flying : t'.flying = t.flying.eraseIdx i) (seen : t'.seen = t.mark b.guid) :
    Stamped E t' := by
  have hsub : t'.flying.Sublist t.flying := flying ▸ List.eraseIdx_sublist _ _
  have hnodup : (b.guid :: t'.flying.map Ball.guid).Nodup := by
    rw [flying, ← List.map_cons]
    exact ((Pool.erase_perm here).map Ball.guid).nodup_iff.mpr hs.distinct
  refine ⟨(hsub.map _).nodup hs.distinct, fun c hc => hs.known c (hsub.subset hc), ?_, ?_⟩
  · intro c hc
    have hne : c.guid ≠ b.guid := fun h =>
      (List.nodup_cons.mp hnodup).1 (h ▸ List.mem_map_of_mem hc)
    rw [seen, mark, Function.update_of_ne hne]
    exact hs.unseen c (hsub.subset hc)
  · intro k hk
    rw [seen, mark] at hk
    by_cases hkb : k = b.guid
    · exact hkb ▸ hs.known b (List.mem_of_getElem? here)
    · rw [Function.update_of_ne hkb] at hk
      exact hs.spent k hk

end Stamped

variable [DecidableEq G] {t t' : Table G} {mv : Move} {out : List (Ball G)} {E : List G}

theorem stamped_step (hst : Stamped E t) (hs : t.Step mv t' out)
    (new : ∀ b ∈ out, b.guid ∉ E) : Stamped (E ++ out.map Ball.guid) t' := by
  cases hs with
  | serve idle pos le => exact hst.push (new _ (List.mem_singleton_self _)) rfl rfl
  | pause active | idle =>
    rw [List.map_nil, List.append_nil]
    exact ⟨hst.distinct, hst.known, hst.unseen, hst.spent⟩
  | sendBall ball pos => exact hst.push (new _ (List.mem_singleton_self _)) rfl rfl
  | replay here done | keep here high pos lt | drop here high cap last =>
    rw [List.map_nil, List.append_nil]
    exact hst.erase rfl rfl
  | finish here fresh free last =>
    rw [List.map_nil, List.append_nil]
    exact hst.take here rfl rfl
  | @reply i k j v r here fresh free lt =>
    have htake : Stamped E { t with
        flying := t.flying.eraseIdx i
        seen := t.mark k } := hst.take here rfl rfl
    exact htake.push (new _ (List.mem_singleton_self _)) rfl rfl

theorem stamped_trace {h : History G} (trace : Trace Step start h t) (distinct : (guids h).Nodup) :
    Stamped (guids h) t := by
  induction trace with
  | nil => exact stamped_start
  | @snoc h u mv u' out past step ih =>
    have hsplit : guids (h ++ [⟨u, mv, u', out⟩]) = guids h ++ out.map Ball.guid := by
      simp [guids]
    rw [hsplit] at distinct ⊢
    obtain ⟨hpast, -, hdisj⟩ := List.nodup_append.mp distinct
    refine stamped_step (ih hpast) step fun b hb hk => ?_
    exact hdisj _ hk _ (List.mem_map_of_mem hb) rfl

theorem unseen_before {h : History G} {c : Commit (Table G) Move (Ball G)}
    (trace : Trace Step start h t) (distinct : (guids h).Nodup) (hc : c ∈ h) :
    ∀ b ∈ c.before.flying, c.before.seen b.guid = false := by
  obtain ⟨pre, post, rfl⟩ := List.append_of_mem hc
  have hpre : (guids pre).Nodup := by
    rw [guids, Machine.emitted_append, List.map_append] at distinct
    exact (List.nodup_append.mp distinct).1
  exact (stamped_trace trace.split.1 hpre).unseen

end CrossChainPingPong.Table
