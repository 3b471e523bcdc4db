import CrossChainPingPong.Library.Trace

namespace Past
variable {α : Type} {opens meets closes : α → Prop} {h : List α} {d : α}

def All (P : List α → α → Prop) (h : List α) : Prop :=
  ∀ pre c post, h = pre ++ c :: post → P pre c

def Pending (opens closes : α → Prop) (h : List α) : Prop :=
  ∃ pre c mid, h = pre ++ c :: mid ∧ opens c ∧ ∀ e ∈ mid, ¬ closes e

def Alternates (opens meets closes : α → Prop) (h : List α) : Prop :=
  ∀ pre c mid e post, h = pre ++ c :: (mid ++ e :: post) → opens c → meets e → ∃ d ∈ mid, closes d

theorem split_concat {pre post : List α} {c : α} (hs : h ++ [d] = pre ++ c :: post) :
    (pre = h ∧ c = d) ∨ ∃ post', post = post' ++ [d] ∧ h = pre ++ c :: post' := by
  rcases post.eq_nil_or_concat with rfl | ⟨post', e, rfl⟩
  · obtain ⟨rfl, hd⟩ := List.append_inj' hs rfl
    exact .inl ⟨rfl, (List.singleton_inj.mp hd).symm⟩
  · rw [List.concat_eq_append, ← List.cons_append, ← List.append_assoc] at hs
    obtain ⟨rfl, hd⟩ := List.append_inj' hs rfl
    obtain rfl := List.singleton_inj.mp hd
    exact .inr ⟨post', List.concat_eq_append, rfl⟩

theorem all_nil (P : List α → α → Prop) : All P [] := by
  intro pre c post hs
  simp at hs

theorem all_concat {P : List α → α → Prop} : All P (h ++ [d]) ↔ All P h ∧ P h d := by
  constructor
  · intro hall
    refine ⟨fun pre c post hs => hall pre c (post ++ [d]) (by simp [hs]), hall h d [] rfl⟩
  · rintro ⟨hall, hlast⟩ pre c post hs
    obtain ⟨rfl, rfl⟩ | ⟨post', rfl, hpre⟩ := split_concat hs
    · exact hlast
    · exact hall pre c post' hpre

theorem all_mem {P : α → Prop} : All (fun _ c => P c) h ↔ ∀ c ∈ h, P c := by
  constructor
  · intro hall c hc
    obtain ⟨pre, post, hs⟩ := List.append_of_mem hc
    exact hall pre c post hs
  · rintro hmem pre c post rfl
    exact hmem c (by simp)

theorem not_pending_nil : ¬ Pending opens closes [] := by
  rintro ⟨pre, c, mid, hs, -⟩
  simp at hs

theorem pending_concat :
    Pending opens closes (h ++ [d]) ↔ opens d ∨ (Pending opens closes h ∧ ¬ closes d) := by
  constructor
  · rintro ⟨pre, c, mid, hs, hopen, hmid⟩
    obtain ⟨rfl, rfl⟩ | ⟨mid', rfl, hpre⟩ := split_concat hs
    · exact .inl hopen
    · obtain ⟨hmid', hd⟩ := List.forall_mem_append.mp hmid
      exact .inr ⟨⟨pre, c, mid', hpre, hopen, hmid'⟩, hd d (List.mem_singleton_self d)⟩
  · rintro (hopen | ⟨⟨pre, c, mid, rfl, hopen, hmid⟩, hd⟩)
    · exact ⟨h, d, [], rfl, hopen, fun e he => by cases he⟩
    · refine ⟨pre, c, mid ++ [d], by simp, hopen, ?_⟩
      exact List.forall_mem_append.mpr ⟨hmid, List.forall_mem_singleton.mpr hd⟩

theorem alternates_iff :
    Alternates opens meets closes h ↔ All (fun pre e => meets e → ¬ Pending opens closes pre) h := by
  constructor
  · rintro halt pre e post rfl hmeets ⟨past, c, mid, rfl, hopen, hmid⟩
    obtain ⟨d, hd, hclose⟩ := halt past c mid e post (by simp) hopen hmeets
    exact hmid d hd hclose
  · intro hall pre c mid e post hs hopen hmeets
    by_contra hnone
    refine hall (pre ++ c :: mid) e post (by simp [hs]) hmeets ⟨pre, c, mid, rfl, hopen, ?_⟩
    exact fun d hd hclose => hnone ⟨d, hd, hclose⟩

variable {β : Type}

def tallyAfter (f : List α → α → List β) (past : List α) : List α → List β
  | [] => []
  | c :: h => f past c ++ tallyAfter f (past ++ [c]) h

def tally (f : List α → α → List β) (h : List α) : List β := tallyAfter f [] h

theorem tallyAfter_concat (f : List α → α → List β) (past h : List α) (c : α) :
    tallyAfter f past (h ++ [c]) = tallyAfter f past h ++ f (past ++ h) c := by
  induction h generalizing past with
  | nil => simp [tallyAfter]
  | cons e h ih => simp [tallyAfter, ih]

theorem tally_concat (f : List α → α → List β) (h : List α) (c : α) :
    tally f (h ++ [c]) = tally f h ++ f h c := tallyAfter_concat f [] h c

theorem tally_sublist {f : List α → α → List β} {g : α → List β}
    (le : ∀ past c, (f past c).Sublist (g c)) (h : List α) : (tally f h).Sublist (h.flatMap g) := by
  induction h using List.reverseRecOn with
  | nil => exact List.Sublist.refl _
  | append_singleton h c ih =>
    rw [tally_concat, List.flatMap_append, List.flatMap_singleton]
    exact ih.append (le h c)

end Past

theorem Machine.all_history {S A E O : Type} (M : Machine S A E O) {s : S} {as : List A}
    {I : List (Commit S A O) → S → Prop} {P : List (Commit S A O) → Commit S A O → Prop}
    (run : ∀ bs, I (M.history s bs) (M.run s bs))
    (step : ∀ h c, I h c.before → M.Commits c → P h c) : Past.All P (M.history s as) := by
  intro pre c post hs
  obtain ⟨bs, cs, -, rfl, hr, hc, -⟩ := M.history_split hs
  exact step _ c (hr ▸ run bs) hc

namespace Trace
variable {S A O : Type} {Step : S → A → S → List O → Prop} {s t : S} {h : List (Commit S A O)}
  {N : Commit S A O → Prop}

-- P and Q say the same of a step and its past as long as P has kept the invariant I; N is what is
-- assumed of each step
theorem all_iff {I : List (Commit S A O) → S → Prop}
    {P Q : List (Commit S A O) → Commit S A O → Prop} (trace : Trace Step s h t) (base : I [] s)
    (same : ∀ h c, I h c.before → Step c.before c.action c.after c.out → N c → (P h c ↔ Q h c))
    (keep : ∀ h c, I h c.before → Step c.before c.action c.after c.out → P h c →
      I (h ++ [c]) c.after)
    (assumed : ∀ c ∈ h, N c) : Past.All P h ↔ Past.All Q h := by
  refine (trace.rule (P := fun h t => (Past.All P h ↔ Past.All Q h) ∧ (Past.All P h → I h t))
    ⟨iff_of_true (Past.all_nil P) (Past.all_nil Q), fun _ => base⟩ ?_ assumed).1
  rintro h c ⟨ih, hi⟩ hs hn
  rw [Past.all_concat, Past.all_concat]
  refine ⟨?_, fun ⟨hp, hpc⟩ => keep h c (hi hp) hs hpc⟩
  constructor
  · rintro ⟨hp, hpc⟩
    exact ⟨ih.mp hp, (same h c (hi hp) hs hn).mp hpc⟩
  · rintro ⟨hq, hqc⟩
    have hp := ih.mpr hq
    exact ⟨hp, (same h c (hi hp) hs hn).mpr hqc⟩

theorem forall_iff {I : S → Prop} {P Q : Commit S A O → Prop} (trace : Trace Step s h t)
    (base : I s)
    (same : ∀ c, I c.before → Step c.before c.action c.after c.out → N c → (P c ↔ Q c))
    (keep : ∀ c, I c.before → Step c.before c.action c.after c.out → P c → I c.after)
    (assumed : ∀ c ∈ h, N c) : (∀ c ∈ h, P c) ↔ ∀ c ∈ h, Q c := by
  rw [← Past.all_mem, ← Past.all_mem]
  exact trace.all_iff (I := fun _ s => I s) base (fun _ c => same c) (fun _ c => keep c) assumed

end Trace
