/-
# Updates of a table

An update that names a pair of the table succeeds, and it changes the entry of that
pair alone: positions tell pairs apart.  So a table that is filled outcome by outcome
ends up with the outcomes of every pair in its entry, in the order in which they came.
-/
import Mathlib.Data.List.Nodup
import Mathlib.Data.List.ProdSigma
import Rollout.Proofs.TableEntries

namespace Rollout.TransitionTable

variable {t t' : TransitionTable} {states actions state action : Nat}
variable {f : List Transition → List Transition} {os : List Transition}

/-! ## Positions -/

/-- Pairs with actions in range are told apart by their positions. -/
theorem position_injective {state' action' : Nat} (ha : action < actions) (ha' : action' < actions) :
    state * actions + action = state' * actions + action' ↔ state = state' ∧ action = action' := by
  constructor
  · intro h
    have hpos : 0 < actions := by omega
    have hdiv : ∀ s a, a < actions → (s * actions + a) / actions = s := by
      intro s a hlt
      rw [Nat.add_comm, Nat.add_mul_div_right _ _ hpos, Nat.div_eq_of_lt hlt, Nat.zero_add]
    have hstate : state = state' := by rw [← hdiv state action ha, h, hdiv state' action' ha']
    subst hstate
    exact ⟨rfl, by omega⟩
  · rintro ⟨rfl, rfl⟩
    rfl

/-- A pair outside the table has no entry. -/
theorem entry?_eq_none (h : ¬ (state < t.states ∧ action < t.actions)) :
    t.entry? state action = none := by
  unfold entry?
  rw [if_neg]
  rwa [contains_iff]

/-- The entry of a pair stands at the position of the pair. -/
theorem entry?_of_lt (hs : state < t.states) (ha : action < t.actions) :
    t.entry? state action = t.entries[state * t.actions + action]? := by
  unfold entry?
  rw [if_pos (contains_iff.mpr ⟨hs, ha⟩)]

/-- Tables of the same size with the same entries are equal. -/
theorem ext_of_entry?_eq (hstates : t.states = t'.states) (hactions : t.actions = t'.actions)
    (h : ∀ state < t.states, ∀ action < t.actions, t.entry? state action = t'.entry? state action) :
    t = t' := by
  have hentries : t.entries = t'.entries := by
    apply List.ext_getElem?
    intro i
    by_cases hi : i < t.states * t.actions
    · have hpos : 0 < t.actions := Nat.pos_of_mul_pos_left (by omega : 0 < t.states * t.actions)
      have hs : i / t.actions < t.states := (Nat.div_lt_iff_lt_mul hpos).mpr hi
      have ha : i % t.actions < t.actions := Nat.mod_lt i hpos
      have hentry := h _ hs _ ha
      rw [entry?_of_lt hs ha, entry?_of_lt (hstates ▸ hs) (hactions ▸ ha), ← hactions,
        Nat.div_add_mod'] at hentry
      exact hentry
    · rw [List.getElem?_eq_none (by rw [t.length_entries]; omega),
        List.getElem?_eq_none (by rw [t'.length_entries, ← hstates, ← hactions]; omega)]
  rcases t with ⟨_, _, entries, _⟩
  rcases t' with ⟨_, _, entries', _⟩
  cases hstates
  cases hactions
  cases hentries
  rfl

theorem entry?_empty (hs : state < states) (ha : action < actions) :
    entry? (empty states actions) state action = some [] := by
  rw [entry?_of_lt hs ha]
  exact (List.getElem?_replicate ..).trans (if_pos (position_lt hs ha))

/-! ## Updates of one entry -/

/-- The entry of a pair of the table can be changed. -/
theorem exists_modify?_eq_some (hs : state < t.states) (ha : action < t.actions) :
    ∃ t', t.modify? state action f = some t' := by
  unfold modify?
  rw [if_pos (contains_iff.mpr ⟨hs, ha⟩)]
  exact ⟨_, rfl⟩

/-- An update changes the entry of its pair and no other. -/
theorem of_modify?_eq_some (h : t.modify? state action f = some t') :
    (state < t.states ∧ action < t.actions) ∧ t'.states = t.states ∧ t'.actions = t.actions ∧
      ∀ state' action', t'.entry? state' action' =
        if state' = state ∧ action' = action then t.entry? state' action' |>.map f
        else t.entry? state' action' := by
  unfold modify? at h
  split at h
  · rename_i hc
    obtain ⟨hs, ha⟩ := contains_iff.mp hc
    obtain ⟨hstates, hactions, hentries⟩ : t'.states = t.states ∧ t'.actions = t.actions ∧
        t'.entries = t.entries.modify (state * t.actions + action) f := by
      cases h
      exact ⟨rfl, rfl, rfl⟩
    refine ⟨⟨hs, ha⟩, hstates, hactions, ?_⟩
    intro state' action'
    by_cases hin : state' < t.states ∧ action' < t.actions
    · rw [entry?_of_lt hin.1 hin.2, entry?_of_lt (hstates ▸ hin.1) (hactions ▸ hin.2), hentries,
        hactions, List.getElem?_modify]
      by_cases heq : state' = state ∧ action' = action
      · rw [if_pos heq, heq.1, heq.2]
        simp
      · have hne : ¬ state * t.actions + action = state' * t.actions + action' := by
          rw [position_injective ha hin.2]
          intro hpair
          exact heq ⟨hpair.1.symm, hpair.2.symm⟩
        rw [if_neg heq]
        simp [hne]
    · rw [entry?_eq_none (t := t) hin, entry?_eq_none (by rwa [hstates, hactions])]
      simp
  · cases h

/-! ## Filling a table -/

/-- The table with outcomes added one after another at the end of an entry. -/
def pushAll? (t : TransitionTable) (state action : Nat) (os : List Transition) :
    Option TransitionTable :=
  os.foldlM (fun t o => t.push? state action o) t

theorem pushAll?_cons (t : TransitionTable) (state action : Nat) (o : Transition)
    (os : List Transition) :
    t.pushAll? state action (o :: os) = (t.push? state action o).bind (·.pushAll? state action os) :=
  rfl

/-- Outcomes can be added to the entry of a pair of the table; they are at its end then, in order,
and the other entries are as they were. -/
theorem exists_pushAll?_eq_some (hs : state < t.states) (ha : action < t.actions)
    (os : List Transition) :
    ∃ t', t.pushAll? state action os = some t' ∧ t'.states = t.states ∧ t'.actions = t.actions ∧
      ∀ state' action', t'.entry? state' action' =
        if state' = state ∧ action' = action then t.entry? state' action' |>.map (· ++ os)
        else t.entry? state' action' := by
  induction os generalizing t with
  | nil =>
    refine ⟨t, rfl, rfl, rfl, ?_⟩
    intro state' action'
    simp
  | cons o os ih =>
    obtain ⟨t₁, h₁⟩ := exists_modify?_eq_some (f := (· ++ [o])) hs ha
    obtain ⟨-, hstates₁, hactions₁, hentry₁⟩ := of_modify?_eq_some h₁
    obtain ⟨t₂, h₂, hstates₂, hactions₂, hentry₂⟩ := ih (hstates₁ ▸ hs) (hactions₁ ▸ ha)
    refine ⟨t₂, ?_, hstates₂.trans hstates₁, hactions₂.trans hactions₁, ?_⟩
    · rw [pushAll?_cons, push?, h₁]
      exact h₂
    · intro state' action'
      rw [hentry₂, hentry₁]
      by_cases heq : state' = state ∧ action' = action
      · rw [if_pos heq, if_pos heq, if_pos heq, Option.map_map]
        congr 1
        funext entry
        simp
      · rw [if_neg heq, if_neg heq, if_neg heq]

/-- The empty table filled with the outcomes of every pair, state by state, if they can be had. -/
def fill? (states actions : Nat) (outcomes? : Nat → Nat → Option (List Transition)) :
    Option TransitionTable :=
  (List.range states ×ˢ List.range actions).foldlM
    (fun t p => (outcomes? p.1 p.2).bind (t.pushAll? p.1 p.2)) (empty states actions)

/-- Pairs of the table that are filled one after another hold what they are filled with. -/
theorem exists_foldlM_pushAll? {outcomes? : Nat → Nat → Option (List Transition)}
    {outcomes : Nat → Nat → List Transition} {pairs : List (Nat × Nat)} (hnodup : pairs.Nodup)
    (hin : ∀ p ∈ pairs, p.1 < t.states ∧ p.2 < t.actions)
    (h : ∀ p ∈ pairs, outcomes? p.1 p.2 = some (outcomes p.1 p.2)) :
    ∃ t', pairs.foldlM (fun t p => (outcomes? p.1 p.2).bind (t.pushAll? p.1 p.2)) t = some t' ∧
      t'.states = t.states ∧ t'.actions = t.actions ∧
      ∀ state action, t'.entry? state action =
        if (state, action) ∈ pairs then t.entry? state action |>.map (· ++ outcomes state action)
        else t.entry? state action := by
  induction pairs generalizing t with
  | nil => exact ⟨t, rfl, rfl, rfl, fun _ _ => rfl⟩
  | cons p pairs ih =>
    rw [List.nodup_cons] at hnodup
    rw [List.forall_mem_cons] at hin h
    obtain ⟨t₁, h₁, hstates₁, hactions₁, hentry₁⟩ :=
      exists_pushAll?_eq_some hin.1.1 hin.1.2 (outcomes p.1 p.2)
    obtain ⟨t₂, h₂, hstates₂, hactions₂, hentry₂⟩ := ih (t := t₁) hnodup.2
      (by rw [hstates₁, hactions₁]; exact hin.2) h.2
    refine ⟨t₂, ?_, hstates₂.trans hstates₁, hactions₂.trans hactions₁, ?_⟩
    · rw [List.foldlM_cons, h.1]
      show (t.pushAll? p.1 p.2 (outcomes p.1 p.2)).bind _ = some t₂
      rw [h₁]
      exact h₂
    · intro state action
      rw [hentry₂, hentry₁]
      by_cases heq : (state, action) = p
      · -- the pair does not come again
        subst heq
        simp [hnodup.1]
      · have hne : ¬ (state = p.1 ∧ action = p.2) := fun hp => heq (Prod.ext hp.1 hp.2)
        simp [heq, hne]

/-- Filling a table succeeds if the outcomes of all its pairs can be had, and gives the table of
these outcomes. -/
theorem fill?_eq_some {outcomes? : Nat → Nat → Option (List Transition)}
    {outcomes : Nat → Nat → List Transition}
    (h : ∀ state < states, ∀ action < actions,
      outcomes? state action = some (outcomes state action)) :
    fill? states actions outcomes? = some (ofFn states actions outcomes) := by
  have hmem : ∀ state action, (state, action) ∈ List.range states ×ˢ List.range actions ↔
      state < states ∧ action < actions := by
    intro state action
    rw [List.mem_product, List.mem_range, List.mem_range]
  have hpairs : ∀ p ∈ List.range states ×ˢ List.range actions,
      outcomes? p.1 p.2 = some (outcomes p.1 p.2) :=
    fun p hp => h _ ((hmem p.1 p.2).mp hp).1 _ ((hmem p.1 p.2).mp hp).2
  obtain ⟨t', ht', hstates, hactions, hentry⟩ := exists_foldlM_pushAll? (t := empty states actions)
    (List.Nodup.product List.nodup_range List.nodup_range) (fun p hp => (hmem p.1 p.2).mp hp) hpairs
  rw [fill?, ht']
  refine congrArg some (ext_of_entry?_eq hstates hactions ?_)
  intro state hs action ha
  have hs : state < states := lt_of_lt_of_eq hs hstates
  have ha : action < actions := lt_of_lt_of_eq ha hactions
  rw [hentry, if_pos ((hmem state action).mpr ⟨hs, ha⟩), entry?_empty hs ha,
    entry?_ofFn outcomes hs ha]
  rfl

end Rollout.TransitionTable
