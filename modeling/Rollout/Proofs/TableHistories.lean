/-
# Histories of a table

A table is written by updates: an outcome is put at the end of an entry, or an entry
is replaced.  An update that names a pair outside the table is refused.  What the entry
of a pair holds in the end is told by the updates of that pair alone, replayed in
their order on the empty entry: `table_replays_updates`.
-/
import Rollout.Proofs.TableUpdates

namespace Rollout.TransitionTable

variable {t : TransitionTable} {states actions state action : Nat}

/-! ## Updates -/

/-- What is asked of a table. -/
inductive Update where
  /-- An outcome is put at the end of the entry of a pair. -/
  | push (state action : Nat) (o : Transition)
  /-- The entry of a pair is replaced. -/
  | replace (state action : Nat) (os : List Transition)

namespace Update

/-- The pair that is named. -/
def pair : Update → Nat × Nat
  | push state action _ => (state, action)
  | replace state action _ => (state, action)

/-- What becomes of the entry of the pair. -/
def change : Update → List Transition → List Transition
  | push _ _ o, entry => entry ++ [o]
  | replace _ _ os, _ => os

/-- The pair lies in a table of this size. -/
def Within (states actions : Nat) (u : Update) : Prop := u.pair.1 < states ∧ u.pair.2 < actions

instance (u : Update) : Decidable (u.Within states actions) :=
  inferInstanceAs (Decidable (u.pair.1 < states ∧ u.pair.2 < actions))

end Update

/-- The entry that updates make of another, one after another. -/
def replay (updates : List Update) (entry : List Transition) : List Transition :=
  updates.foldl (fun entry u => u.change entry) entry

/-- The table after an update, none if the update is refused. -/
def update? (t : TransitionTable) : Update → Option TransitionTable
  | .push state action o => t.push? state action o
  | .replace state action os => t.replace? state action os

/-- The table after an update, which is as it was if the update is refused. -/
def afterUpdate (t : TransitionTable) (u : Update) : TransitionTable := (t.update? u).getD t

/-- The table after updates, one after another. -/
def afterUpdates (t : TransitionTable) (updates : List Update) : TransitionTable :=
  updates.foldl afterUpdate t

@[simp] theorem afterUpdates_cons (u : Update) (updates : List Update) :
    t.afterUpdates (u :: updates) = (t.afterUpdate u).afterUpdates updates := rfl

/-! ## One update -/

variable {u : Update}

/-- The two kinds of updates differ in what they make of the entry, and in nothing else. -/
theorem update?_eq_modify? (t : TransitionTable) (u : Update) :
    t.update? u = t.modify? u.pair.1 u.pair.2 u.change := by
  cases u with
  | push state action o => rfl
  | replace state action os => rfl

/-- Exactly the updates of pairs outside the table are refused. -/
theorem update?_eq_none_iff : t.update? u = none ↔ ¬ u.Within t.states t.actions := by
  rw [update?_eq_modify?]
  constructor
  · intro hnone hwithin
    obtain ⟨t', ht'⟩ := exists_modify?_eq_some (f := u.change) hwithin.1 hwithin.2
    rw [hnone] at ht'
    cases ht'
  · intro hout
    rcases h : t.modify? u.pair.1 u.pair.2 u.change with _ | t'
    · rfl
    · exact absurd (of_modify?_eq_some h).1 hout

/-- An update of a pair of the table goes through. -/
theorem update?_of_within (h : u.Within t.states t.actions) :
    t.update? u = some (t.afterUpdate u) := by
  rcases hu : t.update? u with _ | t'
  · exact absurd h (update?_eq_none_iff.mp hu)
  · rw [afterUpdate, hu]
    rfl

/-- An update that is refused leaves the table as it is. -/
theorem afterUpdate_of_not_within (h : ¬ u.Within t.states t.actions) : t.afterUpdate u = t := by
  rw [afterUpdate, update?_eq_none_iff.mpr h]
  rfl

/-- An update keeps the size of the table. -/
@[simp] theorem size_afterUpdate (t : TransitionTable) (u : Update) :
    (t.afterUpdate u).states = t.states ∧ (t.afterUpdate u).actions = t.actions := by
  by_cases hu : u.Within t.states t.actions
  · have h := update?_of_within hu
    rw [update?_eq_modify?] at h
    obtain ⟨-, hstates, hactions, -⟩ := of_modify?_eq_some h
    exact ⟨hstates, hactions⟩
  · rw [afterUpdate_of_not_within hu]
    exact ⟨rfl, rfl⟩

/-- An update changes the entry of its pair and no other. -/
theorem entry?_afterUpdate (t : TransitionTable) (u : Update) (state action : Nat) :
    entry? (t.afterUpdate u) state action =
      if (state, action) = u.pair then t.entry? state action |>.map u.change
      else t.entry? state action := by
  by_cases hu : u.Within t.states t.actions
  · have h := update?_of_within hu
    rw [update?_eq_modify?] at h
    obtain ⟨-, -, -, hentry⟩ := of_modify?_eq_some h
    have hpair : (state, action) = u.pair ↔ state = u.pair.1 ∧ action = u.pair.2 := Prod.ext_iff
    rw [hentry]
    exact if_congr hpair.symm rfl rfl
  · rw [afterUpdate_of_not_within hu]
    split
    · rename_i hpair
      -- the pair has no entry that could be changed
      have hnone : t.entry? state action = none := by
        apply entry?_eq_none
        rwa [Update.Within, ← hpair] at hu
      rw [hnone]
      rfl
    · rfl

/-! ## Many updates -/

/-- Updates keep the size of the table. -/
@[simp] theorem size_afterUpdates (t : TransitionTable) (updates : List Update) :
    (t.afterUpdates updates).states = t.states ∧ (t.afterUpdates updates).actions = t.actions := by
  induction updates generalizing t with
  | nil => exact ⟨rfl, rfl⟩
  | cons u updates ih => simpa using ih (t.afterUpdate u)

/-- An entry changes as the updates of its pair say. -/
theorem entry?_afterUpdates (t : TransitionTable) (updates : List Update) (state action : Nat) :
    entry? (t.afterUpdates updates) state action =
      (t.entry? state action |>.map (replay (updates.filter (·.pair = (state, action))))) := by
  induction updates generalizing t with
  | nil =>
    rcases h : t.entry? state action with _ | entry
    · exact h
    · exact h
  | cons u updates ih =>
    rw [afterUpdates_cons, ih, entry?_afterUpdate, List.filter_cons]
    by_cases hpair : u.pair = (state, action)
    · rw [if_pos hpair.symm, if_pos (by simpa using hpair), Option.map_map]
      rfl
    · rw [if_neg (Ne.symm hpair), if_neg (by simpa using hpair)]

/-- Updates of pairs of the table go through, and one that is refused stops them. -/
theorem foldlM_update? (t : TransitionTable) (updates : List Update) :
    updates.foldlM update? t =
      if ∀ u ∈ updates, u.Within t.states t.actions then some (t.afterUpdates updates) else none := by
  induction updates generalizing t with
  | nil => rfl
  | cons u updates ih =>
    rw [List.foldlM_cons]
    by_cases hu : u.Within t.states t.actions
    · rw [update?_of_within hu]
      show updates.foldlM update? (t.afterUpdate u) = _
      simp [ih, hu]
    · rw [update?_eq_none_iff.mpr hu, if_neg]
      · rfl
      · intro hall
        exact hu (hall u List.mem_cons_self)

/-! ## The table as a map -/

/-- The pairs of a new table have the empty entry. -/
theorem entry?_empty_eq_ite (states actions state action : Nat) :
    entry? (empty states actions) state action =
      if state < states ∧ action < actions then some [] else none := by
  split
  · rename_i hin
    exact entry?_empty hin.1 hin.2
  · rename_i hout
    exact entry?_eq_none hout

/-- There is room for a new table unless its entries take more bytes than memory can have. -/
theorem reserve?_eq_some_iff :
    reserve? states actions = some t ↔
      24 * (states * actions) < 2 ^ 63 ∧ t = empty states actions := by
  unfold reserve?
  split
  · rename_i h
    rw [Option.some.injEq, eq_comm]
    exact (and_iff_right h).symm
  · rename_i h
    refine iff_of_false ?_ fun hall => h hall.1
    intro hnone
    cases hnone

/-- **A table is a total map on its rectangle.**  A new table of whatever size is written by any
updates, some of which may be refused.  It keeps its size, and there is a position for each of its
pairs among the entries.  In the end, as all along, an update is refused exactly if its state or its
action is out of range; otherwise it changes the entry of its pair and no other.  A pair has an entry
exactly if it lies in the table, and the entry is what the updates of that pair alone make of the
empty one.  If a refused update is to stop the run, the run goes through exactly if all updates are
in range. -/
theorem table_replays_updates (states actions : Nat) (updates : List Update) :
    let t := (empty states actions).afterUpdates updates
    (∀ t₀, reserve? states actions = some t₀ ↔
      24 * (states * actions) < 2 ^ 63 ∧ t₀ = empty states actions) ∧
    (t.states = states ∧ t.actions = actions ∧ t.entries.length = states * actions ∧
      ∀ state < states, ∀ action < actions, state * actions + action < t.entries.length) ∧
    (∀ u, t.update? u = none ↔ ¬ (u.pair.1 < states ∧ u.pair.2 < actions)) ∧
    (∀ u state action, entry? (t.afterUpdate u) state action =
      if (state, action) = u.pair then t.entry? state action |>.map u.change
      else t.entry? state action) ∧
    (∀ state action, t.entry? state action =
      if state < states ∧ action < actions then
        some (replay (updates.filter (·.pair = (state, action))) [])
      else none) ∧
    updates.foldlM update? (empty states actions) =
      if ∀ u ∈ updates, u.pair.1 < states ∧ u.pair.2 < actions then some t else none := by
  intro t
  obtain ⟨hstates, hactions⟩ : t.states = states ∧ t.actions = actions :=
    size_afterUpdates (empty states actions) updates
  have hlength : t.entries.length = states * actions := by
    rw [t.length_entries, hstates, hactions]
  refine ⟨fun _ => reserve?_eq_some_iff, ⟨hstates, hactions, hlength, ?_⟩, ?_,
    entry?_afterUpdate t, ?_, foldlM_update? (empty states actions) updates⟩
  · intro state hs action ha
    rw [hlength]
    exact position_lt hs ha
  · intro u
    rw [update?_eq_none_iff, hstates, hactions]
    rfl
  · intro state action
    rw [entry?_afterUpdates, entry?_empty_eq_ite]
    split
    · rfl
    · rfl

/-- An outcome that is pushed, replaced and pushed again, with a push out of range in between that
would lie at the position of the next state. -/
theorem table_replays_updates_rightEdge :
    let o : Transition := ⟨0.5, 1, -1.0, false⟩
    let updates : List Update :=
      [.push 0 1 o, .replace 0 1 [], .push 0 2 o, .push 0 1 o, .push 1 1 o, .push 0 1 o]
    let t := (empty 2 2).afterUpdates updates
    t.entry? 0 1 = some [o, o] ∧ t.entry? 1 0 = some [] ∧ t.entry? 0 2 = none ∧
      updates.foldlM update? (empty 2 2) = none := by
  intro o updates t
  obtain ⟨-, -, -, -, hentry, hrun⟩ := table_replays_updates 2 2 updates
  refine ⟨?_, ?_, ?_, ?_⟩
  · exact (hentry 0 1).trans (if_pos (by decide))
  · exact (hentry 1 0).trans (if_pos (by decide))
  · exact (hentry 0 2).trans (if_neg (by decide))
  · exact hrun.trans (if_neg (by decide))

end Rollout.TransitionTable
