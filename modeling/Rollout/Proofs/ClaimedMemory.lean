/-
# Memory that nested lists claim

Before nested lists are checked, room is reserved for as many elements as the lengths
along their first items say.  Rectangular lists have that many scalars, but ragged ones
can claim far more than they hold.  With `n` items in all the cube of the claim is at
most `3 ^ n`: 122 items can claim more than a word holds, and 114 items more than can be
reserved.  A request that carries such lists gets no reply.  The main statement is
`ragged_lists_claim_memory`.
-/
import Mathlib.Tactic.Ring
import Rollout.Proofs.RectangularLists
import Rollout.Proofs.ReplyKeys

namespace Rollout.Nested

open Numeric (Double)

variable {α : Type}

/-! ## Items -/

mutual

/-- The number of items of all lists. -/
def itemCount : Nested α → Nat
  | .scalar _ => 0
  | .list items => items.length + itemCountAll items

/-- The number of items of all lists within these. -/
def itemCountAll : List (Nested α) → Nat
  | [] => 0
  | first :: rest => itemCount first + itemCountAll rest

end

/-- The lists along the first items are some of the lists. -/
theorem sum_shape_le (n : Nested α) : n.shape.sum ≤ n.itemCount := by
  induction n using induct with
  | scalar a =>
    rw [shape, itemCount]
    exact Nat.le_refl 0
  | list ns ih =>
    cases ns with
    | nil =>
      rw [shape, itemCount]
      exact Nat.zero_le _
    | cons first rest =>
      have hfirst : first.shape.sum ≤ first.itemCount := ih first List.mem_cons_self
      rw [shape, itemCount, itemCountAll, List.sum_cons, List.length_cons]
      omega

/-! ## Claims -/

/-- A third power is no greater than the power of three. -/
theorem cube_le_three_pow (k : Nat) : k ^ 3 ≤ 3 ^ k := by
  induction k with
  | zero => decide
  | succ k ih =>
    match k, ih with
    | 0, _ => decide
    | 1, _ => decide
    | 2, _ => decide
    | k + 3, ih =>
      -- from three on, the power grows by three and the cube by less
      have hstep : (k + 3 + 1) ^ 3 ≤ 3 * (k + 3) ^ 3 := by
        have hdiff : 3 * (k + 3) ^ 3 = (k + 3 + 1) ^ 3 + (2 * k ^ 3 + 15 * k ^ 2 + 33 * k + 17) := by
          ring
        omega
      calc (k + 3 + 1) ^ 3 ≤ 3 * (k + 3) ^ 3 := hstep
        _ ≤ 3 * 3 ^ (k + 3) := Nat.mul_le_mul_left 3 ih
        _ = 3 ^ (k + 3 + 1) := by ring

/-- The volume of a shape is largest for axes of length three. -/
theorem volume_cube_le (shape : List Nat) : volume shape ^ 3 ≤ 3 ^ shape.sum := by
  induction shape with
  | nil => decide
  | cons count inner ih =>
    calc volume (count :: inner) ^ 3 = count ^ 3 * volume inner ^ 3 := by rw [volume, Nat.mul_pow]
      _ ≤ 3 ^ count * 3 ^ inner.sum := Nat.mul_le_mul (cube_le_three_pow count) ih
      _ = 3 ^ (count :: inner).sum := by rw [List.sum_cons, Nat.pow_add]

/-- Whatever axes the claim has been multiplied up to, nested lists claim no more than so many items
can. -/
theorem claim_cube_le (n : Nested α) (k : Nat) : volume (n.shape.take k) ^ 3 ≤ 3 ^ n.itemCount := by
  have hsplit : (n.shape.take k).sum + (n.shape.drop k).sum = n.shape.sum := by
    rw [← List.sum_append, List.take_append_drop]
  have hsum : (n.shape.take k).sum ≤ n.itemCount := by
    have hall := sum_shape_le n
    omega
  exact (volume_cube_le _).trans (Nat.pow_le_pow_right (by decide) hsum)

/-- It takes `items` items to claim as many elements as `items - 1` cannot. -/
theorem le_itemCount_of_claim {n : Nested α} {k claim items : Nat} (hsmall : 3 ^ items < claim ^ 3)
    (h : claim ≤ volume (n.shape.take k)) : items < n.itemCount := by
  by_contra hle
  have hcube : claim ^ 3 ≤ 3 ^ items :=
    calc claim ^ 3 ≤ volume (n.shape.take k) ^ 3 := Nat.pow_le_pow_left h 3
      _ ≤ 3 ^ n.itemCount := claim_cube_le n k
      _ ≤ 3 ^ items := Nat.pow_le_pow_right (by decide) (Nat.le_of_not_lt hle)
  omega

/-- Items that have as many items each have so many together. -/
theorem mul_le_itemCountAll {ns : List (Nested α)} {c : Nat} (h : ∀ n ∈ ns, c ≤ n.itemCount + 1) :
    ns.length * c ≤ ns.length + itemCountAll ns := by
  induction ns with
  | nil =>
    rw [List.length_nil, Nat.zero_mul]
    exact Nat.zero_le _
  | cons n ns ih =>
    have hn : c ≤ n.itemCount + 1 := h n List.mem_cons_self
    have hns := ih fun m hm => h m (List.mem_cons_of_mem n hm)
    rw [List.length_cons, Nat.succ_mul, itemCountAll]
    omega

/-- Lists that follow a shape have the items that it claims, up to whatever axis. -/
theorem Follows.claim_le {n : Nested α} {s : List Nat} (h : n.Follows s) (k : Nat) :
    volume (s.take k) ≤ n.itemCount + 1 := by
  induction n using induct generalizing s k with
  | scalar a =>
    obtain rfl := follows_scalar_iff.mp h
    rw [List.take_nil, volume]
    exact Nat.le_add_left 1 _
  | list ns ih =>
    obtain ⟨inner, rfl, hns⟩ := follows_list_iff.mp h
    cases k with
    | zero =>
      rw [List.take_zero, volume]
      exact Nat.le_add_left 1 _
    | succ k =>
      have hall := mul_le_itemCountAll fun n hn => ih n hn (hns n hn) k
      rw [List.take_succ_cons, volume, itemCount]
      omega

/-! ## Requests that carry claims -/

/-- Room cannot be reserved for so many elements exactly if they have too many bytes. -/
theorem reservable_eq_false_iff {count : Nat} : reservable count = false ↔ 2 ^ 63 ≤ 8 * count := by
  rw [reservable, decide_eq_false_iff_not, Nat.not_lt]

/-- Memory runs out exactly over ragged lists of whose claim the word holds more than can be
reserved. -/
theorem toTensor_eq_capacity_iff {n : Nested α} : n.toTensor = .error .capacity ↔
    ¬ n.Rectangular ∧ 2 ^ 63 ≤ 8 * wordVolume n.shape := by
  rw [← reservable_eq_false_iff]
  by_cases hrect : n.Rectangular
  · obtain ⟨t, ht⟩ := exists_toTensor_eq_ok_iff.mpr hrect
    rw [ht]
    exact ⟨nofun, fun h => absurd hrect h.1⟩
  · rw [toTensor_of_not_rectangular hrect]
    cases reservable (wordVolume n.shape) with
    | true => exact ⟨nofun, fun h => nomatch h.2⟩
    | false => exact ⟨fun _ => ⟨hrect, rfl⟩, fun _ => rfl⟩

/-- **Ragged lists claim memory.**  Before nested lists are checked, their claim is multiplied up
along the first items, and room for it is reserved.  Two things can go wrong.  The product can outgrow
the word (`Outgrows`), where checked arithmetic fails and unchecked arithmetic goes on with what the
word holds; and what it holds can be more than can be reserved (`capacity`).  Rectangular lists have
the items that they claim, so neither happens to them, unless they have as many items; ragged lists
need 122 items for the first and 114 for the second.  A server that is ready has no reply to a step
exactly if room for its actions cannot be reserved, and all lists that are nested no deeper than the
reader goes can be sent. -/
theorem ragged_lists_claim_memory {σ : Type} [Env σ] (n : Nested Double) (s : Server σ)
    (ready : s.lifecycle = .ready) :
    (n.toTensor = .error .capacity ↔ ¬ n.Rectangular ∧ 2 ^ 63 ≤ 8 * wordVolume n.shape) ∧
    (¬ Outgrows n.shape → wordVolume n.shape = volume n.shape) ∧
    (n.Rectangular →
      n.leaves.length = volume n.shape ∧ ∀ k, volume (n.shape.take k) ≤ n.itemCount + 1) ∧
    (∀ k, volume (n.shape.take k) ^ 3 ≤ 3 ^ n.itemCount) ∧
    (Outgrows n.shape → 122 ≤ n.itemCount) ∧
    (n.toTensor = .error .capacity → 114 ≤ n.itemCount) ∧
    (∀ b p, Request.decode b = .ok (.step p) → p.actions = some n →
      ((s.handle b).reply = none ↔ n.toTensor = .error .capacity)) ∧
    (n.Fits 1021 → ∀ action render, Request.decode (Request.step ⟨some n, action, render⟩).encode
      = .ok (.step ⟨some n, action, render⟩)) := by
  refine ⟨toTensor_eq_capacity_iff, wordVolume_of_not_outgrows, ?_, claim_cube_le n, ?_, ?_, ?_, ?_⟩
  · intro hrect
    exact ⟨hrect.follows_shape.length_leaves, hrect.follows_shape.claim_le⟩
  · rintro ⟨k, hk⟩
    exact le_itemCount_of_claim (by decide : 3 ^ 121 < (2 ^ 64) ^ 3) hk
  · intro h
    have hclaim := (toTensor_eq_capacity_iff.mp h).2
    have hmod : wordVolume n.shape ≤ volume n.shape := Nat.mod_le _ _
    refine le_itemCount_of_claim (k := n.shape.length) (by decide : 3 ^ 113 < (2 ^ 60) ^ 3) ?_
    rw [List.take_length]
    omega
  · intro b p hb hp
    rw [Server.reply_eq_none_iff, Server.refuses_capacity_iff]
    constructor
    · rintro ⟨p', actions, hb', -, hp', hcapacity⟩
      obtain rfl : p = p' := by
        have hsame := hb.symm.trans hb'
        cases hsame
        rfl
      obtain rfl : n = actions := Option.some.inj (hp.symm.trans hp')
      exact hcapacity
    · intro hcapacity
      exact ⟨p, n, hb, ready, hp, hcapacity⟩
  · intro hfits action render
    have hrequest : (Request.step ⟨some n, action, render⟩).Fits 1021 := by
      intro x hx
      obtain rfl := Option.some.inj hx
      exact hfits
    exact hrequest.decode_encode

/-- Triples nested so deep, with numbers as the other items of each. -/
def raggedTriples : (depth : Nat) → Nested Double
  | 0 => .scalar ⟨0x3ff0000000000000⟩
  | depth + 1 =>
    .list [raggedTriples depth, .scalar ⟨0x3ff0000000000000⟩, .scalar ⟨0x3ff0000000000000⟩]

/-- Triples are nested as deep as they say. -/
theorem fits_raggedTriples (depth : Nat) : (raggedTriples depth).Fits depth := by
  induction depth with
  | zero => exact .scalar _
  | succ depth ih =>
    refine .list (by decide : 3 < 2 ^ 32) ?_
    intro x hx
    simp only [List.mem_cons, List.not_mem_nil, or_false] at hx
    rcases hx with rfl | rfl | rfl
    · exact ih
    · exact .scalar _
    · exact .scalar _

/-- With 114 items, triples nested 38 deep are the least lists over which memory runs out: a server
with a grid has no reply to a step with them.  Pairs nested 64 deep outgrow the word, of which nothing
is left then. -/
theorem ragged_lists_claim_memory_triples :
    let s := (Server.start (.start World.registry .usual)).afterAll
      [(Request.make ⟨"GridWorld-v0", 1⟩).encode]
    s.lifecycle = .ready ∧
    ((raggedTriples 38).itemCount = 114 ∧ (raggedTriples 38).toTensor = .error .capacity ∧
      wordVolume (raggedTriples 38).shape = volume (raggedTriples 38).shape ∧
      (s.handle (Request.step ⟨some (raggedTriples 38), none, false⟩).encode).reply = none) ∧
    (Outgrows (Serving.raggedPairs 64).shape ∧ 122 ≤ (Serving.raggedPairs 64).itemCount ∧
      wordVolume (Serving.raggedPairs 64).shape = 0 ∧
      (Serving.raggedPairs 64).toTensor ≠ .error .capacity) := by
  intro s
  have hready : s.lifecycle = .ready := by decide +kernel
  have hcount : (raggedTriples 38).itemCount = 114 := by decide +kernel
  have hcapacity : (raggedTriples 38).toTensor = .error .capacity := rfl
  have hword : ¬ Outgrows (raggedTriples 38).shape := by decide +kernel
  have hfits : (raggedTriples 38).Fits 1021 := (fits_raggedTriples 38).mono (by decide)
  obtain ⟨-, hvolume, -, -, -, -, hsilent, hdecode⟩ :=
    ragged_lists_claim_memory (raggedTriples 38) s hready
  have hpairs : Outgrows (Serving.raggedPairs 64).shape := by decide +kernel
  have hnothing : wordVolume (Serving.raggedPairs 64).shape = 0 := by decide +kernel
  obtain ⟨hiff, -, -, -, hitems, -⟩ := ragged_lists_claim_memory (Serving.raggedPairs 64) s hready
  refine ⟨hready, ⟨hcount, hcapacity, hvolume hword, ?_⟩, hpairs, hitems hpairs, hnothing, ?_⟩
  · exact (hsilent _ _ (hdecode hfits none false) rfl).mpr hcapacity
  · intro h
    have hclaim := (hiff.mp h).2
    rw [hnothing] at hclaim
    exact absurd hclaim (by decide)

end Rollout.Nested
