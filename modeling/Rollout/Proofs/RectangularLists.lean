/-
# Rectangular nested lists

Nested lists are rectangular if at every depth there are only scalars, or only lists of
one length.  These and no others are the nested lists that a tensor is read from: the
shape is guessed along the first items (`shape`), and `Follows` says that the lists at
every depth have the length that a shape claims.  Tensors and rectangular lists are
turned into each other without loss, but for the axes behind one of length zero.  Of
other lists those are refused that claim no more memory than there is.  The main
statement is `rectangular_lists_are_tensors`.
-/
import Rollout.Proofs.TensorValues

namespace Rollout.Nested

variable {α : Type}

/-! ## Depths -/

/-- The items of a list; a scalar has none. -/
def items : Nested α → List (Nested α)
  | .scalar _ => []
  | .list items => items

/-- The length of a list; a scalar has none. -/
def length? : Nested α → Option Nat
  | .scalar _ => none
  | .list items => some items.length

/-- The scalars and lists at a depth, from left to right. -/
def atDepth : Nat → Nested α → List (Nested α)
  | 0, n => [n]
  | d + 1, n => n.items.flatMap (atDepth d)

/-- At every depth there are only scalars, or only lists of one length. -/
def Rectangular (n : Nested α) : Prop :=
  ∀ d, ∀ x ∈ n.atDepth d, ∀ y ∈ n.atDepth d, x.length? = y.length?

mutual

/-- The scalars from left to right. -/
def leaves : Nested α → List α
  | .scalar a => [a]
  | .list items => leavesAll items

/-- The scalars of lists, one after another. -/
def leavesAll : List (Nested α) → List α
  | [] => []
  | first :: rest => leaves first ++ leavesAll rest

end

/-- The scalars of several lists are those of each, in order. -/
theorem leavesAll_eq_flatMap (ns : List (Nested α)) : leavesAll ns = ns.flatMap leaves := by
  induction ns with
  | nil => rw [leavesAll, List.flatMap_nil]
  | cons n ns ih => rw [leavesAll, List.flatMap_cons, ih]

/-- What holds of scalars, and of a list if it holds of its items, holds of all nested lists. -/
theorem induct {P : Nested α → Prop} (scalar : ∀ a, P (.scalar a))
    (list : ∀ ns, (∀ n ∈ ns, P n) → P (.list ns)) : ∀ n, P n
  | .scalar a => scalar a
  | .list ns => list ns fun n _ => induct scalar list n

/-- What lies at a depth of an item lies one deeper. -/
theorem mem_atDepth_succ {n i x : Nested α} {d : Nat} (hi : i ∈ n.items) (hx : x ∈ i.atDepth d) :
    x ∈ n.atDepth (d + 1) :=
  List.mem_flatMap.mpr ⟨i, hi, hx⟩

/-! ## Following a shape -/

/-- At every depth there are only lists of the length that the shape says, and scalars at its
end. -/
def Follows (n : Nested α) (shape : List Nat) : Prop :=
  ∀ d, ∀ x ∈ n.atDepth d, x.length? = shape[d]?

/-- A scalar follows the empty shape only. -/
@[simp] theorem follows_scalar_iff {a : α} {shape : List Nat} :
    Follows (.scalar a) shape ↔ shape = [] := by
  constructor
  · intro h
    have hnone : none = shape[0]? := h 0 (.scalar a) List.mem_cons_self
    exact List.getElem?_eq_none_iff.mp hnone.symm |> Nat.le_zero.mp |> List.length_eq_zero_iff.mp
  · rintro rfl d x hx
    cases d with
    | zero =>
      obtain rfl := List.mem_singleton.mp hx
      rfl
    | succ d => cases hx

/-- A list follows a shape that begins with its length if all items follow the rest of it. -/
theorem follows_list_iff {ns : List (Nested α)} {shape : List Nat} :
    Follows (.list ns) shape ↔
      ∃ inner, shape = ns.length :: inner ∧ ∀ n ∈ ns, Follows n inner := by
  constructor
  · intro h
    have hsome : some ns.length = shape[0]? := h 0 (.list ns) List.mem_cons_self
    cases shape with
    | nil => cases hsome
    | cons count inner =>
      obtain rfl := Option.some.inj hsome
      exact ⟨inner, rfl, fun n hn d x hx => h (d + 1) x (mem_atDepth_succ hn hx)⟩
  · rintro ⟨inner, rfl, h⟩ d x hx
    cases d with
    | zero =>
      obtain rfl := List.mem_singleton.mp hx
      rfl
    | succ d =>
      obtain ⟨n, hn, hx⟩ := List.mem_flatMap.mp hx
      exact h n hn d x hx

/-- What follows a shape is rectangular. -/
theorem Follows.rectangular {n : Nested α} {shape : List Nat} (h : n.Follows shape) :
    n.Rectangular := by
  intro d x hx y hy
  rw [h d x hx, h d y hy]

/-- The scalars and lists at a depth of one and those of the other are alike. -/
def Alike (x y : Nested α) : Prop :=
  ∀ d, ∀ u ∈ x.atDepth d, ∀ v ∈ y.atDepth d, u.length? = v.length?

theorem Alike.item {x y i j : Nested α} (h : Alike x y) (hi : i ∈ x.items) (hj : j ∈ y.items) :
    Alike i j :=
  fun d u hu v hv => h (d + 1) u (mem_atDepth_succ hi hu) v (mem_atDepth_succ hj hv)

/-- Nested lists that are alike follow the same shapes. -/
theorem Alike.follows {x y : Nested α} {shape : List Nat} (h : Alike x y) (hx : x.Follows shape) :
    y.Follows shape := by
  have htop : x.length? = y.length? := h 0 x List.mem_cons_self y List.mem_cons_self
  induction shape generalizing x y with
  | nil =>
    cases x with
    | list xs =>
      obtain ⟨inner, hnil, -⟩ := follows_list_iff.mp hx
      cases hnil
    | scalar a =>
      cases y with
      | list ys => cases htop
      | scalar b => exact follows_scalar_iff.mpr rfl
  | cons count inner ih =>
    cases x with
    | scalar a => cases follows_scalar_iff.mp hx
    | list xs =>
      obtain ⟨inner', hshape, hxs⟩ := follows_list_iff.mp hx
      obtain ⟨rfl, rfl⟩ := List.cons.inj hshape
      cases y with
      | scalar b => cases htop
      | list ys =>
        have hlength : xs.length = ys.length := Option.some.inj htop
        refine follows_list_iff.mpr ⟨inner, by rw [hlength], ?_⟩
        intro j hj
        -- an item of the one list is like all items of the other one
        have hpos : 0 < xs.length := by
          rw [hlength]
          exact List.length_pos_of_mem hj
        have hi : xs[0] ∈ xs := List.getElem_mem hpos
        have hij : Alike xs[0] j := h.item hi hj
        exact ih hij (hxs _ hi) (hij 0 _ List.mem_cons_self _ List.mem_cons_self)

/-- Rectangular lists follow the shape along their first items. -/
theorem Rectangular.follows_shape {n : Nested α} (h : n.Rectangular) : n.Follows n.shape := by
  induction n using induct with
  | scalar a => exact follows_scalar_iff.mpr rfl
  | list ns ih =>
    cases ns with
    | nil => exact follows_list_iff.mpr ⟨[], rfl, nofun⟩
    | cons first rest =>
      have halike : ∀ i ∈ first :: rest, Alike first i :=
        fun i hi => Alike.item h List.mem_cons_self hi
      have hfirst : first.Follows first.shape :=
        ih first List.mem_cons_self (halike first List.mem_cons_self)
      refine follows_list_iff.mpr ⟨first.shape, by rw [shape, List.length_cons], ?_⟩
      intro i hi
      exact (halike i hi).follows hfirst

/-! ## Axes up to one of length zero -/

/-- The axes up to the first one of length zero, with it. -/
def cut : List Nat → List Nat
  | [] => []
  | 0 :: _ => [0]
  | (count + 1) :: inner => (count + 1) :: cut inner

theorem cut_eq_self {shape : List Nat} (h : ∀ k ∈ shape.dropLast, k ≠ 0) : cut shape = shape := by
  induction shape with
  | nil => rfl
  | cons count inner ih =>
    cases inner with
    | nil =>
      cases count with
      | zero => rfl
      | succ count => rfl
    | cons next inner =>
      have hcount : count ≠ 0 := h count List.mem_cons_self
      obtain ⟨count, rfl⟩ := Nat.exists_eq_succ_of_ne_zero hcount
      rw [cut, ih fun k hk => h k (List.mem_cons_of_mem _ hk)]

theorem cut_of_zero_mem {shape : List Nat} (h : 0 ∈ shape) :
    cut shape = shape.takeWhile (· ≠ 0) ++ [0] := by
  induction shape with
  | nil => cases h
  | cons count inner ih =>
    cases count with
    | zero => rfl
    | succ count =>
      have hinner : 0 ∈ inner := by simpa using h
      rw [cut, ih hinner, List.takeWhile_cons_of_pos (by simp), List.cons_append]

theorem volume_of_zero_mem {shape : List Nat} (h : 0 ∈ shape) : volume shape = 0 := by
  induction shape with
  | nil => cases h
  | cons count inner ih =>
    rcases List.mem_cons.mp h with rfl | h
    · rw [volume, Nat.zero_mul]
    · rw [volume, ih h, Nat.mul_zero]

/-- The shape along the first items is the one that is followed, as far as there are items. -/
theorem Follows.shape_eq {n : Nested α} {s : List Nat} (h : n.Follows s) : n.shape = cut s := by
  induction s generalizing n with
  | nil =>
    cases n with
    | scalar a => rfl
    | list ns =>
      obtain ⟨inner, hnil, -⟩ := follows_list_iff.mp h
      cases hnil
  | cons count inner ih =>
    cases n with
    | scalar a => cases follows_scalar_iff.mp h
    | list ns =>
      obtain ⟨inner', hs, hns⟩ := follows_list_iff.mp h
      obtain ⟨rfl, rfl⟩ := List.cons.inj hs
      cases ns with
      | nil => rfl
      | cons first rest =>
        rw [shape, ih (hns first List.mem_cons_self)]
        rfl

/-! ## Flattening -/

theorem exists_flattenAll_iff {ns : List (Nested α)} {s : List Nat} :
    (∃ xs, flattenAll ns s = some xs) ↔ ∀ n ∈ ns, ∃ xs, flatten n s = some xs := by
  induction ns with
  | nil => simp [flattenAll]
  | cons n ns ih =>
    rw [List.forall_mem_cons, ← ih, flattenAll]
    constructor
    · rintro ⟨xs, h⟩
      split at h
      · rename_i as bs ha hb
        exact ⟨⟨as, ha⟩, bs, hb⟩
      · cases h
    · rintro ⟨⟨as, ha⟩, bs, hb⟩
      rw [ha, hb]
      exact ⟨as ++ bs, rfl⟩

/-- Nested lists can be flattened along the shapes that they follow. -/
theorem exists_flatten_iff {n : Nested α} {s : List Nat} :
    (∃ xs, flatten n s = some xs) ↔ n.Follows s := by
  induction n using induct generalizing s with
  | scalar a =>
    rw [follows_scalar_iff]
    cases s with
    | nil => exact ⟨fun _ => rfl, fun _ => ⟨[a], rfl⟩⟩
    | cons count inner =>
      constructor
      · rintro ⟨xs, h⟩
        cases h
      · intro h
        cases h
  | list ns ih =>
    rw [follows_list_iff]
    cases s with
    | nil =>
      constructor
      · rintro ⟨xs, h⟩
        cases h
      · rintro ⟨inner, h, -⟩
        cases h
    | cons count inner =>
      have hall : (∃ xs, flattenAll ns inner = some xs) ↔ ∀ n ∈ ns, n.Follows inner := by
        rw [exists_flattenAll_iff]
        exact forall₂_congr fun n hn => ih n hn
      rw [flatten]
      by_cases hc : ns.length = count
      · rw [if_pos hc, hall, ← hc]
        constructor
        · intro h
          exact ⟨inner, rfl, h⟩
        · rintro ⟨inner', hs, h⟩
          obtain rfl := (List.cons.inj hs).2
          exact h
      · rw [if_neg hc]
        constructor
        · rintro ⟨xs, h⟩
          cases h
        · rintro ⟨inner', hs, -⟩
          exact absurd (List.cons.inj hs).1.symm hc

mutual

/-- Flattening gives the scalars from left to right. -/
theorem eq_leaves_of_flatten : ∀ {n : Nested α} {s : List Nat} {xs : List α},
    flatten n s = some xs → xs = n.leaves
  | .scalar a, [], xs, h => by
    rw [leaves]
    exact (Option.some.inj h).symm
  | .scalar _, _ :: _, xs, h => by cases h
  | .list _, [], xs, h => by cases h
  | .list ns, count :: inner, xs, h => by
    rw [flatten] at h
    split at h
    · rw [leaves]
      exact eq_leavesAll_of_flattenAll h
    · cases h

theorem eq_leavesAll_of_flattenAll : ∀ {ns : List (Nested α)} {s : List Nat} {xs : List α},
    flattenAll ns s = some xs → xs = leavesAll ns
  | [], s, xs, h => by
    rw [leavesAll]
    exact (Option.some.inj h).symm
  | first :: rest, s, xs, h => by
    rw [flattenAll] at h
    split at h
    · rename_i as bs ha hb
      rw [leavesAll, ← eq_leaves_of_flatten ha, ← eq_leavesAll_of_flattenAll hb]
      exact (Option.some.inj h).symm
    · cases h

end

/-- Flattening works exactly along the shapes that are followed, and gives the scalars. -/
theorem flatten_eq_some_iff {n : Nested α} {s : List Nat} {xs : List α} :
    flatten n s = some xs ↔ n.Follows s ∧ xs = n.leaves := by
  constructor
  · intro h
    exact ⟨exists_flatten_iff.mp ⟨xs, h⟩, eq_leaves_of_flatten h⟩
  · rintro ⟨h, rfl⟩
    obtain ⟨xs, hxs⟩ := exists_flatten_iff.mpr h
    rw [hxs, eq_leaves_of_flatten hxs]

/-- There are as many scalars as the shape says that is followed. -/
theorem Follows.length_leaves {n : Nested α} {s : List Nat} (h : n.Follows s) :
    n.leaves.length = volume s :=
  length_flatten (flatten_eq_some_iff.mpr ⟨h, rfl⟩)

/-! ## There and back -/

/-- Rows that are put one after another are found again. -/
theorem map_chunk_flatten {width : Nat} {rows : List (List α)}
    (h : ∀ row ∈ rows, row.length = width) :
    (List.range rows.length).map (chunk width rows.flatten) = rows := by
  induction rows with
  | nil => rfl
  | cons row rows ih =>
    have hrow : row.length = width := h row List.mem_cons_self
    have hzero : chunk width (row ++ rows.flatten) 0 = row := by
      rw [chunk, Nat.zero_mul, List.drop_zero, ← hrow, List.take_left]
    have hsucc : ∀ i, chunk width (row ++ rows.flatten) (i + 1) = chunk width rows.flatten i := by
      intro i
      rw [chunk, chunk, Nat.succ_mul, Nat.add_comm, ← List.drop_drop, ← hrow, List.drop_left]
    rw [List.length_cons, List.range_succ_eq_map, List.map_cons, List.map_map, List.flatten_cons,
      hzero]
    refine congrArg (row :: ·) ?_
    refine Eq.trans ?_ (ih fun row' hrow' => h row' (List.mem_cons_of_mem row hrow'))
    exact List.map_congr_left fun i _ => hsucc i

/-- The scalars of nested lists, cut along a shape that is followed, are the nested lists. -/
theorem Follows.ofRows_leaves {n : Nested α} {s : List Nat} (h : n.Follows s) :
    ofRows s n.leaves = n := by
  induction n using induct generalizing s with
  | scalar a =>
    obtain rfl := follows_scalar_iff.mp h
    rw [leaves, ofRows]
  | list ns ih =>
    obtain ⟨inner, rfl, hns⟩ := follows_list_iff.mp h
    have hwidth : ∀ row ∈ ns.map leaves, row.length = volume inner := by
      intro row hrow
      obtain ⟨n, hn, rfl⟩ := List.mem_map.mp hrow
      exact (hns n hn).length_leaves
    have hrows : (List.range ns.length).map (chunk (volume inner) (leavesAll ns))
        = ns.map leaves := by
      have hchunk := map_chunk_flatten hwidth
      rwa [List.length_map, ← List.flatMap_def, ← leavesAll_eq_flatMap] at hchunk
    have hitems : (ns.map leaves).map (ofRows inner) = ns := by
      rw [List.map_map]
      exact (List.map_congr_left fun n hn => ih n hn (hns n hn)).trans (List.map_id ns)
    rw [leaves, ofRows_cons]
    refine congrArg Nested.list ?_
    calc (List.range ns.length).map (fun i => ofRows inner (chunk (volume inner) (leavesAll ns) i))
        = ((List.range ns.length).map (chunk (volume inner) (leavesAll ns))).map (ofRows inner) :=
          (List.map_map).symm
      _ = (ns.map leaves).map (ofRows inner) := by rw [hrows]
      _ = ns := hitems

theorem flattenAll_map {f : Nat → Nested α} {row : Nat → List α} {s : List Nat} {is : List Nat}
    (h : ∀ i ∈ is, flatten (f i) s = some (row i)) :
    flattenAll (is.map f) s = some (is.flatMap row) := by
  induction is with
  | nil => rfl
  | cons i is ih =>
    rw [List.map_cons, flattenAll, h i List.mem_cons_self,
      ih fun j hj => h j (List.mem_cons_of_mem i hj), List.flatMap_cons]

/-- The nested lists of a shape are flattened along it to the elements. -/
theorem flatten_ofRows {s : List Nat} {data : List α} (h : data.length = volume s) :
    flatten (ofRows s data) s = some data := by
  induction s generalizing data with
  | nil =>
    obtain ⟨a, rfl⟩ := List.length_eq_one_iff.mp h
    rfl
  | cons count inner ih =>
    have hrow : ∀ i ∈ List.range count, flatten (ofRows inner (chunk (volume inner) data i)) inner
        = some (chunk (volume inner) data i) :=
      fun i hi => ih (length_chunk h (List.mem_range.mp hi))
    rw [ofRows_cons, flatten, List.length_map, List.length_range, if_pos rfl, flattenAll_map hrow,
      flatMap_chunk h]

/-! ## Tensors of nested lists -/

/-- Nested lists are a tensor exactly if they are rectangular, and then it has their shape and their
scalars. -/
theorem toTensor_eq_ok_iff {n : Nested α} {t : Tensor α} :
    n.toTensor = .ok t ↔ n.Rectangular ∧ t.shape = n.shape ∧ t.data = n.leaves := by
  have hflatten : flatten n n.shape = some t.data ↔ n.Rectangular ∧ t.data = n.leaves := by
    rw [flatten_eq_some_iff]
    exact and_congr_left fun _ => ⟨Follows.rectangular, Rectangular.follows_shape⟩
  constructor
  · intro h
    unfold toTensor at h
    split at h
    · rename_i data hdata
      obtain rfl := Except.ok.inj h
      obtain ⟨hrect, hleaves⟩ := hflatten.mp hdata
      exact ⟨hrect, rfl, hleaves⟩
    · cases h
  · rintro ⟨hrect, hshape, hleaves⟩
    have hdata := hflatten.mpr ⟨hrect, hleaves⟩
    unfold toTensor
    split
    · rename_i data hdata'
      have heq : data = t.data := Option.some.inj (hdata'.symm.trans hdata)
      exact congrArg Except.ok (Tensor.ext hshape.symm heq)
    · rename_i hnone
      rw [hdata] at hnone
      cases hnone

theorem exists_toTensor_eq_ok_iff {n : Nested α} : (∃ t, n.toTensor = .ok t) ↔ n.Rectangular := by
  constructor
  · rintro ⟨t, h⟩
    exact (toTensor_eq_ok_iff.mp h).1
  · intro h
    exact ⟨⟨n.shape, n.leaves, h.follows_shape.length_leaves⟩, toTensor_eq_ok_iff.mpr ⟨h, rfl, rfl⟩⟩

/-- Lists that are not rectangular are refused, unless they claim more memory than there is. -/
theorem toTensor_of_not_rectangular {n : Nested α} (h : ¬ n.Rectangular) :
    n.toTensor = .error (if reservable (wordVolume n.shape) then .ragged else .capacity) := by
  unfold toTensor
  split
  · rename_i data hdata
    exact absurd (flatten_eq_some_iff.mp hdata).1.rectangular h
  · rfl

/-- The product of the lengths outgrows a 64-bit word, at whatever axis.  Arithmetic that is checked
fails there; arithmetic that is not goes on with what the word holds. -/
def Outgrows (shape : List Nat) : Prop := ∃ k, 2 ^ 64 ≤ volume (shape.take k)

/-- The axes tell whether the word is outgrown. -/
theorem outgrows_iff {shape : List Nat} :
    Outgrows shape ↔ ∃ k < shape.length + 1, 2 ^ 64 ≤ volume (shape.take k) := by
  constructor
  · rintro ⟨k, hk⟩
    rcases Nat.lt_or_ge k (shape.length + 1) with hlt | hge
    · exact ⟨k, hlt, hk⟩
    · refine ⟨shape.length, Nat.lt_succ_self _, ?_⟩
      rwa [List.take_of_length_le (by omega)] at hk ⊢
  · rintro ⟨k, -, hk⟩
    exact ⟨k, hk⟩

instance (shape : List Nat) : Decidable (Outgrows shape) := decidable_of_iff _ outgrows_iff.symm

/-- The word holds every product that does not outgrow it. -/
theorem wordVolume_of_not_outgrows {shape : List Nat} (h : ¬ Outgrows shape) :
    wordVolume shape = volume shape := by
  refine Nat.mod_eq_of_lt (Nat.lt_of_not_le fun hge => h ⟨shape.length, ?_⟩)
  rwa [List.take_length]

/-- The nested lists of a tensor give its elements, with the axes up to one of length zero. -/
theorem toTensor_ofTensor (t : Tensor α) :
    ∃ u, (ofTensor t).toTensor = .ok u ∧ u.shape = cut t.shape ∧ u.data = t.data := by
  obtain ⟨hfollows, hdata⟩ := flatten_eq_some_iff.mp (flatten_ofRows t.length_data)
  obtain ⟨u, hu⟩ := exists_toTensor_eq_ok_iff.mpr hfollows.rectangular
  obtain ⟨-, hshape, hleaves⟩ := toTensor_eq_ok_iff.mp hu
  exact ⟨u, hu, hshape.trans hfollows.shape_eq, hleaves.trans hdata.symm⟩

/-- **Rectangular lists are tensors.**  Nested lists are read as a tensor exactly if they are
rectangular, without loss.  Others are refused as ragged, unless the room for what their shape claims
cannot be reserved.  The claim is the product of the lengths, as far as a word holds it; where the
product does not outgrow the word, it is the product.  The nested lists of a tensor give it back,
unless an axis before the last has length zero: then the axes behind the first such one are lost. -/
theorem rectangular_lists_are_tensors (n : Nested α) (t : Tensor α) :
    ((∃ u, n.toTensor = .ok u) ↔ n.Rectangular) ∧
    (¬ n.Rectangular →
      n.toTensor = .error (if reservable (wordVolume n.shape) then .ragged else .capacity)) ∧
    (¬ n.Rectangular → ¬ Outgrows n.shape →
      n.toTensor = .error (if 8 * volume n.shape < 2 ^ 63 then .ragged else .capacity)) ∧
    (n.toTensor = .ok t → ofTensor t = n ∧ t.data = n.leaves) ∧
    ((∀ k ∈ t.shape.dropLast, k ≠ 0) → (ofTensor t).toTensor = .ok t) ∧
    ((∃ k ∈ t.shape.dropLast, k = 0) → ∃ u, (ofTensor t).toTensor = .ok u ∧ u.data = [] ∧
      u.shape = t.shape.takeWhile (· ≠ 0) ++ [0]) := by
  obtain ⟨u, hu, hshape, hdata⟩ := toTensor_ofTensor t
  refine ⟨exists_toTensor_eq_ok_iff, toTensor_of_not_rectangular, ?_, ?_, ?_, ?_⟩
  · intro hragged hword
    rw [toTensor_of_not_rectangular hragged, wordVolume_of_not_outgrows hword]
    simp only [reservable, decide_eq_true_eq]
  · intro h
    obtain ⟨hrect, hs, hleaves⟩ := toTensor_eq_ok_iff.mp h
    refine ⟨?_, hleaves⟩
    rw [ofTensor, hs, hleaves]
    exact hrect.follows_shape.ofRows_leaves
  · intro h
    rw [cut_eq_self h] at hshape
    rw [hu, Tensor.ext hshape hdata]
  · rintro ⟨k, hk, rfl⟩
    have hzero : 0 ∈ t.shape := List.dropLast_subset _ hk
    refine ⟨u, hu, ?_, by rw [hshape, cut_of_zero_mem hzero]⟩
    have hlength : u.data.length = 0 := by
      rw [hdata, t.length_data, volume_of_zero_mem hzero]
    exact List.length_eq_zero_iff.mp hlength

/-- Two rows, the second of which is longer. -/
def longerRow : Nested Nat := .list [.list [.scalar 1], .list [.scalar 2, .scalar 3]]

/-- Two rows of one element each, as lists. -/
def evenRows : Nested Nat := .list [.list [.scalar 1], .list [.scalar 2]]

/-- The same two rows as a tensor. -/
def shortRows : Tensor Nat := ⟨[2, 1], [1, 2], rfl⟩

/-- Two planes without rows. -/
def emptyPlanes : Tensor Nat := ⟨[2, 0, 3], [], rfl⟩

/-- The rows of different length are refused, the others come back, and so do the planes without
their last axis. -/
theorem rectangular_lists_are_tensors_longerRow :
    (¬ longerRow.Rectangular ∧ longerRow.toTensor = .error .ragged) ∧
    (evenRows.toTensor = .ok shortRows ∧ ofTensor shortRows = evenRows) ∧
    (ofTensor shortRows).toTensor = .ok shortRows ∧
    ∃ u, (ofTensor emptyPlanes).toTensor = .ok u ∧ u.data = [] ∧ u.shape = [2, 0] := by
  have hragged : ¬ longerRow.Rectangular := by
    intro h
    have hrows : some 1 = some 2 :=
      h 1 (.list [.scalar 1]) (by simp [longerRow, atDepth, items])
        (.list [.scalar 2, .scalar 3]) (by simp [longerRow, atDepth, items])
    cases hrows
  have hword : ¬ Outgrows longerRow.shape := by decide
  have hsmall : 8 * volume longerRow.shape < 2 ^ 63 := by decide
  have hrefused := (rectangular_lists_are_tensors longerRow shortRows).2.2.1 hragged hword
  rw [if_pos hsmall] at hrefused
  have heven : evenRows.toTensor = .ok shortRows := rfl
  have hback := (rectangular_lists_are_tensors evenRows shortRows).2.2.2.1 heven
  have hshort : ∀ k ∈ shortRows.shape.dropLast, k ≠ 0 := by decide
  have hempty : ∃ k ∈ emptyPlanes.shape.dropLast, k = 0 := ⟨0, by decide, rfl⟩
  exact ⟨⟨hragged, hrefused⟩, ⟨heven, hback.1⟩,
    (rectangular_lists_are_tensors evenRows shortRows).2.2.2.2.1 hshort,
    (rectangular_lists_are_tensors evenRows emptyPlanes).2.2.2.2.2 hempty⟩

end Rollout.Nested
