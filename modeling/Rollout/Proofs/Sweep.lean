/-
# Sweeps, position by position

A sweep calls its instances in order, up to the first failure.  A position is
reached if every call before it succeeds: there the instance takes the state that
its own call gives it, everywhere else it keeps the one it had.  So the outcome
at a position depends on the calls before it only through their success.
-/
import Rollout.Batch

namespace Rollout

/-! ## Mapped results -/

/-- A result is mapped to a value if it is one that the function takes there. -/
theorem map_eq_ok_iff {ε α β : Type} {f : α → β} {x : Except ε α} {b : β} :
    x.map f = .ok b ↔ ∃ a, x = .ok a ∧ b = f a := by
  rcases x with e | a
  · simp [Except.map]
  · simp [Except.map, eq_comm]

/-- Mapping a result keeps its failure. -/
theorem map_eq_error_iff {ε α β : Type} {f : α → β} {x : Except ε α} {e : ε} :
    x.map f = .error e ↔ x = .error e := by
  rcases x with e' | a
  · simp [Except.map]
  · simp [Except.map]

/-! ## Reached positions -/

variable {σ α β : Type} {run : α → σ → Except Failure β × σ}
variable {a : α} {as : List α} {e : σ} {es : List σ} {i : Nat}

/-- Every call of a sweep before position `i` succeeds. -/
def Reached (run : α → σ → Except Failure β × σ) (as : List α) (es : List σ) (i : Nat) : Prop :=
  ∀ j a e, j < i → as[j]? = some a → es[j]? = some e → ∃ b, (run a e).1 = .ok b

/-- The call at position `i` fails with `f`, and every call before it succeeds. -/
def FailsAt (run : α → σ → Except Failure β × σ) (as : List α) (es : List σ) (i : Nat)
    (f : Failure) : Prop :=
  ∃ a e, as[i]? = some a ∧ es[i]? = some e ∧ Reached run as es i ∧ (run a e).1 = .error f

/-- The calls at the positions below `n` leave their instances as they were. -/
def KeepsBelow (run : α → σ → Except Failure β × σ) (as : List α) (es : List σ) (n : Nat) : Prop :=
  ∀ i a e, i < n → as[i]? = some a → es[i]? = some e → (run a e).2 = e

/-! ## One more call -/

/-- A sweep whose first call fails goes no further. -/
theorem sweep_cons_of_error {f : Failure} (h : (run a e).1 = .error f) :
    sweep run (a :: as) (e :: es) = (.error f, (run a e).2 :: es) := by
  rcases hr : run a e with ⟨r, e'⟩
  rw [hr] at h
  cases h
  rw [sweep, hr]

/-- A sweep whose first call succeeds goes on with the others. -/
theorem sweep_cons_of_ok {b : β} (h : (run a e).1 = .ok b) :
    sweep run (a :: as) (e :: es)
      = ((sweep run as es).1.map (b :: ·), (run a e).2 :: (sweep run as es).2) := by
  rcases hr : run a e with ⟨r, e'⟩
  rw [hr] at h
  cases h
  rw [sweep, hr]

/-- What a sweep of one call more gives when it succeeds. -/
theorem sweep_cons_eq_ok_iff {bs : List β} :
    (sweep run (a :: as) (e :: es)).1 = .ok bs ↔
      ∃ b bs', (run a e).1 = .ok b ∧ (sweep run as es).1 = .ok bs' ∧ bs = b :: bs' := by
  rcases hr : (run a e).1 with f | b
  · rw [sweep_cons_of_error hr]
    simp
  · rw [sweep_cons_of_ok hr]
    show (sweep run as es).1.map (b :: ·) = .ok bs ↔ _
    rw [map_eq_ok_iff]
    simp

/-- How a sweep of one call more fails. -/
theorem sweep_cons_eq_error_iff {f : Failure} :
    (sweep run (a :: as) (e :: es)).1 = .error f ↔
      (run a e).1 = .error f ∨ (∃ b, (run a e).1 = .ok b) ∧ (sweep run as es).1 = .error f := by
  rcases hr : (run a e).1 with g | b
  · rw [sweep_cons_of_error hr]
    simp
  · rw [sweep_cons_of_ok hr]
    show (sweep run as es).1.map (b :: ·) = .error f ↔ _
    rw [map_eq_error_iff]
    simp

theorem reached_zero : Reached run as es 0 := by
  intro j a e hj
  omega

theorem reached_succ_iff_of_ok {b : β} (h : (run a e).1 = .ok b) :
    Reached run (a :: as) (e :: es) (i + 1) ↔ Reached run as es i := by
  constructor
  · intro hr j a' e' hj ha he
    exact hr (j + 1) a' e' (by omega) ha he
  · intro hr j a' e' hj ha he
    cases j with
    | zero =>
      rw [List.getElem?_cons_zero, Option.some.injEq] at ha he
      exact ⟨b, by rw [← ha, ← he, h]⟩
    | succ j => exact hr j a' e' (by omega) ha he

theorem not_reached_succ_of_error {f : Failure} (h : (run a e).1 = .error f) :
    ¬ Reached run (a :: as) (e :: es) (i + 1) := by
  intro hr
  obtain ⟨b, hb⟩ := hr 0 a e (by omega) rfl rfl
  rw [h] at hb
  cases hb

/-! ## States -/

/-- At a reached position the instance has the state that its own call gives. -/
theorem getElem?_sweep_of_reached (ha : as[i]? = some a) (he : es[i]? = some e)
    (h : Reached run as es i) : (sweep run as es).2[i]? = some (run a e).2 := by
  induction as generalizing es i with
  | nil => simp at ha
  | cons a' as ih =>
    cases es with
    | nil => simp at he
    | cons e' es =>
      rcases hr : (run a' e').1 with f | b
      · cases i with
        | zero =>
          rw [List.getElem?_cons_zero, Option.some.injEq] at ha he
          rw [sweep_cons_of_error hr, ha, he]
          rfl
        | succ i => exact absurd h (not_reached_succ_of_error hr)
      · rw [sweep_cons_of_ok hr]
        cases i with
        | zero =>
          rw [List.getElem?_cons_zero, Option.some.injEq] at ha he
          rw [ha, he]
          rfl
        | succ i => exact ih ha he ((reached_succ_iff_of_ok hr).mp h)

/-- At a position that is not reached the instance keeps its state. -/
theorem getElem?_sweep_of_not_reached (h : ¬ Reached run as es i) :
    (sweep run as es).2[i]? = es[i]? := by
  induction as generalizing es i with
  | nil => rfl
  | cons a' as ih =>
    cases es with
    | nil => rfl
    | cons e' es =>
      cases i with
      | zero => exact absurd reached_zero h
      | succ i =>
        rcases hr : (run a' e').1 with f | b
        · rw [sweep_cons_of_error hr]
          rfl
        · rw [sweep_cons_of_ok hr]
          exact ih fun hi => h ((reached_succ_iff_of_ok hr).mpr hi)

/-- Past the arguments the instances keep their states. -/
theorem getElem?_sweep_of_getElem?_eq_none (h : as[i]? = none) :
    (sweep run as es).2[i]? = es[i]? := by
  induction as generalizing es i with
  | nil => rfl
  | cons a' as ih =>
    cases es with
    | nil => rfl
    | cons e' es =>
      cases i with
      | zero => simp at h
      | succ i =>
        rcases hr : (run a' e').1 with f | b
        · rw [sweep_cons_of_error hr]
          rfl
        · rw [sweep_cons_of_ok hr]
          exact ih h

/-! ## Results -/

/-- A sweep fails exactly if some reached call fails, and with that failure. -/
theorem sweep_eq_error_iff {f : Failure} :
    (sweep run as es).1 = .error f ↔ ∃ i, FailsAt run as es i f := by
  induction as generalizing es with
  | nil => simp [sweep, FailsAt]
  | cons a' as ih =>
    cases es with
    | nil => simp [sweep, FailsAt]
    | cons e' es =>
      rw [sweep_cons_eq_error_iff, ih]
      constructor
      · rintro (hf | ⟨⟨b, hb⟩, i, a, e, ha, he, hi, hf⟩)
        · exact ⟨0, a', e', rfl, rfl, reached_zero, hf⟩
        · exact ⟨i + 1, a, e, ha, he, (reached_succ_iff_of_ok hb).mpr hi, hf⟩
      · rintro ⟨i, a, e, ha, he, hi, hf⟩
        cases i with
        | zero =>
          rw [List.getElem?_cons_zero, Option.some.injEq] at ha he
          subst ha he
          exact Or.inl hf
        | succ i =>
          obtain ⟨b, hb⟩ := hi 0 a' e' (by omega) rfl rfl
          exact Or.inr ⟨⟨b, hb⟩, i, a, e, ha, he, (reached_succ_iff_of_ok hb).mp hi, hf⟩

/-- Calls that succeed in the states of `P`, and stay in them, make up a sweep that does so too;
what holds of every single result holds of all its results. -/
theorem sweep_eq_ok_of_forall {P : σ → Prop} {Q : β → Prop}
    (h : ∀ a ∈ as, ∀ e, P e → ∃ b, (run a e).1 = .ok b ∧ Q b ∧ P (run a e).2)
    (hes : ∀ e ∈ es, P e) :
    ∃ bs, (sweep run as es).1 = .ok bs ∧ (∀ b ∈ bs, Q b) ∧ ∀ e ∈ (sweep run as es).2, P e := by
  -- only the first instance is called before the rest of the sweep, so `P` holds of all of them
  induction as generalizing es with
  | nil => exact ⟨[], rfl, fun b hb => absurd hb List.not_mem_nil, hes⟩
  | cons a as ih =>
    cases es with
    | nil => exact ⟨[], rfl, fun b hb => absurd hb List.not_mem_nil, hes⟩
    | cons e es =>
      rw [List.forall_mem_cons] at h hes
      obtain ⟨b, hb, hQ, hP⟩ := h.1 e hes.1
      obtain ⟨bs, hbs, hQs, hPs⟩ := ih h.2 hes.2
      rw [sweep_cons_of_ok hb, hbs]
      exact ⟨b :: bs, rfl, List.forall_mem_cons.mpr ⟨hQ, hQs⟩, List.forall_mem_cons.mpr ⟨hP, hPs⟩⟩

/-- A sweep that succeeds reaches every position. -/
theorem reached_of_sweep_eq_ok {bs : List β} (h : (sweep run as es).1 = .ok bs) :
    Reached run as es i := by
  intro j
  induction j using Nat.strongRecOn with
  | ind j ih =>
    intro a e hj ha he
    rcases hr : (run a e).1 with f | b
    · have hreach : Reached run as es j := fun k a' e' hk => ih k hk a' e' (by omega)
      rw [sweep_eq_error_iff.mpr ⟨j, a, e, ha, he, hreach, hr⟩] at h
      cases h
    · exact ⟨b, rfl⟩

/-- The results of a sweep that succeeds are those of its calls. -/
theorem getElem?_of_sweep_eq_ok {bs : List β} (h : (sweep run as es).1 = .ok bs)
    (ha : as[i]? = some a) (he : es[i]? = some e) :
    ∃ b, bs[i]? = some b ∧ (run a e).1 = .ok b := by
  induction as generalizing es i bs with
  | nil => simp at ha
  | cons a' as ih =>
    cases es with
    | nil => simp at he
    | cons e' es =>
      obtain ⟨b, bs', hb, hs, rfl⟩ := sweep_cons_eq_ok_iff.mp h
      cases i with
      | zero =>
        rw [List.getElem?_cons_zero, Option.some.injEq] at ha he
        subst ha he
        exact ⟨b, rfl, hb⟩
      | succ i =>
        rw [List.getElem?_cons_succ] at ha he
        obtain ⟨c, hc, hr⟩ := ih hs ha he
        exact ⟨c, hc, hr⟩

/-- There are as many results as calls. -/
theorem length_of_sweep_eq_ok {bs : List β} (h : (sweep run as es).1 = .ok bs)
    (hl : as.length = es.length) : bs.length = es.length := by
  induction as generalizing es bs with
  | nil =>
    cases h
    exact hl
  | cons a as ih =>
    cases es with
    | nil => simp at hl
    | cons e es =>
      obtain ⟨b, bs', -, hs, rfl⟩ := sweep_cons_eq_ok_iff.mp h
      rw [List.length_cons, List.length_cons, ih hs (by simpa using hl)]

/-! ## Sweeps that change nothing -/

/-- **Untouched sweeps.**  A sweep leaves all instances as they were exactly if every call it
makes leaves its instance as it was. -/
theorem sweep_snd_eq_self_iff :
    (sweep run as es).2 = es ↔ ∀ i a e, as[i]? = some a → es[i]? = some e →
      Reached run as es i → (run a e).2 = e := by
  constructor
  · intro h i a e ha he hi
    have := getElem?_sweep_of_reached ha he hi
    rw [h, he, Option.some.injEq] at this
    exact this.symm
  · intro h
    apply List.ext_getElem?
    intro i
    by_cases hi : Reached run as es i
    · rcases ha : as[i]? with _ | a
      · exact getElem?_sweep_of_getElem?_eq_none ha
      · rcases he : es[i]? with _ | e
        · rw [List.getElem?_eq_none_iff, length_sweep, ← List.getElem?_eq_none_iff]
          exact he
        · rw [getElem?_sweep_of_reached ha he hi, h i a e ha he hi]
    · exact getElem?_sweep_of_not_reached hi

/-- Before a failure exactly the positions up to the failing one are reached. -/
theorem reached_iff_of_failsAt {f : Failure} {j : Nat} (h : FailsAt run as es i f) :
    Reached run as es j ↔ j ≤ i := by
  obtain ⟨a, e, ha, he, hi, hf⟩ := h
  constructor
  · intro hj
    rcases Nat.lt_or_ge i j with hlt | hle
    · obtain ⟨b, hb⟩ := hj i a e hlt ha he
      rw [hf] at hb
      cases hb
    · exact hle
  · intro hle k a' e' hk
    exact hi k a' e' (by omega)

/-- A sweep that fails at position `i` changes nothing exactly if the calls up to there do. -/
theorem sweep_snd_eq_self_iff_of_failsAt {f : Failure} (h : FailsAt run as es i f) :
    (sweep run as es).2 = es ↔ KeepsBelow run as es (i + 1) := by
  rw [sweep_snd_eq_self_iff]
  constructor
  · intro hs j a e hj ha he
    exact hs j a e ha he ((reached_iff_of_failsAt h).mpr (by omega))
  · intro hs j a e ha he hr
    have := (reached_iff_of_failsAt h).mp hr
    exact hs j a e (by omega) ha he

/-- A sweep that succeeds changes nothing exactly if no call does. -/
theorem sweep_snd_eq_self_iff_of_ok {bs : List β} (h : (sweep run as es).1 = .ok bs) :
    (sweep run as es).2 = es ↔ KeepsBelow run as es es.length := by
  rw [sweep_snd_eq_self_iff]
  constructor
  · intro hs j a e _ ha he
    exact hs j a e ha he (reached_of_sweep_eq_ok h)
  · intro hs j a e ha he _
    exact hs j a e (List.getElem?_eq_some_iff.mp he).1 ha he

end Rollout
