/-
# Responses are faithful

`Response.layout` lists the keys of every response, each with what its value must
hold.  A reader that knows nothing of responses takes all of their bytes and finds
exactly these keys with such values: `read_encode`.
-/
import Rollout.Proofs.TensorValues
import Rollout.Wire.Response

namespace Rollout

open MsgPack (Value readValue maxLevels)
open Numeric (Double)

/-! ## Layouts -/

/-- The entries of a record have the keys of a layout, and values as the layout says. -/
inductive MsgPack.Value.Matches :
    (es : List (String × Value)) → (layout : List (String × (Value → Prop))) → Prop
  | nil : Matches [] []
  | cons {key : String} {v : Value} {holds : Value → Prop} {es : List (String × Value)}
    {layout : List (String × (Value → Prop))} (head : holds v) (tail : Matches es layout) :
    Matches ((key, v) :: es) ((key, holds) :: layout)

/-- Entries that match a layout have its keys, in its order. -/
theorem MsgPack.Value.Matches.keys {es : List (String × Value)}
    {layout : List (String × (Value → Prop))} (h : Value.Matches es layout) :
    es.map Prod.fst = layout.map Prod.fst := by
  induction h with
  | nil => rfl
  | cons head _ ih => rw [List.map_cons, List.map_cons, ih]

/-- The value is a list of values that hold the items, in order. -/
def MsgPack.Value.IsList {α : Type} (holds : α → Value → Prop) (as : List α) (v : Value) : Prop :=
  ∃ parts : List (α × Value), parts.map Prod.fst = as ∧ v = .array (parts.map Prod.snd) ∧
    ∀ p ∈ parts, holds p.1 p.2

/-- What the value of a part of an observation holds. -/
def ObservationPart.Told : ObservationPart → Value → Prop
  | .array t, v => Value.Holds .single t.shape t.data v
  | .int n, v => v = .int n.toInt
  | .float x, v => v = .double x
  | .bool b, v => v = .bool b
  | .text s, v => v = .text s

/-- What the value of a first observation holds. -/
def FirstObservation.Told : FirstObservation → Value → Prop
  | .array t, v => Value.Holds .single t.shape t.data v
  | .parts ps, v => Value.IsList ObservationPart.Told ps v

/-- The keys of a response and what their values hold. -/
def Response.layout : Response → List (String × (Value → Prop))
  | .info r =>
    [("action_space_type", (· = .text r.actionType)),
      ("action_space_shape", Value.IsList (fun (n : Nat) v => v = .int n) r.actionShape),
      ("observation_space_type", (· = .text r.observationType)),
      ("observation_space_shape", Value.IsList (fun (n : Nat) v => v = .int n) r.observationShape),
      ("observation_space_size", (· = .int r.observationSize))]
  | .dynamics d =>
    [("probability", Value.IsList (fun x v => v = .double x) d.probability),
      ("next_state", Value.IsList (fun (n : Nat) v => v = .int n) d.nextState),
      ("reward", Value.IsList (fun x v => v = .double x) d.reward),
      ("done", Value.IsList (fun b v => v = .bool b) d.done)]
  | .made => [("result", (· = .text "OK"))]
  | .reset observation => [("observation", observation.Told)]
  | .step r =>
    [("observation", Value.Holds .single r.observation.shape r.observation.data),
      ("reward", Value.Holds .single r.reward.shape r.reward.data),
      ("done", Value.Holds .bool r.done.shape r.done.data),
      ("real_reward", Value.Holds .single r.realReward.shape r.realReward.data)]
  | .error message => [("error", (· = .text message))]

/-! ## Responses that fit -/

/-- The texts, lists, numbers and tensors of a part can be written. -/
def ObservationPart.Fits : ObservationPart → Prop
  | .array t => t.Fits
  | .text s => (Text.Utf8.encode s).length < 2 ^ 32
  | .int _ | .float _ | .bool _ => True

/-- The parts of a first observation can be written. -/
def FirstObservation.Fits : FirstObservation → Prop
  | .array t => t.Fits
  | .parts ps => ps.length < 2 ^ 32 ∧ ∀ p ∈ ps, p.Fits

/-- The numbers can be written, and there are not too many. -/
def NaturalsFit (ns : List Nat) : Prop := ns.length < 2 ^ 32 ∧ ∀ n ∈ ns, n < 2 ^ 64

/-- The texts, lists, numbers and tensors of a response can be written. -/
def Response.Fits : Response → Prop
  | .info r =>
    (Text.Utf8.encode r.actionType).length < 2 ^ 32 ∧ NaturalsFit r.actionShape ∧
    (Text.Utf8.encode r.observationType).length < 2 ^ 32 ∧ NaturalsFit r.observationShape ∧
    r.observationSize < 2 ^ 64
  | .dynamics d =>
    d.probability.length < 2 ^ 32 ∧ NaturalsFit d.nextState ∧ d.reward.length < 2 ^ 32 ∧
    d.done.length < 2 ^ 32
  | .made => True
  | .reset observation => observation.Fits
  | .step r => r.observation.Fits ∧ r.reward.Fits ∧ r.done.Fits ∧ r.realReward.Fits
  | .error message => (Text.Utf8.encode message).length < 2 ^ 32

/-! ## Values of responses -/

namespace MsgPack.Value

variable {α : Type} {n : Nat}

theorem isList_map {holds : α → Value → Prop} {f : α → Value} (h : ∀ a, holds a (f a))
    (as : List α) : IsList holds as (.array (as.map f)) := by
  refine ⟨as.map fun a => (a, f a), ?_, ?_, ?_⟩
  · rw [List.map_map]
    exact List.map_id as
  · rw [List.map_map]
    rfl
  · intro p hp
    obtain ⟨a, -, rfl⟩ := List.mem_map.mp hp
    exact h a

/-- A list of items that fit fits one level more. -/
theorem fits_map {f : α → Value} {as : List α} (length : as.length < 2 ^ 32)
    (h : ∀ a ∈ as, (f a).Fits n) : (Value.array (as.map f)).Fits (n + 1) := by
  refine .array (by rwa [List.length_map]) ?_
  intro v hv
  obtain ⟨a, ha, rfl⟩ := List.mem_map.mp hv
  exact h a ha

end MsgPack.Value

theorem NaturalsFit.value {ns : List Nat} (h : NaturalsFit ns) (n : Nat) :
    (Value.naturals ns).Fits (n + 1) := by
  refine Value.fits_map h.1 ?_
  intro k hk
  have hlt := h.2 k hk
  exact .int (by omega) (by omega)

theorem ObservationPart.Fits.value {p : ObservationPart} (h : p.Fits) :
    (Response.partValue p).Fits 100 := by
  cases p with
  | array t => exact Tensor.Fits.toValue h fun x n => .single x
  | int v => exact .signed v
  | float x => exact .double x
  | bool b => exact .bool b
  | text s => exact .text h

theorem FirstObservation.Fits.value {o : FirstObservation} (h : o.Fits) :
    (Response.observationValue o).Fits 101 := by
  cases o with
  | array t => exact (Tensor.Fits.toValue h fun x n => .single x).mono (by decide)
  | parts ps => exact Value.fits_map h.1 fun p hp => (h.2 p hp).value

namespace Response

/-- The entries of a response that fits can be written. -/
theorem Fits.entries {r : Response} (h : r.Fits) : Value.FieldsFit 101 r.entries := by
  have hfloats : ∀ {t : Tensor Numeric.Single}, t.Fits → (floatsValue t).Fits 101 :=
    fun ht => (ht.toValue fun x n => .single x).mono (by decide)
  cases r with
  | info r =>
    obtain ⟨haction, hactionShape, hobservation, hobservationShape, hsize⟩ := h
    exact .cons (by decide) (.text haction) (.cons (by decide) (hactionShape.value 100)
      (.cons (by decide) (.text hobservation) (.cons (by decide) (hobservationShape.value 100)
        (.cons (by decide) (.int (by omega) (by omega)) .nil))))
  | dynamics d =>
    obtain ⟨hprobability, hnext, hreward, hdone⟩ := h
    exact .cons (by decide) (Value.fits_map hprobability fun x _ => .double x)
      (.cons (by decide) (hnext.value 100)
        (.cons (by decide) (Value.fits_map hreward fun x _ => .double x)
          (.cons (by decide) (Value.fits_map hdone fun b _ => .bool b) .nil)))
  | made => exact .cons (by decide) (.text (by decide)) .nil
  | reset observation => exact .cons (by decide) (FirstObservation.Fits.value h) .nil
  | step r =>
    obtain ⟨hobservation, hreward, hdone, hreal⟩ := h
    have hflags : (flagsValue r.done).Fits 101 :=
      (hdone.toValue fun b n => .bool b).mono (by decide)
    exact .cons (by decide) (hfloats hobservation) (.cons (by decide) (hfloats hreward)
      (.cons (by decide) hflags (.cons (by decide) (hfloats hreal) .nil)))
  | error message => exact .cons (by decide) (.text h) .nil

/-- The value of a part holds it. -/
theorem told_partValue (p : ObservationPart) : p.Told (partValue p) := by
  cases p with
  | array t => exact t.holds_ofTensor .single
  | _ => rfl

/-- The value of a first observation holds it. -/
theorem told_observationValue (o : FirstObservation) : o.Told (observationValue o) := by
  cases o with
  | array t => exact t.holds_ofTensor .single
  | parts ps => exact Value.isList_map told_partValue ps

/-- The entries of a response are as its layout says. -/
theorem matches_entries (r : Response) : Value.Matches r.entries r.layout := by
  have hnaturals : ∀ ns : List Nat,
      Value.IsList (fun (n : Nat) v => v = .int n) ns (Value.naturals ns) :=
    Value.isList_map fun _ => rfl
  have hdoubles : ∀ xs : List Double,
      Value.IsList (fun x v => v = .double x) xs (.array (xs.map .double)) :=
    Value.isList_map fun _ => rfl
  have hflags : ∀ bs : List Bool,
      Value.IsList (fun b v => v = .bool b) bs (.array (bs.map .bool)) :=
    Value.isList_map fun _ => rfl
  cases r with
  | info r =>
    exact .cons rfl (.cons (hnaturals _) (.cons rfl (.cons (hnaturals _) (.cons rfl .nil))))
  | dynamics d =>
    exact .cons (hdoubles _) (.cons (hnaturals _) (.cons (hdoubles _) (.cons (hflags _) .nil)))
  | made => exact .cons rfl .nil
  | reset observation => exact .cons (told_observationValue observation) .nil
  | step r =>
    exact .cons (r.observation.holds_ofTensor .single) (.cons (r.reward.holds_ofTensor .single)
      (.cons (r.done.holds_ofTensor .bool) (.cons (r.realReward.holds_ofTensor .single) .nil)))
  | error message => exact .cons rfl .nil

/-- The keys of a response differ. -/
theorem nodup_layout (r : Response) : (r.layout.map Prod.fst).Nodup := by
  cases r with
  | _ =>
    simp only [layout, List.map_cons, List.map_nil]
    decide

/-- **Responses are faithful.**  A reader of values takes all bytes of a response that fits and
finds a map that has exactly the keys of its layout, each once, with values that hold what the
layout says. -/
theorem read_encode {r : Response} (h : r.Fits) :
    ∃ es, readValue maxLevels r.encode = .ok (.record es, []) ∧
      Value.Matches es r.layout ∧ (es.map Prod.fst).Nodup := by
  have hmatches := r.matches_entries
  refine ⟨r.entries, ?_, hmatches, ?_⟩
  · have hlength : r.entries.length < 2 ^ 32 := by
      cases r with
      | _ =>
        simp only [entries, List.length_cons, List.length_nil]
        decide
    have hfits : r.toValue.Fits maxLevels := (h.entries.record hlength).mono (by decide)
    have hread := MsgPack.readValue_write hfits []
    rwa [List.append_nil] at hread
  · rw [hmatches.keys]
    exact r.nodup_layout

/-- An observation of two rows, no rows of three, an integer of two bytes and a text. -/
def mixedReset : Response :=
  .reset (.parts [.array (.column [⟨0x3f800000⟩, ⟨0x7fc00001⟩]), .array ⟨[0, 3], [], rfl⟩,
    .int (-200), .text "ø"])

theorem read_encode_mixedReset :
    mixedReset.Fits ∧ ∃ es, readValue maxLevels mixedReset.encode = .ok (.record es, []) ∧
      Value.Matches es mixedReset.layout ∧ (es.map Prod.fst).Nodup := by
  have hfits : mixedReset.Fits := by
    refine ⟨by decide, ?_⟩
    intro p hp
    simp only [List.mem_cons, List.not_mem_nil, or_false] at hp
    rcases hp with rfl | rfl | rfl | rfl
    · exact ⟨by decide, by decide⟩
    · exact ⟨by decide, by decide⟩
    · trivial
    · exact (by decide : (Text.Utf8.encode "ø").length < 2 ^ 32)
  exact ⟨hfits, read_encode hfits⟩

end Response

end Rollout
