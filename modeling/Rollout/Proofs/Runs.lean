/-
# Runs of a server

A server handles one request after another, each in the state that the ones before
it left.
-/
import Rollout.Server

namespace Rollout.Server

variable {σ : Type} [Env σ]

/-- The server after requests. -/
def afterAll : (requests : List Bytes) → Server σ → Server σ
  | [], s => s
  | b :: bs, s => afterAll bs (s.handle b).after

/-- The replies to requests. -/
def replies : (requests : List Bytes) → Server σ → List (Option Bytes)
  | [], _ => []
  | b :: bs, s => (s.handle b).reply :: replies bs (s.handle b).after

/-- What every request preserves holds after a run. -/
theorem afterAll_induction {P : Server σ → Prop} (step : ∀ b s, P s → P (s.handle b).after)
    (requests : List Bytes) {s : Server σ} (h : P s) : P (s.afterAll requests) := by
  induction requests generalizing s with
  | nil => exact h
  | cons b bs ih => exact ih (step b s h)

/-- More requests are handled by the server as the ones before them left it. -/
@[simp] theorem afterAll_append (done rest : List Bytes) (s : Server σ) :
    s.afterAll (done ++ rest) = (s.afterAll done).afterAll rest := by
  induction done generalizing s with
  | nil => rfl
  | cons b done ih => exact ih (s.handle b).after

@[simp] theorem replies_append (done rest : List Bytes) (s : Server σ) :
    s.replies (done ++ rest) = s.replies done ++ (s.afterAll done).replies rest := by
  induction done generalizing s with
  | nil => rfl
  | cons b done ih => exact congrArg ((s.handle b).reply :: ·) (ih (s.handle b).after)

/-- Every request counts as one, with or without a reply. -/
@[simp] theorem length_replies (requests : List Bytes) (s : Server σ) :
    (s.replies requests).length = requests.length := by
  induction requests generalizing s with
  | nil => rfl
  | cons b bs ih => exact congrArg (· + 1) (ih (s.handle b).after)

end Rollout.Server
