/-
# `Walk` — pivoting by the rules of choice

From a tableau the rules of entering and leaving lead from pivot to pivot
until it is optimal or unbounded, or until no more pivots are allowed.  A
walk can be interrupted anywhere: it goes on from the tableau that it has
come to as if it began there.
-/
import TwoPhase.Tableau.Choice
import TwoPhase.Tableau.Pivot

namespace TwoPhase

/-- The cells pivoted on when the rules are followed at most `limit` times, and the
tableau that they lead to. -/
def Tableau.walk {α : Type} [Scalar α] (tol : α) :
    (limit : Nat) → Tableau α → Except Fault (List Cell × Tableau α)
  | 0, t => .ok ([], t)
  | limit + 1, t => do
      match ← t.choose tol with
      | .pivot cell => do
          let (path, last) ← (← t.pivot cell tol).walk tol limit
          return (cell :: path, last)
      | _ => return ([], t)

namespace Tableau

variable {α : Type} [Scalar α] {tol : α} {t u v : Tableau α} {path path' : List Cell}

/-- By the rules the tableau is optimal or unbounded. -/
def IsEnd (t : Tableau α) (tol : α) : Prop :=
  t.choose tol = .ok .optimal ∨ ∃ j, t.choose tol = .ok (.unbounded j)

theorem walk_of_isEnd (h : t.IsEnd tol) : ∀ limit, t.walk tol limit = .ok ([], t) := by
  intro limit
  cases limit with
  | zero => rfl
  | succ limit =>
      rcases h with h | ⟨j, h⟩
      · rw [walk, h]
        rfl
      · rw [walk, h]
        rfl

theorem walk_of_pivot {cell : Cell} (hchoose : t.choose tol = .ok (.pivot cell))
    (hpivot : t.pivot cell tol = .ok u) {limit : Nat} (h : u.walk tol limit = .ok (path, v)) :
    t.walk tol (limit + 1) = .ok (cell :: path, v) := by
  rw [walk, hchoose]
  show (t.pivot cell tol >>= fun u => u.walk tol limit >>= _) = _
  rw [hpivot]
  show (u.walk tol limit >>= _) = _
  rw [h]
  rfl

/-- A walk that may make a pivot makes none, or makes one and goes on from where that leads. -/
theorem walk_succ_cases {limit : Nat} (h : t.walk tol (limit + 1) = .ok (path, v)) :
    (t.IsEnd tol ∧ path = [] ∧ v = t) ∨ ∃ cell u rest, t.choose tol = .ok (.pivot cell) ∧
      t.pivot cell tol = .ok u ∧ u.walk tol limit = .ok (rest, v) ∧ path = cell :: rest := by
  rw [walk] at h
  cases hchoose : t.choose tol with
  | error fault =>
      rw [hchoose] at h
      cases h
  | ok choice =>
      rw [hchoose] at h
      cases choice with
      | optimal =>
          cases h
          exact .inl ⟨.inl hchoose, rfl, rfl⟩
      | unbounded column =>
          cases h
          exact .inl ⟨.inr ⟨column, hchoose⟩, rfl, rfl⟩
      | pivot cell =>
          cases hpivot : t.pivot cell tol with
          | error fault =>
              simp only [bind, Except.bind, hpivot] at h
              cases h
          | ok u =>
              cases hwalk : u.walk tol limit with
              | error fault =>
                  simp only [bind, Except.bind, hpivot, hwalk] at h
                  cases h
              | ok walked =>
                  simp only [bind, Except.bind, hpivot, hwalk] at h
                  cases h
                  exact .inr ⟨cell, u, walked.1, rfl, hpivot, hwalk, rfl⟩

/-- A walk with pivots to spare stops for no other reason than that the rules ask for none. -/
theorem walk_stops {limit : Nat} (h : t.walk tol limit = .ok (path, v)) :
    path.length ≤ limit ∧ (path.length < limit → v.IsEnd tol) := by
  induction limit generalizing t path with
  | zero =>
      cases h
      exact ⟨Nat.le_refl 0, fun hlt => absurd hlt (Nat.lt_irrefl 0)⟩
  | succ limit ih =>
      rcases walk_succ_cases h with ⟨hend, rfl, rfl⟩ | ⟨cell, u, rest, -, -, hwalk, rfl⟩
      · exact ⟨Nat.zero_le _, fun _ => hend⟩
      · obtain ⟨hle, hspare⟩ := ih hwalk
        exact ⟨Nat.succ_le_succ hle, fun hlt => hspare (Nat.lt_of_succ_lt_succ hlt)⟩

theorem walk_add {m n : Nat} (h : t.walk tol m = .ok (path, u))
    (h' : u.walk tol n = .ok (path', v)) : t.walk tol (m + n) = .ok (path ++ path', v) := by
  induction m generalizing t path with
  | zero =>
      cases h
      rw [Nat.zero_add]
      exact h'
  | succ m ih =>
      rcases walk_succ_cases h with ⟨hend, rfl, rfl⟩ | ⟨cell, w, rest, hchoose, hpivot, hwalk, rfl⟩
      · rw [walk_of_isEnd hend] at h' ⊢
        exact h'
      · rw [Nat.succ_add]
        exact walk_of_pivot hchoose hpivot (ih hwalk)

end Tableau

end TwoPhase
