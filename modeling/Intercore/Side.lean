/-!
# The two cores

The two cores of the board, and values kept once for each of them.
-/

namespace Intercore

/-- One of the two cores: the application cluster or the real-time core. -/
inductive Side
  | app
  | rt
  deriving DecidableEq, Repr

namespace Side

/-- The other core. -/
def peer : Side → Side
  | app => rt
  | rt => app

@[simp] theorem peer_peer (s : Side) : s.peer.peer = s := by cases s <;> rfl

@[simp] theorem peer_ne (s : Side) : s.peer ≠ s := by cases s <;> decide

theorem peer_inj {s t : Side} : s.peer = t.peer ↔ s = t := by cases s <;> cases t <;> decide

theorem eq_peer_comm {s t : Side} : s = t.peer ↔ t = s.peer := by cases s <;> cases t <;> decide

theorem eq_or_eq_peer (s t : Side) : s = t ∨ s = t.peer := by cases s <;> cases t <;> decide

/-- The core that these drivers run on. -/
def ours : Side := app

def name : Side → String
  | app => "App"
  | rt => "Rt"

end Side

/-- A value for each of the two cores. -/
structure Both (α : Type) where
  app : α
  rt : α
  deriving DecidableEq, Repr

namespace Both

variable {α : Type}

def same (a : α) : Both α := ⟨a, a⟩

def get (b : Both α) : Side → α
  | .app => b.app
  | .rt => b.rt

/-- Replaces the value of one side. -/
def set (b : Both α) (s : Side) (a : α) : Both α :=
  match s with
  | .app => { b with app := a }
  | .rt => { b with rt := a }

@[simp] theorem get_same (a : α) (s : Side) : (same a).get s = a := by cases s <;> rfl

@[simp] theorem get_set_self (b : Both α) (s : Side) (a : α) : (b.set s a).get s = a := by
  cases s <;> rfl

theorem get_set (b : Both α) (s t : Side) (a : α) :
    (b.set s a).get t = if t = s then a else b.get t := by
  cases s <;> cases t <;> rfl

@[simp] theorem get_peer_set (b : Both α) (s : Side) (a : α) :
    (b.set s a).get s.peer = b.get s.peer := by
  cases s <;> rfl

@[simp] theorem get_set_peer (b : Both α) (s : Side) (a : α) :
    (b.set s.peer a).get s = b.get s := by
  cases s <;> rfl

end Both

end Intercore
