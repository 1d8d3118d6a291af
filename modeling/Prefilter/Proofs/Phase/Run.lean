import Prefilter.Proofs.Phase.Induction

namespace Prefilter.Coordinator

/-- A run, and the moves made in it. The calls under way may return in any order, as they do when they
were made on several threads. -/
inductive Run (allowed : Coordinator → Move → Prop) (start : Coordinator) :
    List Move → Coordinator → Prop where
  | nil : Run allowed start [] start
  | move {moves : List Move} {c : Coordinator} {m : Move} (run : Run allowed start moves c)
      (permitted : allowed c m) : Run allowed start (moves ++ [m]) (c.step m).coordinator
  | reorder {moves : List Move} {c : Coordinator} {stack : List Frame}
      (run : Run allowed start moves c) (perm : stack.Perm c.stack) :
      Run allowed start moves { c with stack }

/-- What a new coordinator can become among any collaborators at all. -/
def Reachable (policy : OrderingPolicy) (moves : List Move) (c : Coordinator) : Prop :=
  Run (fun _ _ => True) { policy } moves c

/-- An invariant, step by step. -/
structure Preserved (allowed : Coordinator → Move → Prop) (P : Coordinator → Duty → Prop) :
    Prop where
  intake : ∀ {c c' : Coordinator} {call : Option Frame} {m : Move} {d : Duty},
    c.Sound (.rest call) → P c (.rest call) → allowed c m → Intake c m c' d → P c' d
  progress : ∀ {c c' : Coordinator} {d d' : Duty},
    c.Sound d → P c d → Progress c d c' d' → P c' d'
  reorder : ∀ {c : Coordinator} {call : Option Frame} {stack : List Frame},
    P c (.rest call) → stack.Perm c.stack → P { c with stack } (.rest call)

variable {allowed : Coordinator → Move → Prop} {P : Coordinator → Duty → Prop}
  {s c : Coordinator} {moves : List Move} {call : Option Frame} {policy : OrderingPolicy}

theorem Sound.of_subset {stack : List Frame} (h : c.Sound (.rest call)) (sub : stack ⊆ c.stack) :
    Sound { c with stack } (.rest call) where
  grounded := h.grounded.update (.of_eq rfl rfl rfl) rfl rfl fun hf => .inr (sub hf)
  duty := trivial
  books := h.books.transfer rfl rfl rfl rfl

theorem Sound.reorder {stack : List Frame} (h : c.Sound (.rest call)) (perm : stack.Perm c.stack) :
    Sound { c with stack } (.rest call) := h.of_subset perm.subset

theorem Preserved.run (hP : Preserved allowed P) (run : Run allowed s moves c)
    (sound : s.Sound (.rest call)) (h : P s (.rest call)) :
    ∃ call, c.Sound (.rest call) ∧ P c (.rest call) := by
  induction run with
  | nil => exact ⟨call, sound, h⟩
  | move run permitted ih =>
      obtain ⟨call, hs, hp⟩ := ih
      exact ⟨_, hs.step _, hs.step_induction hP.progress (hP.intake hs hp permitted)⟩
  | reorder run perm ih =>
      obtain ⟨call, hs, hp⟩ := ih
      exact ⟨call, hs.reorder perm, hP.reorder hp perm⟩

theorem Run.mono {allowed' : Coordinator → Move → Prop} (run : Run allowed s moves c)
    (h : ∀ {c m}, allowed c m → allowed' c m) : Run allowed' s moves c := by
  induction run with
  | nil => exact .nil
  | move _ permitted ih => exact ih.move (h permitted)
  | reorder _ perm ih => exact ih.reorder perm

theorem Run.append {more : List Move} {c' : Coordinator} (run : Run allowed s moves c)
    (rest : Run allowed c more c') : Run allowed s (moves ++ more) c' := by
  induction rest with
  | nil => exact (List.append_nil moves).symm ▸ run
  | move _ permitted ih => exact List.append_assoc .. ▸ ih.move permitted
  | reorder _ perm ih => exact ih.reorder perm

theorem Reachable.sound (h : Reachable policy moves c) : ∃ call, c.Sound (.rest call) := by
  have hP : Preserved (fun _ _ => True) fun _ _ => True :=
    ⟨fun _ _ _ _ => trivial, fun _ _ _ => trivial, fun _ _ => trivial⟩
  obtain ⟨call, hs, -⟩ := hP.run h (sound_initial policy) trivial
  exact ⟨call, hs⟩

theorem preserved_extends : Preserved allowed fun c _ => Extends s c where
  intake _ h _ hi := h.trans hi.extends
  progress _ h hp := h.trans hp.extends
  reorder h _ := h.trans (.of_eq rfl rfl rfl)

theorem Run.extends (run : Run allowed s moves c) (sound : s.Sound (.rest call)) : Extends s c := by
  obtain ⟨-, -, h⟩ := preserved_extends.run run sound (.refl s)
  exact h

/-- All moves are allowed, each after those before it. -/
def Permitted (allowed : Coordinator → Move → Prop) : Coordinator → List Move → Prop
  | _, [] => True
  | c, m :: moves => allowed c m ∧ Permitted allowed (c.step m).coordinator moves

/-- On one thread, where the latest call returns first, allowed moves make a run. -/
theorem run_of_permitted (h : Permitted allowed s moves) : Run allowed s moves (s.run moves) := by
  induction moves generalizing s with
  | nil => exact .nil
  | cons m moves ih => exact Run.append (.move .nil h.1) (ih h.2)

theorem permitted_of_forall (h : ∀ c m, allowed c m) (s : Coordinator) (moves : List Move) :
    Permitted allowed s moves := by
  induction moves generalizing s with
  | nil => trivial
  | cons m moves ih => exact ⟨h s m, ih (s.step m).coordinator⟩

theorem reachable_run (policy : OrderingPolicy) (moves : List Move) :
    Reachable policy moves (Coordinator.run { policy } moves) :=
  run_of_permitted (permitted_of_forall (fun _ _ => trivial) _ moves)

end Prefilter.Coordinator
