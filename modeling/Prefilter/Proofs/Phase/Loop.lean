import Prefilter.Proofs.Phase.Custody

namespace Prefilter

/-- The position at which the loop goes on after the next phase returns. -/
def Caller.position? : Caller → Option Nat
  | .start slot => some slot
  | .entry | .exhausted .. => none

/-- The position at which the loop of a phase goes on after a call. -/
def Frame.position? (c : Coordinator) (phase : Nat) : Frame → Option Nat
  | .submitting task => c.tasks[task]?.bind fun d => if d.phase = phase then some (d.slot + 1) else none
  | .delivering other caller => if other = phase then caller.position? else none
  | .connecting _ | .sending _ => none

/-- The position at which the loop of a phase is, if it is part of what is left to do. -/
def Duty.position? (phase : Nat) : Duty → Option Nat
  | .submit other slot => if other = phase then some slot else none
  | .complete other caller => if other = phase then caller.position? else none
  | .finish a _ caller => if a.phase = phase then caller.position? else none
  | .rest _ | .dispatch _ | .fail .. | .send .. => none

theorem Caller.position?_duty (other phase : Nat) (caller : Caller) :
    (caller.duty other).position? phase = if other = phase then caller.position? else none := by
  cases caller <;> simp [duty, Duty.position?, position?]

namespace Coordinator

variable {c c' : Coordinator} {d d' : Duty} {m : Move} {k i t t' : Nat} {call : Option Frame}
  {policy : OrderingPolicy} {moves : List Move} {allowed : Coordinator → Move → Prop}

/-- Where the loops of a phase are. -/
def positions (c : Coordinator) (d : Duty) (phase : Nat) : List Nat :=
  (d.position? phase).toList ++ c.stack.filterMap (Frame.position? c phase)

/-- There is one loop for a phase at most. It is past the shards whose tasks there are, and each of these
has one task. -/
structure Looped (c : Coordinator) (d : Duty) (phase : Nat) : Prop where
  sole : (c.positions d phase).length ≤ 1
  past : ∀ {position t i : Nat}, position ∈ c.positions d phase → c.IsTaskOf t phase i → i < position
  unique : ∀ {t t' i : Nat}, c.IsTaskOf t phase i → c.IsTaskOf t' phase i → t = t'

theorem filterMap_position?_of_extends (grounded : c.Grounded) (e : Extends c c') (k : Nat) :
    c.stack.filterMap (Frame.position? c' k) = c.stack.filterMap (Frame.position? c k) := by
  refine List.filterMap_congr fun f hf => ?_
  cases f with
  | submitting task =>
      obtain ⟨d, hd⟩ : Frame.Supported c (.submitting task) := grounded.frames hf
      obtain ⟨d', hd', hphase, hslot⟩ := e.tasks hd
      simp [Frame.position?, hd, hd', hphase, hslot]
  | _ => rfl

theorem Grounded.positions_of_stay (grounded : c.Grounded) (e : Extends c c')
    (stack : c'.stack = c.stack) :
    c'.positions d' k = (d'.position? k).toList ++ c.stack.filterMap (Frame.position? c k) := by
  rw [positions, stack, filterMap_position?_of_extends grounded e]

theorem Grounded.positions_of_call {f : Frame} (grounded : c.Grounded) (e : Extends c c')
    (stack : c'.stack = f :: c.stack) : c'.positions (.rest call) k =
      (f.position? c' k).toList ++ c.stack.filterMap (Frame.position? c k) := by
  rw [positions, stack, List.filterMap_cons, filterMap_position?_of_extends grounded e]
  cases f.position? c' k <;> rfl

theorem positions_of_top {f : Frame} {stack : List Frame} (top : c.stack = f :: stack) :
    c.positions (.rest call) k =
      (f.position? c k).toList ++ stack.filterMap (Frame.position? c k) := by
  rw [positions, top, List.filterMap_cons]
  cases f.position? c k <;> rfl

theorem Grounded.exists_phase_of_position? {f : Frame} {position : Nat} (grounded : c.Grounded)
    (hf : f ∈ c.stack) (h : f.position? c k = some position) : ∃ p, c.phases[k]? = some p := by
  have hsupported := grounded.frames hf
  cases f with
  | submitting task =>
      obtain ⟨e, he⟩ := hsupported
      obtain ⟨target, htarget⟩ := grounded.tasks he
      obtain ⟨p, hp, -⟩ := exists_phase_of_target? htarget
      by_cases hphase : e.phase = k
      · exact ⟨p, hphase ▸ hp⟩
      · simp [Frame.position?, he, hphase] at h
  | delivering phase caller =>
      by_cases hphase : phase = k
      · exact hphase ▸ hsupported
      · simp [Frame.position?, hphase] at h
  | connecting | sending => cases h

namespace Looped

theorem carry (h : Looped c d k) (positions : (c'.positions d' k).Sublist (c.positions d k))
    (tasks : ∀ {t i : Nat}, c'.IsTaskOf t k i → c.IsTaskOf t k i) : Looped c' d' k where
  sole := Nat.le_trans positions.length_le h.sole
  past hposition ht := h.past (positions.subset hposition) (tasks ht)
  unique ht ht' := h.unique (tasks ht) (tasks ht')

theorem submit (h : Looped c (.submit k i) k) (grounded : c.Grounded) :
    Looped ((c.addTask k i).push (.submitting c.tasks.size))
      (.rest (some (.submitting c.tasks.size))) k := by
  have hpositions : c.positions (.submit k i) k =
      i :: c.stack.filterMap (Frame.position? c k) := by simp [positions, Duty.position?]
  have hrest : c.stack.filterMap (Frame.position? c k) = [] := by
    have hsole := h.sole
    rw [hpositions, List.length_cons] at hsole
    exact List.eq_nil_of_length_eq_zero (by omega)
  have hnext : ((c.addTask k i).push (.submitting c.tasks.size)).positions
      (.rest (some (.submitting c.tasks.size))) k = [i + 1] := by
    rw [grounded.positions_of_call (((Extends.refl c).addTask k i).push _) rfl, hrest]
    simp [Frame.position?, push, addTask]
  have htask {t j : Nat} (ht : ((c.addTask k i).push (.submitting c.tasks.size)).IsTaskOf t k j) :
      c.IsTaskOf t k j ∨ (t = c.tasks.size ∧ j = i) := by
    obtain ⟨e, he, hphase, hslot⟩ := ht
    rw [push, addTask, Array.getElem?_push] at he
    split at he
    · rename_i hsize
      obtain rfl := Option.some.inj he
      exact .inr ⟨hsize, hslot.symm⟩
    · exact .inl ⟨e, he, hphase, hslot⟩
  have hbefore {t j : Nat} (ht : c.IsTaskOf t k j) : j < i :=
    h.past (hpositions ▸ List.mem_cons_self) ht
  constructor
  · rw [hnext]
    exact Nat.le_refl 1
  · intro position t j hposition ht
    rw [hnext, List.mem_singleton] at hposition
    rcases htask ht with hold | ⟨-, rfl⟩
    · exact hposition ▸ Nat.lt_succ_of_lt (hbefore hold)
    · exact hposition ▸ Nat.lt_succ_self _
  · intro t t' j ht ht'
    rcases htask ht with hold | ⟨rfl, rfl⟩ <;> rcases htask ht' with hold' | ⟨rfl, hj⟩
    · exact h.unique hold hold'
    · exact absurd (hbefore hold) (by omega)
    · exact absurd (hbefore hold') (Nat.lt_irrefl _)
    · rfl

theorem progress (h : Looped c d k) (sound : c.Sound d) (hp : Progress c d c' d') :
    Looped c' d' k := by
  have stay (stack : c'.stack = c.stack) : c'.positions d' k =
      (d'.position? k).toList ++ c.stack.filterMap (Frame.position? c k) :=
    sound.grounded.positions_of_stay hp.extends stack
  have call {f : Frame} {call : Option Frame} (stack : c'.stack = f :: c.stack) :
      c'.positions (.rest call) k =
        (f.position? c' k).toList ++ c.stack.filterMap (Frame.position? c k) :=
    sound.grounded.positions_of_call hp.extends stack
  cases hp with
  | submitLast => exact h.carry (List.sublist_append_right ..) id
  | @submit phase slot target found =>
      by_cases hphase : phase = k
      · subst hphase
        exact h.submit sound.grounded
      · have hp : Progress c (.submit phase slot) _ _ := .submit found
        have hne {i : Nat} : Duty.submit phase slot ≠ .submit k i := fun heq =>
          hphase (Duty.submit.inj heq).1
        refine h.carry ?_ (hp.noNewWork hne nofun).tasks
        rw [call rfl]
        simp [Frame.position?, push, addTask, hphase, positions, Duty.position?]
  | complete | connect =>
      refine h.carry ?_ id
      rw [call rfl]
      exact .refl _
  | supersede =>
      refine h.carry ?_ id
      rw [stay rfl, Caller.position?_duty]
      exact .refl _
  | record =>
      refine h.carry ?_ id
      rw [stay rfl]
      split
      · exact .refl _
      · rw [Caller.position?_duty]
        exact .refl _
  | exhaust =>
      refine h.carry ?_ id
      rw [stay rfl]
      simp only [Duty.position?, Caller.position?, ite_self]
      exact .refl _
  | ignore | advance =>
      refine h.carry ?_ id
      rw [stay rfl]
      exact .refl _
  | send =>
      refine h.carry ?_ id
      rw [call rfl]
      exact .refl _

/-- A move that is taken up goes on with the loop, or leaves it where it is, unless it starts the
phase. -/
theorem positions_sublist (hi : Intake c m c' d) (grounded : c.Grounded)
    (unstarted : ∀ {targets : List ShardTarget} {request : SearchRequest},
      m = .start targets request → k ≠ c.phases.size) :
    (c'.positions d k).Sublist (c.positions (.rest call) k) := by
  have stay (stack : c'.stack = c.stack) : c'.positions d k =
      (d.position? k).toList ++ c.stack.filterMap (Frame.position? c k) :=
    grounded.positions_of_stay hi.extends stack
  have top {f : Frame} {stack : List Frame} (top : c.stack = f :: stack) :
      c.positions (.rest call) k =
        (f.position? c k).toList ++ stack.filterMap (Frame.position? c k) :=
    positions_of_top top
  cases hi with
  | start =>
      rw [stay rfl]
      split
      · simp only [Duty.position?, Caller.position?, ite_self]
        exact .refl _
      · simp only [Duty.position?, if_neg (Ne.symm (unstarted rfl))]
        exact .refl _
  | void | reject | run | answerError | abandon =>
      rw [stay rfl]
      exact .refl _
  | discard | answer =>
      rw [stay rfl]
      simp only [Duty.position?, Caller.position?, ite_self]
      exact .refl _
  | accepted htop found | refused htop found =>
      rw [top htop]
      simp only [Frame.position?, found, Option.bind_some]
      exact .refl _
  | connected htop | unreachable htop | sent htop | unsent htop =>
      rw [top htop]
      exact .refl _
  | returned htop =>
      rw [top htop, positions, Caller.position?_duty]
      exact .refl _

theorem start {targets : List ShardTarget} {request : SearchRequest} {ns : List Notice}
    (grounded : c.Grounded) :
    Looped ((c.logAll ns).openPhase targets request)
      (if targets.isEmpty then .complete c.phases.size .entry else .submit c.phases.size 0)
      c.phases.size := by
  have hnone {p : Phase} : c.phases[c.phases.size]? ≠ some p := by simp
  have htask {t i : Nat} : ¬ ((c.logAll ns).openPhase targets request).IsTaskOf t c.phases.size i := by
    rintro ⟨e, he, hphase, -⟩
    obtain ⟨target, htarget⟩ := grounded.tasks he
    obtain ⟨p, hp, -⟩ := exists_phase_of_target? htarget
    exact hnone (hphase ▸ hp)
  have hframes : c.stack.filterMap (Frame.position? c c.phases.size) = [] := by
    refine List.filterMap_eq_nil_iff.mpr fun f hf => ?_
    by_contra hsome
    obtain ⟨position, hposition⟩ := Option.ne_none_iff_exists'.mp hsome
    obtain ⟨p, hp⟩ := grounded.exists_phase_of_position? hf hposition
    exact hnone hp
  refine ⟨?_, fun _ ht => absurd ht htask, fun ht => absurd ht htask⟩
  rw [grounded.positions_of_stay (((Extends.refl c).logAll ns).openPhase targets request) rfl, hframes]
  split <;> simp [Duty.position?, Caller.position?]

theorem intake (h : Looped c (.rest call) k) (sound : c.Sound (.rest call)) (hi : Intake c m c' d) :
    Looped c' d k := by
  by_cases hnew : ∃ targets request, m = .start targets request ∧ k = c.phases.size
  · obtain ⟨targets, request, rfl, rfl⟩ := hnew
    have hold : Looped c (.rest none) c.phases.size := h.carry (.refl _) id
    cases hi with
    | void | reject => exact hold.carry (.refl _) id
    | start => exact .start sound.grounded
  · refine h.carry (positions_sublist hi sound.grounded fun hm hk => hnew ⟨_, _, hm, hk⟩) ?_
    exact hi.noNewWork.tasks

theorem reorder {stack : List Frame} (h : Looped c (.rest call) k) (perm : stack.Perm c.stack) :
    Looped { c with stack } (.rest call) k := by
  have hperm : (positions { c with stack } (.rest call) k).Perm (c.positions (.rest call) k) :=
    perm.filterMap _
  exact ⟨hperm.length_eq ▸ h.sole, fun hposition => h.past (hperm.mem_iff.mp hposition), h.unique⟩

end Looped

theorem preserved_looped : Preserved allowed fun c d => ∀ k, Looped c d k where
  intake sound h _ hi k := (h k).intake sound hi
  progress sound h hp k := (h k).progress sound hp
  reorder h perm k := (h k).reorder perm

theorem Run.looped (run : Run allowed { policy } moves c) :
    ∃ call, ∀ k, Looped c (.rest call) k := by
  have hstart (k : Nat) : Looped { policy } (.rest none) k := by
    constructor <;> simp [positions, Duty.position?, IsTaskOf]
  obtain ⟨call, -, h⟩ := preserved_looped.run run (sound_initial policy) hstart
  exact ⟨call, h⟩

end Coordinator
end Prefilter
