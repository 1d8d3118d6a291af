import Prefilter.Proofs.Phase.Telling
import Prefilter.Proofs.Routing.Delivery

namespace Prefilter

theorem countP_eq_add_losses {failed : Nat → Bool} {holds : Loss → Nat → Prop}
    [∀ loss i, Decidable (holds loss i)] {slots : List Nat}
    (lost : ∀ i ∈ slots, failed i = true ↔ ∃ loss, holds loss i)
    (unique : ∀ {i : Nat} {loss loss' : Loss}, holds loss i → holds loss' i → loss = loss') :
    slots.countP failed =
      (slots.filter (holds .refused)).length + (slots.filter (holds .dropped)).length +
        (slots.filter (holds .unassigned)).length + (slots.filter (holds .exhausted)).length := by
  simp only [← List.countP_eq_length_filter]
  induction slots with
  | nil => rfl
  | cons i slots ih =>
      have hone : (if failed i = true then 1 else 0) =
          (if holds .refused i then 1 else 0) + (if holds .dropped i then 1 else 0) +
            (if holds .unassigned i then 1 else 0) + if holds .exhausted i then 1 else 0 := by
        have hlost := lost i List.mem_cons_self
        by_cases hfailed : failed i = true
        · obtain ⟨loss, hloss⟩ := hlost.mp hfailed
          have hholds (loss' : Loss) : holds loss' i ↔ loss' = loss :=
            ⟨fun h => unique h hloss, fun h => h ▸ hloss⟩
          simp only [hfailed, hholds]
          cases loss <;> rfl
        · have hholds (loss : Loss) : ¬ holds loss i := fun h => hfailed (hlost.mpr ⟨loss, h⟩)
          simp [hfailed, hholds]
      have hrest := ih fun j hj => lost j (List.mem_cons_of_mem _ hj)
      simp only [List.countP_cons, decide_eq_true_eq, hrest, hone]
      omega

namespace Coordinator

variable {c : Coordinator} {d : Duty} {k i : Nat} {p : Phase} {r : OrderedShards} {loss loss' : Loss}
  {history : List Note} {moves : List Move} {refuses : Nat → Prop} {policy : OrderingPolicy}

/-- The shards of a phase, by position. -/
def shards (c : Coordinator) (phase : Nat) : List Nat :=
  List.range ((c.phases[phase]?).elim 0 (·.targets.size))

/-- The shards of a phase that are lost in a way. -/
def lost (c : Coordinator) (history : List Note) (phase : Nat) (loss : Loss) : List Nat :=
  (c.shards phase).filter fun slot => loss.Holds (c.copies phase slot) (deedsOf history phase slot)

theorem shards_of_phase (found : c.phases[k]? = some p) : c.shards k = List.range p.targets.size := by
  rw [shards, found, Option.elim_some]

theorem mem_shards : i ∈ c.shards k ↔ ∃ target, c.target? k i = some target := by
  rw [shards, List.mem_range, target?]
  cases c.phases[k]? with
  | none => simp
  | some p => simp [Array.getElem?_eq_some_iff]

theorem nodup_lost (c : Coordinator) (history : List Note) (k : Nat) (loss : Loss) :
    (c.lost history k loss).Nodup :=
  List.nodup_range.filter _

theorem count_lost (c : Coordinator) (history : List Note) (k i : Nat) (loss : Loss) :
    (c.lost history k loss).count i = if i ∈ c.lost history k loss then 1 else 0 :=
  (c.nodup_lost history k loss).count

theorem Sound.map_snd_outcomes (sound : c.Sound d) (found : c.phases[k]? = some p) :
    p.outcomes.map Prod.snd =
      (c.shards k).map fun i => (c.account k i).slot.outcome.getD .failure := by
  have hbalanced := sound.books.balanced found
  have hlength : p.outcomes.length = p.targets.size := by
    simpa using congrArg List.length hbalanced.map_fst_outcomes
  rw [shards_of_phase found]
  refine List.ext_getElem (by simp [hlength]) fun i hi hi' => ?_
  have htarget : i < p.targets.size := by simpa using hi'
  have hslot : i < p.slots.size := hbalanced.slots_size ▸ htarget
  have hs : c.slot? k i = some p.slots[i] :=
    slot?_eq_some.mpr ⟨p, found, Array.getElem?_eq_getElem hslot⟩
  have hout : p.outcomes[i]? = some (p.targets[i], p.slots[i].outcome.getD .failure) :=
    Phase.getElem?_outcomes.mpr
      ⟨p.slots[i], Array.getElem?_eq_getElem htarget, Array.getElem?_eq_getElem hslot, rfl⟩
  have hget := (List.getElem?_eq_some_iff.mp hout).2
  simp [hget, account_of_slot? hs]

namespace Told

theorem mem_lost (told : Told refuses policy history c) :
    i ∈ c.lost history k loss ↔ loss.Holds (c.copies k i) (deedsOf history k i) := by
  rw [lost, List.mem_filter, decide_eq_true_eq, mem_shards]
  refine and_iff_right_of_imp fun holds => ?_
  cases listed : c.target? k i with
  | some target => exact ⟨target, rfl⟩
  | none =>
      rw [(told.fresh listed).1] at holds
      cases loss <;> simp [Loss.Holds] at holds

theorem loss_unique (told : Told refuses policy history c) (h : i ∈ c.lost history k loss)
    (h' : i ∈ c.lost history k loss') : loss = loss' :=
  (told.standing k i).loss_unique (told.mem_lost.mp h) (told.mem_lost.mp h')

theorem count_warned (told : Told refuses policy history c) (k i : Nat) : (c.warned k).count i =
    (c.lost history k .refused).count i + (c.lost history k .exhausted).count i := by
  have hwarned : (c.warned k).count i = _ := (told.standing k i).warned_eq
  rw [hwarned, count_lost, count_lost]
  simp only [← told.mem_lost]
  by_cases hrefused : i ∈ c.lost history k .refused
  · have hexhausted : i ∉ c.lost history k .exhausted := fun h =>
      Loss.noConfusion (told.loss_unique hrefused h)
    simp [hrefused, hexhausted]
  · simp [hrefused]

theorem perm_warned (told : Told refuses policy history c) (k : Nat) :
    (c.warned k).Perm (c.lost history k .refused ++ c.lost history k .exhausted) :=
  List.perm_iff_count.mpr fun i => by rw [told.count_warned, List.count_append]

theorem nodup_warned (told : Told refuses policy history c) (k : Nat) : (c.warned k).Nodup := by
  rw [List.nodup_iff_count_le_one]
  intro i
  have hwarned : (c.warned k).count i = _ := (told.standing k i).warned_eq
  rw [hwarned]
  split
  · exact Nat.le_refl 1
  · exact Nat.zero_le 1

theorem warned_eq_nil (told : Told refuses policy history c)
    (answered : ∀ i ∈ c.shards k, ∃ copy < c.copies k i, AnsweredFirst (deedsOf history k i) copy) :
    c.warned k = [] := by
  have hnone (loss : Loss) : c.lost history k loss = [] := by
    refine List.eq_nil_iff_forall_not_mem.mpr fun i hi => ?_
    obtain ⟨copy, hlt, hanswered⟩ := answered i (List.mem_of_mem_filter hi)
    exact (told.standing k i).not_holds_of_answered hlt hanswered loss (told.mem_lost.mp hi)
  exact List.perm_nil.mp (by simpa [hnone] using told.perm_warned k)

/-- Once all outcomes are there, the failures are the losses. -/
theorem countP_failed (told : Told refuses policy history c) (found : c.phases[k]? = some p)
    (finished : p.outstanding = 0) : p.outcomes.countP (·.2.failed) =
      (c.lost history k .refused).length + (c.lost history k .dropped).length +
        (c.lost history k .unassigned).length + (c.lost history k .exhausted).length := by
  obtain ⟨call, sound⟩ := told.sound
  have hbalanced := sound.books.balanced found
  have hcount : p.outcomes.countP (·.2.failed) =
      (c.shards k).countP fun i => ((c.account k i).slot.outcome.getD .failure).failed := by
    have hsnd := congrArg (List.countP Outcome.failed) (sound.map_snd_outcomes found)
    simpa only [List.countP_map, Function.comp_def] using hsnd
  have hdone (i : Nat) (hi : i ∈ c.shards k) : (c.account k i).slot.cursor = .done := by
    have hslot : i < p.slots.size := by
      rw [hbalanced.slots_size]
      simpa [shards_of_phase found] using hi
    have hps : p.slots[i]? = some p.slots[i] := Array.getElem?_eq_getElem hslot
    rw [account_of_slot? (slot?_eq_some.mpr ⟨p, found, hps⟩)]
    exact hbalanced.cursor_eq_done finished hps
  rw [hcount]
  exact countP_eq_add_losses (fun i hi => (told.standing k i).failed_iff (hdone i hi))
    (told.standing k _).loss_unique

/-- A task that was dropped was accepted, or the executor has yet to say whether it takes it. -/
theorem accepted_of_dropped (told : Told refuses policy history c)
    (dropped : i ∈ c.lost history k .dropped) : .accepted ∈ deedsOf history k i ∨
      ∃ task, c.IsTaskOf task k i ∧ .submitting task ∈ c.stack := by
  obtain ⟨call, -, chronicled⟩ := told.chronicled
  obtain ⟨hdropped, hrefused⟩ := told.mem_lost.mp dropped
  obtain ⟨task, used⟩ := (chronicled k i).dropped hdropped
  rcases (chronicled k i).replied used.isTaskOf with under | accepted | refused
  · exact .inr ⟨task, used.isTaskOf, under⟩
  · exact .inl accepted
  · exact absurd refused hrefused

end Told

/-- The failures of a phase that is completed are the shards whose task was refused, those whose task
was dropped, those that were run and have no copies, and those that were run and whose copies all
failed; no shard is two of these. A dropped task is one that was accepted, unless the executor has yet
to say whether it takes it. There is one warning about each of the first and each of the last, and no
other, so none if all shards were answered. -/
theorem failures_accounted (told : Told refuses policy history c) (delivered : r ∈ c.deliveries k) :
    r.summary.failed =
      (c.lost history k .refused).length + (c.lost history k .dropped).length +
        (c.lost history k .unassigned).length + (c.lost history k .exhausted).length ∧
    (∀ (i : Nat) (loss loss' : Loss), i ∈ c.lost history k loss → i ∈ c.lost history k loss' →
      loss = loss') ∧
    (∀ i ∈ c.lost history k .dropped, .accepted ∈ deedsOf history k i ∨
      ∃ task, c.IsTaskOf task k i ∧ .submitting task ∈ c.stack) ∧
    (c.warned k).length =
      (c.lost history k .refused).length + (c.lost history k .exhausted).length ∧
    (c.warned k).Perm (c.lost history k .refused ++ c.lost history k .exhausted) ∧
    (c.warned k).Nodup ∧
    ((∀ i ∈ c.shards k, ∃ copy < c.copies k i, AnsweredFirst (deedsOf history k i) copy) →
      c.warned k = []) := by
  obtain ⟨call, sound⟩ := told.sound
  obtain ⟨p, found, finished, rfl⟩ := sound.books.exists_of_mem_deliveries delivered
  have hperm := told.perm_warned k
  refine ⟨?_, fun _ _ _ h h' => told.loss_unique h h', fun _ h => told.accepted_of_dropped h, ?_,
    hperm, told.nodup_warned k, told.warned_eq_nil⟩
  · rw [resultOf, OrderingPolicy.order_failed, told.countP_failed found finished]
  · rw [hperm.length_eq, List.length_append]

/-- The deeds in moves made on one thread. -/
def notes (c : Coordinator) : List Move → List Note
  | [] => []
  | m :: moves => (c.note? m).toList ++ notes (c.step m).coordinator moves

theorem Told.run (told : Told refuses policy history c) (permitted : Permitted (Obeys refuses) c moves) :
    Told refuses policy (history ++ c.notes moves) (c.run moves) := by
  induction moves generalizing c history with
  | nil => simpa [notes] using! told
  | cons m moves ih =>
      have hrest := ih (told.move permitted.1) permitted.2
      rwa [List.append_assoc] at hrest

/-- The task of the first of five shards is dropped as it is refused, that of the second is dropped
later. The third has no copies, the copy of the fourth is not found, and that of the last answers. -/
def fourLost : List Move :=
  [.start [{ shard := { index := default, ordinal := 0 }, copies := [default] },
      { shard := { index := default, ordinal := 1 }, copies := [default] },
      { shard := { index := default, ordinal := 2 } },
      { shard := { index := default, ordinal := 3 }, copies := [default] },
      { shard := { index := default, ordinal := 4 }, copies := [default] }] {},
    .discard 0, .refused .shutdown, .accepted, .accepted, .accepted, .accepted, .discard 1, .run 2,
    .run 3, .unreachable .listenerDropped, .run 4, .connected default, .sent,
    .answer 0 (.ok { canMatch := false })]

theorem fourLost_permitted : Permitted (Obeys (· = 0)) {} fourLost := by
  refine ⟨trivial, trivial, ?_, trivial, trivial, trivial, trivial, trivial, Nat.succ_ne_zero 1,
    Nat.succ_ne_zero 2, trivial, Nat.succ_ne_zero 3, trivial, trivial, trivial, trivial⟩
  intro task stack top
  have hstack : some (Frame.submitting 0) = some (Frame.submitting task) :=
    Eq.trans (by decide +kernel) (congrArg List.head? top)
  exact (Frame.submitting.inj (Option.some.inj hstack)).symm

theorem failures_accounted_fourLost : ∃ r ∈ (run {} fourLost).deliveries 0,
    (run {} fourLost).lost (notes {} fourLost) 0 .refused = [0] ∧
    (run {} fourLost).lost (notes {} fourLost) 0 .dropped = [1] ∧
    (run {} fourLost).lost (notes {} fourLost) 0 .unassigned = [2] ∧
    (run {} fourLost).lost (notes {} fourLost) 0 .exhausted = [3] ∧
    r.summary.failed = 4 ∧ ((run {} fourLost).warned 0).Perm [0, 3] := by
  have told : Told (· = 0) {} (notes {} fourLost) (run {} fourLost) :=
    Told.nil.run fourLost_permitted
  have hsome : ((run {} fourLost).deliveries 0).head?.isSome = true := by decide +kernel
  have hrefused : (run {} fourLost).lost (notes {} fourLost) 0 .refused = [0] := by decide +kernel
  have hdropped : (run {} fourLost).lost (notes {} fourLost) 0 .dropped = [1] := by decide +kernel
  have hunassigned : (run {} fourLost).lost (notes {} fourLost) 0 .unassigned = [2] := by
    decide +kernel
  have hexhausted : (run {} fourLost).lost (notes {} fourLost) 0 .exhausted = [3] := by
    decide +kernel
  obtain ⟨r, hr⟩ := Option.isSome_iff_exists.mp hsome
  have delivered : r ∈ (run {} fourLost).deliveries 0 := List.mem_of_mem_head? hr
  obtain ⟨hfailed, -, -, -, hwarned, -⟩ := failures_accounted told delivered
  rw [hrefused, hdropped, hunassigned, hexhausted] at hfailed
  rw [hrefused, hexhausted] at hwarned
  exact ⟨r, delivered, hrefused, hdropped, hunassigned, hexhausted, hfailed, hwarned⟩

end Coordinator
end Prefilter
