import Prefilter.Proofs.Phase.Duty

namespace Prefilter

theorem getElem?_modify_eq_some {α : Type} {xs : Array α} {i j : Nat} {f : α → α} {b : α} :
    (xs.modify i f)[j]? = some b ↔ ∃ a, xs[j]? = some a ∧ (if i = j then f a else a) = b := by
  rw [Array.getElem?_modify]
  split <;> simp

theorem getElem?_push_eq_some {α : Type} {xs : Array α} {i : Nat} {a b : α} (h : xs[i]? = some a) :
    (xs.push b)[i]? = some a := by
  have hi := (Array.getElem?_eq_some_iff.mp h).1
  simpa [Array.getElem?_push, Nat.ne_of_lt hi] using h

theorem countP_modify {α : Type} {xs : Array α} {i : Nat} {a : α} (f : α → α) (q : α → Bool)
    (h : xs[i]? = some a) :
    (xs.modify i f).countP q + (q a).toNat = xs.countP q + (q (f a)).toNat := by
  obtain ⟨hi, rfl⟩ := Array.getElem?_eq_some_iff.mp h
  have hset : xs.modify i f = xs.set i (f xs[i]) hi := by
    apply Array.ext
    · simp
    · intro j hj hj'
      rw [Array.getElem_modify, Array.getElem_set]
      by_cases hij : i = j
      · subst hij
        simp
      · simp [hij]
  have hpos : q xs[i] = true → 0 < xs.countP q := fun hq =>
    Array.countP_pos_iff.mpr ⟨xs[i], Array.getElem_mem hi, hq⟩
  rw [hset, Array.countP_set hi]
  cases hq : q xs[i] <;> cases q (f xs[i]) <;> simp_all

namespace Slot

/-- Whether the shard has no outcome yet, by its cursor. -/
def isOpen (s : Slot) : Bool := s.cursor != .done

theorem isOpen_eq_true {s : Slot} {copy : Nat} (h : s.cursor = .copy copy) : s.isOpen = true := by
  simp [isOpen, h]

theorem isOpen_done (outcome : Option Outcome) : isOpen { cursor := .done, outcome } = false := rfl

end Slot

namespace Phase

variable {p : Phase} {s : Slot} {slot copy : Nat} {outcome : Outcome}

/-- The number of slots whose cursor is not past the last attempt. -/
def openCount (p : Phase) : Nat := p.slots.countP Slot.isOpen

/-- The books of a phase are in order. -/
structure Balanced (p : Phase) : Prop where
  slots_size : p.slots.size = p.targets.size
  done_iff : ∀ {i : Nat} {s : Slot}, p.slots[i]? = some s → (s.cursor = .done ↔ s.outcome.isSome)
  outstanding_eq : p.outstanding = p.openCount

theorem balanced_ofTargets (targets : List ShardTarget) (request : SearchRequest) :
    (ofTargets targets request).Balanced where
  slots_size := by simp [ofTargets]
  done_iff := by
    intro i s h
    simp only [ofTargets, Array.getElem?_replicate] at h
    split at h
    · obtain rfl := Option.some.inj h
      simp
    · simp at h
  outstanding_eq := by simp [ofTargets, openCount, Array.countP_replicate, Slot.isOpen]

theorem Balanced.outcome_eq_none (h : p.Balanced) (hs : p.slots[slot]? = some s)
    (hc : s.cursor = .copy copy) : s.outcome = none := by
  have hnot : ¬ s.outcome.isSome := fun ho => by simpa [hc] using (h.done_iff hs).mpr ho
  simpa using hnot

theorem Balanced.outstanding_pos (h : p.Balanced) (hs : p.slots[slot]? = some s)
    (hc : s.cursor = .copy copy) : 0 < p.outstanding := by
  rw [h.outstanding_eq, openCount, Array.countP_pos_iff]
  exact ⟨s, Array.mem_of_getElem? hs, Slot.isOpen_eq_true hc⟩

theorem Balanced.cursor_eq_done (h : p.Balanced) (hz : p.outstanding = 0)
    (hs : p.slots[slot]? = some s) : s.cursor = .done := by
  cases hc : s.cursor with
  | done => rfl
  | copy index => exact absurd hz (Nat.ne_of_gt (h.outstanding_pos hs hc))

theorem Balanced.advance (h : p.Balanced) (hs : p.slots[slot]? = some s)
    (hc : s.cursor = .copy copy) : (p.advance slot copy).Balanced where
  slots_size := by simpa [Phase.advance] using h.slots_size
  done_iff := by
    intro i t ht
    obtain ⟨u, hu, rfl⟩ := getElem?_modify_eq_some.mp ht
    split
    · rename_i hi
      subst hi
      obtain rfl := Option.some.inj (hs.symm.trans hu)
      simp [h.outcome_eq_none hs hc]
    · exact h.done_iff hu
  outstanding_eq := by
    have hcount := countP_modify (fun s => { s with cursor := .copy (copy + 1) }) Slot.isOpen hs
    rw [Slot.isOpen_eq_true hc, Slot.isOpen_eq_true rfl] at hcount
    simp only [Phase.advance, openCount, h.outstanding_eq]
    omega

theorem Balanced.record (h : p.Balanced) (hs : p.slots[slot]? = some s)
    (hc : s.cursor = .copy copy) : (p.record slot outcome).Balanced where
  slots_size := by simpa [Phase.record] using h.slots_size
  done_iff := by
    intro i t ht
    obtain ⟨u, hu, rfl⟩ := getElem?_modify_eq_some.mp ht
    split
    · simp
    · exact h.done_iff hu
  outstanding_eq := by
    have hcount := countP_modify (fun s => ⟨.done, s.outcome.or (some outcome)⟩) Slot.isOpen hs
    rw [Slot.isOpen_eq_true hc, Slot.isOpen_done, Bool.toNat_true, Bool.toNat_false] at hcount
    simp only [Phase.record, openCount, h.outstanding_eq]
    omega

theorem Balanced.conclude (h : p.Balanced) (result : OrderedShards) :
    (p.conclude result).Balanced where
  slots_size := h.slots_size
  done_iff := h.done_iff
  outstanding_eq := h.outstanding_eq

theorem Balanced.openSlots_eq_nil (h : p.Balanced) (hz : p.outstanding = 0) : p.openSlots = [] := by
  simp only [openSlots, List.filter_eq_nil_iff, List.mem_range]
  intro i hi
  have hs : p.slots[i]? = some p.slots[i] := Array.getElem?_eq_getElem hi
  have ho := (h.done_iff hs).mp (h.cursor_eq_done hz hs)
  obtain ⟨o, ho⟩ := Option.isSome_iff_exists.mp ho
  simp [hs, ho]

theorem getElem?_outcomes {i : Nat} {target : ShardTarget} {o : Outcome} :
    p.outcomes[i]? = some (target, o) ↔ ∃ s, p.targets[i]? = some target ∧ p.slots[i]? = some s ∧
      o = s.outcome.getD .failure := by
  simp only [outcomes, List.getElem?_map, Array.getElem?_toList, Array.getElem?_zip_eq_some,
    Option.map_eq_some_iff, Prod.exists, Prod.mk.injEq]
  constructor
  · rintro ⟨t, s, ⟨ht, hs⟩, rfl, rfl⟩
    exact ⟨s, ht, hs, rfl⟩
  · rintro ⟨s, ht, hs, rfl⟩
    exact ⟨target, s, ⟨ht, hs⟩, rfl, rfl⟩

theorem Balanced.map_fst_outcomes (h : p.Balanced) : p.outcomes.map Prod.fst = p.targets.toList := by
  have hlength : p.targets.toList.length ≤ p.slots.toList.length := by
    simp [h.slots_size]
  simp only [outcomes, List.map_map, Function.comp_def, Array.toList_zip]
  exact List.map_fst_zip hlength

end Phase
end Prefilter
