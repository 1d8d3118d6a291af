import Prefilter.Phase.State

namespace Prefilter

/-- What collaborators do to a shard: the executor to its task, the others to its copies. -/
inductive Deed where
  | accepted
  | refused
  | dropped
  | ran
  | failed (copy : Nat)
  | answered (copy : Nat) (response : ProbeResponse)
deriving DecidableEq

namespace Deed

/-- Whether a copy fails or answers. -/
def settles (copy : Nat) : Deed → Bool
  | failed other | answered other _ => other == copy
  | _ => false

end Deed

/-- The first that was heard of a copy was that it failed. -/
def FailedFirst (deeds : List Deed) (copy : Nat) : Prop :=
  deeds.find? (Deed.settles copy) = some (.failed copy)

/-- The first that was heard of a copy was an answer. -/
def AnsweredFirst (deeds : List Deed) (copy : Nat) : Prop :=
  ∃ response, deeds.find? (Deed.settles copy) = some (.answered copy response)

instance (deeds : List Deed) (copy : Nat) : Decidable (FailedFirst deeds copy) :=
  inferInstanceAs (Decidable (_ = _))

structure Account where
  slot : Slot := {}
  /-- The number of warnings. -/
  warned : Nat := 0
deriving DecidableEq

namespace Account

def finish (account : Account) (copy : Nat) (outcome : Outcome) : Account :=
  if account.slot.cursor = .copy copy then { account with slot := ⟨.done, some outcome⟩ } else account

/-- A copy is tried. Beyond the last one the shard is lost, with a warning if it had any. -/
def attempt (copies : Nat) (account : Account) (copy : Nat) : Account :=
  if copy < copies then account
  else { account with warned := account.warned + if copies = 0 then 0 else 1 }.finish copy .failure

def fail (copies : Nat) (account : Account) (copy : Nat) : Account :=
  if account.slot.cursor = .copy copy then
    { account with slot := ⟨.copy (copy + 1), none⟩ }.attempt copies (copy + 1)
  else account

/-- The account of a shard with so many copies after a deed. -/
def after (copies : Nat) (account : Account) : Deed → Account
  | .accepted => account
  | .refused => { account with warned := account.warned + 1 }.finish 0 .failure
  | .dropped => account.finish 0 .failure
  | .ran => account.attempt copies 0
  | .failed copy => account.fail copies copy
  | .answered copy response => account.finish copy response.outcome

end Account

/-! ### Deeds in order -/

/-- What can come next. A task is refused or dropped once, and not run then; a copy fails or answers
only when the task has run, and after those before it. -/
def Deed.Follows (deeds : List Deed) (slot : Slot) : Deed → Prop
  | accepted => True
  | refused => .refused ∉ deeds ∧ .ran ∉ deeds
  | dropped => .dropped ∉ deeds ∧ .ran ∉ deeds
  | ran => .ran ∉ deeds ∧ .refused ∉ deeds ∧ .dropped ∉ deeds
  | failed copy | answered copy _ =>
    .ran ∈ deeds ∧ ∀ current, slot.cursor = .copy current → copy ≤ current

/-- How a shard with so many copies stands after some deeds. -/
inductive Standing (copies : Nat) (deeds : List Deed) : Account → Prop where
  | waiting (unrun : .ran ∉ deeds) (unrefused : .refused ∉ deeds) (undropped : .dropped ∉ deeds)
      (unheard : ∀ copy, deeds.find? (Deed.settles copy) = none) :
      Standing copies deeds { slot := ⟨.copy 0, none⟩ }
  | probing {copy : Nat} (ran : .ran ∈ deeds) (unrefused : .refused ∉ deeds)
      (undropped : .dropped ∉ deeds) (lt : copy < copies)
      (failed : ∀ earlier < copy, FailedFirst deeds earlier)
      (unheard : ∀ later ≥ copy, deeds.find? (Deed.settles later) = none) :
      Standing copies deeds { slot := ⟨.copy copy, none⟩ }
  /-- The task was refused or dropped. -/
  | unrun (unrun : .ran ∉ deeds) (lost : .refused ∈ deeds ∨ .dropped ∈ deeds)
      (unheard : ∀ copy, deeds.find? (Deed.settles copy) = none) :
      Standing copies deeds
        { slot := ⟨.done, some .failure⟩, warned := if .refused ∈ deeds then 1 else 0 }
  | exhausted (ran : .ran ∈ deeds) (unrefused : .refused ∉ deeds) (undropped : .dropped ∉ deeds)
      (failed : ∀ copy < copies, FailedFirst deeds copy) :
      Standing copies deeds
        { slot := ⟨.done, some .failure⟩, warned := if copies = 0 then 0 else 1 }
  | answered {copy : Nat} {response : ProbeResponse} (ran : .ran ∈ deeds)
      (unrefused : .refused ∉ deeds) (undropped : .dropped ∉ deeds) (lt : copy < copies)
      (first : deeds.find? (Deed.settles copy) = some (.answered copy response)) :
      Standing copies deeds { slot := ⟨.done, some response.outcome⟩ }

namespace Standing

variable {copies copy : Nat} {deeds : List Deed} {deed : Deed} {account : Account}

theorem start : Standing copies [] {} :=
  .waiting (by simp) (by simp) (by simp) (by simp)

theorem find?_append {first : Deed} (h : deeds.find? (Deed.settles copy) = some first) :
    (deeds ++ [deed]).find? (Deed.settles copy) = some first := by
  simp [List.find?_append, h]

theorem find?_append_of_none (h : deeds.find? (Deed.settles copy) = none) :
    (deeds ++ [deed]).find? (Deed.settles copy) = if deed.settles copy then some deed else none := by
  rw [List.find?_append, h, Option.none_or]
  cases hdeed : deed.settles copy <;> simp [hdeed]

theorem find?_append_of_other (h : deed.settles copy = false) :
    (deeds ++ [deed]).find? (Deed.settles copy) = deeds.find? (Deed.settles copy) := by
  simp [List.find?_append, h]

theorem find?_append_heard {first : Deed} (heard : deeds.find? (Deed.settles copy) = some first)
    (settles : deed.settles copy = true) (other : Nat) :
    (deeds ++ [deed]).find? (Deed.settles other) = deeds.find? (Deed.settles other) := by
  by_cases hother : deed.settles other = true
  · obtain rfl : copy = other := by cases deed <;> simp_all [Deed.settles]
    rw [heard, find?_append heard]
  · exact find?_append_of_other (by simpa using hother)

/-- What matters is what the executor did and what was first heard of each copy. -/
theorem of_same {more : List Deed} (h : Standing copies deeds account)
    (ran : .ran ∈ more ↔ .ran ∈ deeds) (refused : .refused ∈ more ↔ .refused ∈ deeds)
    (dropped : .dropped ∈ more ↔ .dropped ∈ deeds)
    (find : ∀ copy, more.find? (Deed.settles copy) = deeds.find? (Deed.settles copy)) :
    Standing copies more account := by
  cases h with
  | waiting hrun hrefused hdropped unheard =>
      exact .waiting (mt ran.mp hrun) (mt refused.mp hrefused) (mt dropped.mp hdropped)
        fun copy => (find copy).trans (unheard copy)
  | probing hran hrefused hdropped lt failed unheard =>
      exact .probing (ran.mpr hran) (mt refused.mp hrefused) (mt dropped.mp hdropped) lt
        (fun copy hcopy => (find copy).trans (failed copy hcopy))
        fun copy hcopy => (find copy).trans (unheard copy hcopy)
  | unrun hrun lost unheard =>
      have hsame := @unrun copies more (mt ran.mp hrun)
        (lost.imp refused.mpr dropped.mpr) fun copy => (find copy).trans (unheard copy)
      simpa only [refused] using hsame
  | exhausted hran hrefused hdropped failed =>
      exact .exhausted (ran.mpr hran) (mt refused.mp hrefused) (mt dropped.mp hdropped)
        fun copy hcopy => (find copy).trans (failed copy hcopy)
  | answered hran hrefused hdropped lt first =>
      exact .answered (ran.mpr hran) (mt refused.mp hrefused) (mt dropped.mp hdropped) lt
        ((find _).trans first)

theorem refuse (h : Standing copies deeds account) (unrefused : .refused ∉ deeds)
    (unrun : .ran ∉ deeds) :
    Standing copies (deeds ++ [Deed.refused]) (account.after copies .refused) := by
  have hlost := @Standing.unrun copies (deeds ++ [Deed.refused]) (by simpa using unrun) (by simp)
  cases h with
  | waiting _ _ _ unheard =>
      simpa using! hlost fun copy => (find?_append_of_other rfl).trans (unheard copy)
  | unrun _ _ unheard =>
      simpa [unrefused] using! hlost fun copy => (find?_append_of_other rfl).trans (unheard copy)
  | probing ran | exhausted ran | answered ran => exact absurd ran unrun

theorem drop (h : Standing copies deeds account) (unrun : .ran ∉ deeds) :
    Standing copies (deeds ++ [Deed.dropped]) (account.after copies .dropped) := by
  have hlost := @Standing.unrun copies (deeds ++ [Deed.dropped]) (by simpa using unrun) (by simp)
  cases h with
  | waiting _ unrefused _ unheard =>
      simpa [unrefused] using! hlost fun copy => (find?_append_of_other rfl).trans (unheard copy)
  | unrun _ _ unheard =>
      simpa using! hlost fun copy => (find?_append_of_other rfl).trans (unheard copy)
  | probing ran | exhausted ran | answered ran => exact absurd ran unrun

theorem run (h : Standing copies deeds account) (unrun : .ran ∉ deeds) (unrefused : .refused ∉ deeds)
    (undropped : .dropped ∉ deeds) :
    Standing copies (deeds ++ [Deed.ran]) (account.after copies .ran) := by
  have hrefused : .refused ∉ deeds ++ [Deed.ran] := by simpa using unrefused
  have hdropped : .dropped ∉ deeds ++ [Deed.ran] := by simpa using undropped
  cases h with
  | waiting _ _ _ unheard =>
      rcases Nat.eq_zero_or_pos copies with rfl | hpos
      · exact exhausted (by simp) hrefused hdropped (by simp)
      · rw [Account.after, Account.attempt, if_pos hpos]
        exact probing (by simp) hrefused hdropped hpos (by simp) fun copy _ =>
          (find?_append_of_other rfl).trans (unheard copy)
  | unrun _ lost => exact absurd lost (by simp [unrefused, undropped])
  | probing ran | exhausted ran | answered ran => exact absurd ran unrun

theorem late (h : Standing copies deeds account) (settles : deed.settles copy = true)
    (ran : .ran ∈ deeds) (le : ∀ current, account.slot.cursor = .copy current → copy ≤ current)
    (stale : account.slot.cursor ≠ .copy copy) : Standing copies (deeds ++ [deed]) account := by
  have hran : .ran ∈ deeds ++ [deed] ↔ .ran ∈ deeds := by cases deed <;> simp_all [Deed.settles]
  have hrefused : .refused ∈ deeds ++ [deed] ↔ .refused ∈ deeds := by
    cases deed <;> simp_all [Deed.settles]
  have hdropped : .dropped ∈ deeds ++ [deed] ↔ .dropped ∈ deeds := by
    cases deed <;> simp_all [Deed.settles]
  cases h with
  | waiting unrun | unrun unrun => exact absurd ran unrun
  | @probing current _ unrefused undropped lt failed unheard =>
      have hlt : copy < current := Nat.lt_of_le_of_ne (le current rfl) fun heq => stale (heq ▸ rfl)
      exact (probing ran unrefused undropped lt failed unheard).of_same hran hrefused hdropped
        (find?_append_heard (failed copy hlt) settles)
  | exhausted _ unrefused undropped failed =>
      exact exhausted (hran.mpr ran) (mt hrefused.mp unrefused) (mt hdropped.mp undropped)
        fun copy hcopy => find?_append (failed copy hcopy)
  | answered _ unrefused undropped lt first =>
      exact answered (hran.mpr ran) (mt hrefused.mp unrefused) (mt hdropped.mp undropped) lt
        (find?_append first)

theorem fail (h : Standing copies deeds account) (ran : .ran ∈ deeds)
    (le : ∀ current, account.slot.cursor = .copy current → copy ≤ current) :
    Standing copies (deeds ++ [.failed copy]) (account.after copies (.failed copy)) := by
  rw [Account.after, Account.fail]
  split
  · rename_i current
    cases h with
    | waiting unrun | unrun unrun => exact absurd ran unrun
    | exhausted | answered => cases current
    | @probing other _ unrefused undropped lt failed unheard =>
        obtain rfl : other = copy := Cursor.copy.inj current
        have hran : .ran ∈ deeds ++ [.failed other] := List.mem_append_left _ ran
        have hrefused : .refused ∉ deeds ++ [.failed other] := by simpa using unrefused
        have hdropped : .dropped ∉ deeds ++ [.failed other] := by simpa using undropped
        have hfailed (earlier : Nat) (h : earlier < other + 1) :
            FailedFirst (deeds ++ [.failed other]) earlier := by
          rcases Nat.lt_succ_iff_lt_or_eq.mp h with hlt | rfl
          · exact find?_append (failed earlier hlt)
          · exact (find?_append_of_none (unheard earlier (Nat.le_refl _))).trans
              (if_pos (beq_self_eq_true earlier))
        rw [Account.attempt]
        split
        · rename_i hnext
          refine probing hran hrefused hdropped hnext hfailed fun later hlater => ?_
          have hother : (Deed.failed other).settles later = false :=
            beq_eq_false_iff_ne.mpr (Nat.ne_of_lt hlater)
          rw [find?_append_of_other hother]
          exact unheard later (Nat.le_of_succ_le hlater)
        · rename_i hlast
          obtain rfl : other + 1 = copies := by omega
          simpa [Account.finish] using exhausted hran hrefused hdropped hfailed
  · rename_i stale
    exact h.late (beq_self_eq_true copy) ran le stale

theorem answer {response : ProbeResponse} (h : Standing copies deeds account) (ran : .ran ∈ deeds)
    (le : ∀ current, account.slot.cursor = .copy current → copy ≤ current) :
    Standing copies (deeds ++ [.answered copy response])
      (account.after copies (.answered copy response)) := by
  rw [Account.after, Account.finish]
  split
  · rename_i current
    cases h with
    | waiting unrun | unrun unrun => exact absurd ran unrun
    | exhausted | answered => cases current
    | @probing other _ unrefused undropped lt failed unheard =>
        obtain rfl : other = copy := Cursor.copy.inj current
        have hfirst := (@find?_append_of_none _ _ (.answered other response)
          (unheard other (Nat.le_refl _))).trans (if_pos (beq_self_eq_true other))
        exact answered (List.mem_append_left _ ran) (by simpa using unrefused)
          (by simpa using undropped) lt hfirst
  · rename_i stale
    exact h.late (beq_self_eq_true copy) ran le stale

theorem after (h : Standing copies deeds account) (follows : deed.Follows deeds account.slot) :
    Standing copies (deeds ++ [deed]) (account.after copies deed) := by
  cases deed with
  | accepted =>
      exact h.of_same (by simp) (by simp) (by simp) fun copy => find?_append_of_other rfl
  | refused => exact h.refuse follows.1 follows.2
  | dropped => exact h.drop follows.2
  | ran => exact h.run follows.1 follows.2.1 follows.2.2
  | failed copy => exact h.fail follows.1 follows.2
  | answered copy response => exact h.answer follows.1 follows.2

end Standing

/-! ### Losses -/

/-- The ways in which a shard is lost. -/
inductive Loss where
  | refused
  | dropped
  | unassigned
  | exhausted
deriving DecidableEq

/-- A shard with so many copies is lost in a way. Its task is refused, or dropped and not refused, or
it is run, and there are no copies or all of them fail. -/
def Loss.Holds (copies : Nat) (deeds : List Deed) : Loss → Prop
  | refused => .refused ∈ deeds
  | dropped => .dropped ∈ deeds ∧ .refused ∉ deeds
  | unassigned => .ran ∈ deeds ∧ copies = 0
  | exhausted => .ran ∈ deeds ∧ 0 < copies ∧ ∀ copy < copies, FailedFirst deeds copy

instance (copies : Nat) (deeds : List Deed) (loss : Loss) : Decidable (loss.Holds copies deeds) :=
  match loss with
  | .refused => inferInstanceAs (Decidable (_ ∈ _))
  | .dropped | .unassigned | .exhausted => inferInstanceAs (Decidable (_ ∧ _))

namespace Standing

variable {copies : Nat} {deeds : List Deed} {account : Account} {loss loss' : Loss}

theorem ran_of_heard {copy : Nat} {first : Deed} (h : Standing copies deeds account)
    (heard : deeds.find? (Deed.settles copy) = some first) : .ran ∈ deeds := by
  cases h with
  | waiting _ _ _ unheard | unrun _ _ unheard => simp [unheard copy] at heard
  | probing ran | exhausted ran | answered ran => exact ran

theorem not_mem_of_ran (h : Standing copies deeds account) (ran : .ran ∈ deeds) :
    .refused ∉ deeds ∧ .dropped ∉ deeds := by
  cases h with
  | waiting unrun | unrun unrun => exact absurd ran unrun
  | probing _ unrefused undropped | exhausted _ unrefused undropped
  | answered _ unrefused undropped => exact ⟨unrefused, undropped⟩

theorem loss_unique (h : Standing copies deeds account) (holds : loss.Holds copies deeds)
    (holds' : loss'.Holds copies deeds) : loss = loss' := by
  have hran := h.not_mem_of_ran
  cases loss <;> cases loss' <;> simp only [Loss.Holds] at holds holds' <;> grind

theorem not_holds_of_answered {copy : Nat} (h : Standing copies deeds account) (lt : copy < copies)
    (answered : AnsweredFirst deeds copy) (loss : Loss) : ¬ loss.Holds copies deeds := by
  obtain ⟨response, first⟩ := answered
  obtain ⟨unrefused, undropped⟩ := h.not_mem_of_ran (h.ran_of_heard first)
  intro holds
  cases loss with
  | refused => exact unrefused holds
  | dropped => exact undropped holds.1
  | unassigned => exact absurd holds.2 (Nat.ne_of_gt (Nat.zero_lt_of_lt lt))
  | exhausted => simpa [FailedFirst, first] using holds.2.2 copy lt

theorem warned_eq (h : Standing copies deeds account) : account.warned =
    if Loss.refused.Holds copies deeds ∨ Loss.exhausted.Holds copies deeds then 1 else 0 := by
  have hanswered := @h.not_holds_of_answered
  cases h with
  | waiting unrun unrefused => simp [Loss.Holds, unrun, unrefused]
  | @probing copy ran unrefused _ lt _ unheard =>
      have hopen : ¬ ∀ copy < copies, FailedFirst deeds copy := fun failed =>
        absurd (failed copy lt) (by simp [FailedFirst, unheard copy (Nat.le_refl _)])
      simp [Loss.Holds, unrefused, hopen]
  | unrun unrun => simp [Loss.Holds, unrun]
  | exhausted ran unrefused _ failed =>
      rcases Nat.eq_zero_or_pos copies with rfl | hpos
      · simp [Loss.Holds, unrefused]
      · rw [if_neg (Nat.ne_of_gt hpos), if_pos (.inr ⟨ran, hpos, failed⟩)]
  | answered _ _ _ lt first =>
      rw [if_neg]
      exact not_or.mpr ⟨hanswered _ lt ⟨_, first⟩ _, hanswered _ lt ⟨_, first⟩ _⟩

/-- A shard whose outcome is there has failed just if it was lost. -/
theorem failed_iff (h : Standing copies deeds account) (done : account.slot.cursor = .done) :
    (account.slot.outcome.getD .failure).failed = true ↔ ∃ loss : Loss, loss.Holds copies deeds := by
  have hanswered := @h.not_holds_of_answered
  cases h with
  | waiting | probing => cases done
  | unrun _ lost =>
      refine iff_of_true rfl ?_
      by_cases hrefused : .refused ∈ deeds
      · exact ⟨.refused, hrefused⟩
      · exact ⟨.dropped, lost.resolve_left hrefused, hrefused⟩
  | exhausted ran _ _ failed =>
      refine iff_of_true rfl ?_
      rcases Nat.eq_zero_or_pos copies with hzero | hpos
      · exact ⟨.unassigned, ran, hzero⟩
      · exact ⟨.exhausted, ran, hpos, failed⟩
  | answered _ _ _ lt first =>
      exact iff_of_false Bool.false_ne_true fun ⟨_, holds⟩ => hanswered _ lt ⟨_, first⟩ _ holds

end Standing
end Prefilter
