import Mathlib.Data.List.Basic
import Mathlib.Data.List.Perm.Basic
import Mathlib.Tactic.SplitIfs
import Prefilter.Dispatch.Pool

namespace Prefilter

/-- The stage of a task right after its submission. -/
def Admission.stage : Admission → Stage
  | queued => .spawned
  | dropped => .dropped
  | refused _ => .refused

variable {p : Pool} {max task other : Nat} {inside : Bool} {tasks held : List Nat}
  {stage old new : Stage}

namespace Pool

/-- The tasks whose futures are ready or in line. -/
def futures (p : Pool) : List Nat := p.inner ++ p.outer ++ p.line

theorem mem_queuedTasks :
    task ∈ p.queuedTasks ↔ ∃ stage, p.stages[task]? = some stage ∧ stage.isQueued = true := by
  simp only [queuedTasks, List.mem_filter, List.mem_range]
  constructor
  · rintro ⟨-, hqueued⟩
    rcases h : p.stages[task]? with _ | stage
    · simp [h] at hqueued
    · exact ⟨stage, rfl, by simpa [h] using hqueued⟩
  · rintro ⟨stage, h, hqueued⟩
    obtain ⟨hlt, -⟩ := Array.getElem?_eq_some_iff.mp h
    exact ⟨hlt, by simpa [h] using hqueued⟩

theorem nodup_queuedTasks (p : Pool) : p.queuedTasks.Nodup :=
  List.nodup_range.filter _

theorem queuedTasks_perm_iff :
    tasks.Perm p.queuedTasks ↔ tasks.Nodup ∧ ∀ task, task ∈ tasks ↔ task ∈ p.queuedTasks := by
  constructor
  · intro h
    exact ⟨h.nodup_iff.mpr p.nodup_queuedTasks, fun _ => h.mem_iff⟩
  · rintro ⟨hnodup, hmem⟩
    exact (List.perm_ext_iff_of_nodup hnodup p.nodup_queuedTasks).mpr hmem

theorem queuedTasks_push {q : Pool} (h : q.stages = p.stages.push stage) :
    q.queuedTasks = p.queuedTasks ++ if stage.isQueued then [p.stages.size] else [] := by
  simp only [queuedTasks, h, Array.size_push, List.range_succ, List.filter_append]
  congr 1
  · apply List.filter_congr
    intro i hi
    simp [Array.getElem?_push, Nat.ne_of_lt (List.mem_range.mp hi)]
  · by_cases hqueued : stage.isQueued = true <;> simp [hqueued]

@[simp] theorem setStage_permits : (p.setStage task stage).permits = p.permits := rfl

@[simp] theorem setStage_limit : (p.setStage task stage).limit = p.limit := rfl

@[simp] theorem setStage_queued : (p.setStage task stage).queued = p.queued := rfl

@[simp] theorem setStage_closed : (p.setStage task stage).closed = p.closed := rfl

@[simp] theorem setStage_alive : (p.setStage task stage).alive = p.alive := rfl

@[simp] theorem setStage_line : (p.setStage task stage).line = p.line := rfl

@[simp] theorem stages_setStage_size : (p.setStage task stage).stages.size = p.stages.size := by
  simp [setStage]

theorem stages_setStage (h : p.stages[task]? = some old) :
    (p.setStage task new).stages[other]? = if task = other then some new else p.stages[other]? := by
  obtain ⟨hlt, -⟩ := Array.getElem?_eq_some_iff.mp h
  simp [setStage, Array.getElem?_setIfInBounds, hlt]

theorem count_setStage (h : p.stages[task]? = some old) (stage : Stage) :
    (p.setStage task new).stages.count stage + (if old = stage then 1 else 0) =
      p.stages.count stage + if new = stage then 1 else 0 := by
  obtain ⟨hlt, hold⟩ := Array.getElem?_eq_some_iff.mp h
  have hpos : old = stage → 0 < p.stages.count stage := by
    rintro rfl
    exact Array.count_pos_iff.mpr (hold ▸ Array.getElem_mem hlt)
  simp only [setStage, Array.setIfInBounds_def, dif_pos hlt, Array.count_set hlt, hold,
    beq_iff_eq]
  split <;> split <;> simp_all

theorem queuedTasks_setStage_perm (h : p.stages[task]? = some old) (hold : old.isQueued = true)
    (hnew : new.isQueued = false) :
    (task :: (p.setStage task new).queuedTasks).Perm p.queuedTasks := by
  rw [queuedTasks_perm_iff]
  constructor
  · refine List.nodup_cons.mpr ⟨?_, nodup_queuedTasks _⟩
    simp [mem_queuedTasks, stages_setStage h, hnew]
  · intro other
    rw [List.mem_cons, mem_queuedTasks, mem_queuedTasks, stages_setStage h]
    by_cases hother : task = other
    · subst hother
      simp [h, hold]
    · simp [hother, Ne.symm hother]

theorem queuedTasks_setStage_of_same (h : p.stages[task]? = some old)
    (hsame : new.isQueued = old.isQueued) :
    (p.setStage task new).queuedTasks = p.queuedTasks := by
  simp only [queuedTasks, stages_setStage_size]
  apply List.filter_congr
  intro other _
  rw [stages_setStage h]
  by_cases hother : task = other
  · subst hother
    simp [h, hsame]
  · simp [hother]

@[simp] theorem wake_queuedTasks : (p.wake inside tasks).queuedTasks = p.queuedTasks := by
  cases inside <;> rfl

@[simp] theorem wake_stages : (p.wake inside tasks).stages = p.stages := by
  cases inside <;> rfl

@[simp] theorem wake_queued : (p.wake inside tasks).queued = p.queued := by
  cases inside <;> rfl

@[simp] theorem wake_permits : (p.wake inside tasks).permits = p.permits := by
  cases inside <;> rfl

@[simp] theorem wake_limit : (p.wake inside tasks).limit = p.limit := by
  cases inside <;> rfl

@[simp] theorem wake_line : (p.wake inside tasks).line = p.line := by
  cases inside <;> rfl

@[simp] theorem wake_closed : (p.wake inside tasks).closed = p.closed := by
  cases inside <;> rfl

@[simp] theorem wake_alive : (p.wake inside tasks).alive = p.alive := by
  cases inside <;> rfl

theorem wake_futures_perm : (p.wake inside tasks).futures.Perm (tasks ++ p.futures) := by
  rw [List.perm_iff_count]
  intro task
  cases inside <;> simp [wake, futures] <;> omega

/-- What holds of a pool of so many permits while the futures of some tasks are in hand. -/
structure Consistent (max : Nat) (held : List Nat) (p : Pool) : Prop where
  futures_perm : (held ++ p.futures).Perm p.queuedTasks
  queued_eq : p.queued = p.queuedTasks.length
  queued_le : p.queued ≤ p.limit
  permits_eq : p.permits + p.stages.count .granted + p.stages.count .running = max
  line_waiting : ∀ task ∈ p.line, p.stages[task]? = some .waiting
  waiting_line : p.closed = false → ∀ task, p.stages[task]? = some .waiting → task ∈ p.line
  line_stuck : p.line ≠ [] → p.permits = 0 ∧ p.closed = false
  dead : p.alive = false → p.queuedTasks = []

namespace Consistent

theorem ofLimits {permits limit : Nat} {p : Pool} (h : ofLimits? permits limit = some p) :
    p.Consistent permits [] := by
  obtain ⟨-, rfl⟩ : permits ≤ maxPermits ∧ ({ permits, limit } : Pool) = p := by
    simpa [ofLimits?] using h
  constructor <;> simp [futures, queuedTasks]

theorem not_mem_of_held (h : p.Consistent max (task :: held)) : task ∉ held ++ p.futures :=
  (List.nodup_cons.mp (queuedTasks_perm_iff.mp h.futures_perm).1).1

theorem isQueued_of_held (h : p.Consistent max (task :: held)) :
    ∃ stage, p.stages[task]? = some stage ∧ stage.isQueued = true :=
  mem_queuedTasks.mp (h.futures_perm.mem_iff.mp List.mem_cons_self)

end Consistent

/-! ### Submission -/

theorem submit_stages : (p.submit inside).1.stages = p.stages.push (p.submit inside).2.stage := by
  unfold submit
  split_ifs <;> simp [Admission.stage]

theorem submit_alive : (p.submit inside).1.alive = p.alive := by
  unfold submit
  split_ifs <;> simp

namespace Consistent

theorem record (h : p.Consistent max held) (hstage : stage = .refused ∨ stage = .dropped) :
    ({ p with stages := p.stages.push stage } : Pool).Consistent max held := by
  have hqueued : stage.isQueued = false := by
    rcases hstage with rfl | rfl <;> rfl
  have htasks : ({ p with stages := p.stages.push stage } : Pool).queuedTasks = p.queuedTasks := by
    rw [@queuedTasks_push p stage _ rfl, hqueued]
    simp
  constructor
  case futures_perm => exact htasks ▸ h.futures_perm
  case queued_eq => exact htasks ▸ h.queued_eq
  case queued_le => exact h.queued_le
  case permits_eq =>
    rw [← h.permits_eq]
    rcases hstage with rfl | rfl <;> simp
  case line_waiting =>
    intro task htask
    have hwaiting := h.line_waiting task htask
    obtain ⟨hlt, -⟩ := Array.getElem?_eq_some_iff.mp hwaiting
    simpa [Array.getElem?_push, Nat.ne_of_lt hlt] using hwaiting
  case waiting_line =>
    intro hopen task htask
    apply h.waiting_line hopen task
    rw [Array.getElem?_push] at htask
    split at htask
    · rcases hstage with rfl | rfl <;> simp at htask
    · exact htask
  case line_stuck => exact h.line_stuck
  case dead => exact fun hdead => htasks ▸ h.dead hdead

theorem spawn (h : p.Consistent max held) (hlimit : p.queued < p.limit) (halive : p.alive = true) :
    (({ p with
        stages := p.stages.push .spawned
        queued := p.queued + 1 } : Pool).wake inside [p.stages.size]).Consistent max held := by
  have htasks : ({ p with
      stages := p.stages.push .spawned
      queued := p.queued + 1 } : Pool).queuedTasks = p.queuedTasks ++ [p.stages.size] :=
    @queuedTasks_push p .spawned _ rfl
  constructor
  case futures_perm =>
    rw [wake_queuedTasks, htasks]
    refine (List.Perm.append_left _ wake_futures_perm).trans ?_
    refine List.perm_middle.trans ?_
    exact (List.Perm.cons _ h.futures_perm).trans (List.perm_append_singleton _ _).symm
  case queued_eq =>
    rw [wake_queuedTasks, htasks, wake_queued, List.length_append, ← h.queued_eq]
    rfl
  case queued_le => simpa using Nat.succ_le_of_lt hlimit
  case permits_eq => simp [← h.permits_eq]
  case line_waiting =>
    intro task htask
    have hwaiting := h.line_waiting task (by simpa using htask)
    obtain ⟨hlt, -⟩ := Array.getElem?_eq_some_iff.mp hwaiting
    simpa [Array.getElem?_push, Nat.ne_of_lt hlt] using hwaiting
  case waiting_line =>
    intro hopen task htask
    rw [wake_stages, Array.getElem?_push] at htask
    split at htask
    · simp at htask
    · simpa using h.waiting_line (by simpa using hopen) task htask
  case line_stuck => simpa using h.line_stuck
  case dead => simp [halive]

theorem submit (h : p.Consistent max held) : (p.submit inside).1.Consistent max held := by
  unfold Pool.submit
  split_ifs with hclosed hlimit halive
  · exact h.record (.inl rfl)
  · exact h.record (.inl rfl)
  · exact h.spawn (by omega) halive
  · exact h.record (.inr rfl)

end Consistent

/-! ### Turns and polls -/

theorem turn_cases (p : Pool) :
    (p.inner = [] ∧ p.outer = [] ∧ p.turn = ({ p with turns := p.turns + 1 }, none)) ∨
      ∃ task inner outer, (task :: (inner ++ outer)).Perm (p.inner ++ p.outer) ∧
        p.turn = ({ p with turns := p.turns + 1, inner, outer }, some task) := by
  rcases hinner : p.inner with _ | ⟨first, inner⟩ <;> rcases houter : p.outer with _ | ⟨next, outer⟩
  · exact .inl ⟨rfl, rfl, by simp [turn, hinner, houter]⟩
  · exact .inr ⟨next, [], outer, .rfl, by simp [turn, hinner, houter]⟩
  · exact .inr ⟨first, inner, [], .rfl, by simp [turn, hinner, houter]⟩
  · right
    by_cases hturn : (p.turns + 1) % outerInterval = 0
    · refine ⟨next, first :: inner, outer, List.perm_middle.symm, ?_⟩
      simp [turn, hinner, houter, hturn]
    · refine ⟨first, inner, next :: outer, .rfl, ?_⟩
      simp [turn, hinner, houter, hturn]

/-- What polling the future of a task in hand can do. -/
inductive Polled (p : Pool) (task : Nat) : Pool × Poll → Prop where
  | starts (hstage : p.stages[task]? = some .spawned) (hopen : p.closed = false)
      (hpermits : 0 < p.permits) :
      Polled p task ({ p.setStage task .running with
        queued := p.queued - 1
        permits := p.permits - 1 }, .starts)
  | resumes (hstage : p.stages[task]? = some .granted) (hopen : p.closed = false) :
      Polled p task ({ p.setStage task .running with queued := p.queued - 1 }, .starts)
  | waits (hstage : p.stages[task]? = some .spawned) (hopen : p.closed = false)
      (hpermits : p.permits = 0) :
      Polled p task ({ p.setStage task .waiting with line := p.line ++ [task] }, .waits)
  | gaveUp {before : Stage} (hstage : p.stages[task]? = some before)
      (hqueued : before.isQueued = true) (hclosed : p.closed = true) :
      Polled p task ({ p.setStage task .dropped with
        queued := p.queued - 1
        permits := p.permits + if before = .granted then 1 else 0 }, .gaveUp)

theorem Consistent.polled (h : p.Consistent max (task :: held)) : p.Polled task (p.poll task) := by
  obtain ⟨stage, hstage, hqueued⟩ := h.isQueued_of_held
  by_cases hclosed : p.closed = true
  · have hpoll : p.poll task = ({ p.setStage task .dropped with
        queued := p.queued - 1
        permits := p.permits + if stage = .granted then 1 else 0 }, .gaveUp) := by
      cases stage <;> simp [Stage.isQueued] at hqueued <;> simp [poll, hstage, hclosed, setStage]
    exact hpoll ▸ .gaveUp hstage hqueued hclosed
  · rw [Bool.not_eq_true] at hclosed
    rw [poll, hstage]
    cases stage <;> simp [Stage.isQueued] at hqueued
    case spawned =>
      by_cases hpermits : 0 < p.permits
      · simpa [hclosed, hpermits] using Polled.starts hstage hclosed hpermits
      · simpa [hclosed, hpermits] using Polled.waits hstage hclosed (by omega)
    case waiting =>
      -- An open pool polls no future that stands in line.
      have := h.waiting_line hclosed task hstage
      exact absurd (List.mem_append_right _ (List.mem_append_right _ this)) h.not_mem_of_held
    case granted => simpa [hclosed] using Polled.resumes hstage hclosed

namespace Consistent

theorem line_eq_nil_of_permits (h : p.Consistent max held) (hpermits : 0 < p.permits) :
    p.line = [] := by
  by_contra hline
  have := (h.line_stuck hline).1
  omega

theorem line_eq_nil_of_closed (h : p.Consistent max held) (hclosed : p.closed = true) :
    p.line = [] := by
  by_contra hline
  simp [(h.line_stuck hline).2] at hclosed

theorem leave {free : Nat} (h : p.Consistent max (task :: held))
    (hstage : p.stages[task]? = some old) (hold : old.isQueued = true)
    (hnew : new.isQueued = false)
    (hpermits : free + (p.setStage task new).stages.count .granted +
      (p.setStage task new).stages.count .running = max)
    (hline : p.line ≠ [] → free = 0) :
    ({ p.setStage task new with
        queued := p.queued - 1
        permits := free } : Pool).Consistent max held := by
  have htasks := queuedTasks_setStage_perm hstage hold hnew
  have hheld := h.not_mem_of_held
  constructor
  case futures_perm => exact (h.futures_perm.trans htasks.symm).cons_inv
  case queued_eq =>
    have hlength := htasks.length_eq
    rw [List.length_cons, ← h.queued_eq] at hlength
    exact Nat.sub_eq_of_eq_add hlength.symm
  case queued_le => exact Nat.le_trans (Nat.sub_le _ _) h.queued_le
  case permits_eq => exact hpermits
  case line_waiting =>
    intro other hother
    have hne : task ≠ other := by
      rintro rfl
      exact hheld (List.mem_append_right _ (List.mem_append_right _ hother))
    simpa [stages_setStage hstage, hne] using h.line_waiting other hother
  case waiting_line =>
    intro hopen other hother
    rw [stages_setStage hstage] at hother
    split at hother
    · obtain rfl : new = .waiting := by simpa using hother
      simp [Stage.isQueued] at hnew
    · exact h.waiting_line hopen other hother
  case line_stuck => exact fun hne => ⟨hline hne, (h.line_stuck hne).2⟩
  case dead =>
    intro hdead
    have hnil := h.dead hdead
    rw [hnil] at htasks
    simpa using htasks.length_eq

theorem enqueue (h : p.Consistent max (task :: held)) (hstage : p.stages[task]? = some .spawned)
    (hopen : p.closed = false) (hpermits : p.permits = 0) :
    ({ p.setStage task .waiting with line := p.line ++ [task] } : Pool).Consistent max held := by
  have htasks : (p.setStage task .waiting).queuedTasks = p.queuedTasks :=
    queuedTasks_setStage_of_same hstage rfl
  have hcount := @count_setStage p task .spawned .waiting hstage
  constructor
  case futures_perm =>
    refine List.Perm.trans ?_ (h.futures_perm.trans (List.Perm.of_eq htasks.symm))
    rw [List.perm_iff_count]
    intro other
    simp [futures, setStage, List.count_cons]
    omega
  case queued_eq => exact htasks ▸ h.queued_eq
  case queued_le => exact h.queued_le
  case permits_eq =>
    have hgranted := hcount .granted
    have hrunning := hcount .running
    have := h.permits_eq
    simp only [reduceCtorEq, if_false, Nat.add_zero] at hgranted hrunning
    change p.permits + (p.setStage task .waiting).stages.count .granted +
      (p.setStage task .waiting).stages.count .running = max
    rw [hgranted, hrunning, this]
  case line_waiting =>
    intro other hother
    rw [stages_setStage hstage]
    by_cases hne : task = other
    · simp [hne]
    · have : other ∈ p.line := by simpa [setStage, Ne.symm hne] using hother
      simpa [hne] using h.line_waiting other this
  case waiting_line =>
    intro _ other hother
    rw [stages_setStage hstage] at hother
    split at hother
    · simp [*]
    · exact List.mem_append_left _ (h.waiting_line hopen other hother)
  case line_stuck => exact fun _ => ⟨hpermits, hopen⟩
  case dead => exact fun hdead => htasks.trans (h.dead hdead)

theorem poll (h : p.Consistent max (task :: held)) : (p.poll task).1.Consistent max held := by
  have hpermits := h.permits_eq
  generalize hresult : p.poll task = result
  have hpolled := h.polled
  rw [hresult] at hpolled
  rcases hpolled with ⟨hstage, hopen, hfree⟩ | ⟨hstage, hopen⟩ | ⟨hstage, hopen, hfree⟩ |
    @⟨before, hstage, hqueued, hclosed⟩
  · have hcount := @count_setStage p task .spawned .running hstage
    have hgranted := hcount .granted
    have hrunning := hcount .running
    refine h.leave hstage rfl rfl ?_ fun hline => absurd (h.line_eq_nil_of_permits hfree) hline
    simp at hgranted hrunning
    omega
  · have hcount := @count_setStage p task .granted .running hstage
    have hgranted := hcount .granted
    have hrunning := hcount .running
    refine h.leave hstage rfl rfl ?_ fun hline => (h.line_stuck hline).1
    simp at hgranted hrunning ⊢
    omega
  · exact h.enqueue hstage hopen hfree
  · have hcount := @count_setStage p task before .dropped hstage
    have hgranted := hcount .granted
    have hrunning := hcount .running
    refine h.leave hstage hqueued rfl ?_ fun hline => absurd (h.line_eq_nil_of_closed hclosed) hline
    have : before ≠ .running := by
      rintro rfl
      simp [Stage.isQueued] at hqueued
    by_cases hset : before = .granted
    · simp [hset] at hgranted hrunning ⊢
      omega
    · simp [hset, this] at hgranted hrunning ⊢
      omega

theorem turn (h : p.Consistent max []) : p.turn.1.Consistent max p.turn.2.toList := by
  obtain ⟨-, -, hturn⟩ | ⟨task, inner, outer, hperm, hturn⟩ := p.turn_cases <;> rw [hturn]
  · exact ⟨h.futures_perm, h.queued_eq, h.queued_le, h.permits_eq, h.line_waiting, h.waiting_line,
      h.line_stuck, h.dead⟩
  · refine ⟨?_, h.queued_eq, h.queued_le, h.permits_eq, h.line_waiting, h.waiting_line,
      h.line_stuck, h.dead⟩
    exact (hperm.append_right p.line).trans h.futures_perm

theorem size_poll (h : p.Consistent max (task :: held)) :
    (p.poll task).1.stages.size = p.stages.size := by
  have hpolled := h.polled
  generalize p.poll task = result at hpolled
  cases hpolled <;> exact stages_setStage_size

theorem mem_queuedTasks_of_poll (h : p.Consistent max (task :: held)) (queued : other ∈ p.queuedTasks) :
    other ∈ (p.poll task).1.queuedTasks ∨ (other = task ∧ (p.poll task).2 ≠ .waits) := by
  have hpolled := h.polled
  generalize p.poll task = result at hpolled
  have hleave {old new : Stage} (hstage : p.stages[task]? = some old) (hold : old.isQueued = true)
      (hnew : new.isQueued = false) : other ∈ (p.setStage task new).queuedTasks ∨ other = task :=
    (List.mem_cons.mp ((queuedTasks_setStage_perm hstage hold hnew).mem_iff.mpr queued)).symm
  cases hpolled with
  | starts hstage | resumes hstage =>
      have hrunning : other ∈ (p.setStage task .running).queuedTasks ∨ other = task :=
        hleave hstage rfl rfl
      exact hrunning.imp_right fun heq => ⟨heq, by simp⟩
  | waits hstage =>
      have hsame : (p.setStage task .waiting).queuedTasks = p.queuedTasks :=
        queuedTasks_setStage_of_same hstage rfl
      exact .inl (hsame.symm ▸ queued)
  | gaveUp hstage hqueued =>
      have hdropped : other ∈ (p.setStage task .dropped).queuedTasks ∨ other = task :=
        hleave hstage hqueued rfl
      exact hdropped.imp_right fun heq => ⟨heq, by simp⟩

end Consistent

/-! ### The end of a task, closing, the end of the runtime -/

theorem finish_cases (hstage : p.stages[task]? = some .running) :
    (∃ first line, p.line = first :: line ∧
        p.finish task = (({ p.setStage task .finished with line } : Pool).setStage first
          .granted).wake true [first]) ∨
      p.line = [] ∧ p.finish task = { p.setStage task .finished with permits := p.permits + 1 } := by
  rcases hline : p.line with _ | ⟨first, line⟩
  · exact .inr ⟨rfl, by simp [finish, hstage, hline, setStage]⟩
  · exact .inl ⟨first, line, rfl, by simp [finish, hstage, hline, setStage]⟩

theorem finish_size (hstage : p.stages[task]? = some .running) :
    (p.finish task).stages.size = p.stages.size := by
  obtain ⟨first, line, -, hfinish⟩ | ⟨-, hfinish⟩ := p.finish_cases hstage <;> simp [hfinish]

theorem Consistent.finish_stage (h : p.Consistent max held)
    (hstage : p.stages[task]? = some .running) (other : Nat) :
    (other = task ∧ (p.finish task).stages[other]? = some .finished) ∨
      (other ≠ task ∧ p.stages[other]? = some .waiting ∧
        (p.finish task).stages[other]? = some .granted) ∨
      other ≠ task ∧ (p.finish task).stages[other]? = p.stages[other]? := by
  have hown := @stages_setStage p task task .running .finished hstage
  have hothers := @stages_setStage p task other .running .finished hstage
  obtain ⟨first, line, hline, hfinish⟩ | ⟨-, hfinish⟩ := p.finish_cases hstage
  · have hfirst := h.line_waiting first (hline ▸ List.mem_cons_self)
    have hne : task ≠ first := by
      rintro rfl
      simp [hstage] at hfirst
    have hmiddle : ({ p.setStage task .finished with line } : Pool).stages[first]? =
        some .waiting := by
      simpa [stages_setStage hstage, hne] using hfirst
    rw [hfinish, wake_stages, stages_setStage hmiddle]
    by_cases hother : first = other
    · subst hother
      exact .inr (.inl ⟨Ne.symm hne, hfirst, by simp⟩)
    · rw [if_neg hother]
      by_cases htask : task = other
      · subst htask
        exact .inl ⟨rfl, by simpa using hown⟩
      · exact .inr (.inr ⟨Ne.symm htask, by simpa [htask] using hothers⟩)
  · rw [hfinish]
    by_cases htask : task = other
    · subst htask
      exact .inl ⟨rfl, by simpa using hown⟩
    · exact .inr (.inr ⟨Ne.symm htask, by simpa [htask] using hothers⟩)

theorem Consistent.mem_queuedTasks_finish (h : p.Consistent max held)
    (hstage : p.stages[task]? = some .running) :
    other ∈ (p.finish task).queuedTasks ↔ other ∈ p.queuedTasks := by
  simp only [mem_queuedTasks]
  rcases h.finish_stage hstage other with ⟨rfl, hafter⟩ | ⟨-, hbefore, hafter⟩ | ⟨-, hsame⟩
  · simp [hafter, hstage, Stage.isQueued]
  · simp [hafter, hbefore, Stage.isQueued]
  · rw [hsame]

theorem shutdown_stages : (p.shutdown inside).stages = p.stages := by
  simp [shutdown]

theorem shutdown_queuedTasks : (p.shutdown inside).queuedTasks = p.queuedTasks :=
  wake_queuedTasks

namespace Consistent

/-- The permit of a task that ends goes to the first in line, or is free. -/
theorem finish (h : p.Consistent max held) (hstage : p.stages[task]? = some .running) :
    (p.finish task).Consistent max held := by
  have hcount := @count_setStage p task .running .finished hstage
  have hsame : (p.setStage task .finished).queuedTasks = p.queuedTasks :=
    queuedTasks_setStage_of_same hstage rfl
  have hpermits := h.permits_eq
  have hwaiting (other : Nat) : (p.setStage task .finished).stages[other]? = some .waiting ↔
      p.stages[other]? = some .waiting := by
    rw [stages_setStage hstage]
    split
    · subst task
      simp [hstage]
    · rfl
  obtain ⟨first, line, hline, hfinish⟩ | ⟨hline, hfinish⟩ := p.finish_cases hstage <;> rw [hfinish]
  · have hfirst : ({ p.setStage task .finished with line } : Pool).stages[first]? =
        some .waiting :=
      (hwaiting first).mpr (h.line_waiting first (hline ▸ List.mem_cons_self))
    have htasks := (queuedTasks_setStage_of_same hfirst (@rfl _ Stage.granted.isQueued)).trans hsame
    have hgranted := @count_setStage _ first .waiting .granted hfirst
    have hnotin : first ∉ line := by
      have hnodup := (queuedTasks_perm_iff.mp h.futures_perm).1
      rw [futures, hline] at hnodup
      exact (List.nodup_cons.mp ((hnodup.sublist (List.sublist_append_right _ _)).sublist
        (List.sublist_append_right _ _))).1
    constructor
    case futures_perm =>
      rw [wake_queuedTasks, htasks]
      refine List.Perm.trans ?_ h.futures_perm
      refine List.Perm.append_left _ (wake_futures_perm.trans ?_)
      rw [List.perm_iff_count]
      intro other
      simp [futures, setStage, hline, List.count_cons]
      omega
    case queued_eq => rw [wake_queuedTasks, htasks, ← h.queued_eq]; simp
    case queued_le => simpa using h.queued_le
    case permits_eq =>
      have hfirstGranted := hgranted .granted
      have hfirstRunning := hgranted .running
      have htaskGranted := hcount .granted
      have htaskRunning := hcount .running
      simp at hfirstGranted hfirstRunning htaskGranted htaskRunning ⊢
      omega
    case line_waiting =>
      intro other hother
      have hmem : other ∈ line := by simpa using hother
      have hne : first ≠ other := fun heq => hnotin (heq ▸ hmem)
      rw [wake_stages, stages_setStage hfirst, if_neg hne]
      exact (hwaiting other).mpr (h.line_waiting other (hline ▸ List.mem_cons_of_mem _ hmem))
    case waiting_line =>
      intro hopen other hother
      rw [wake_stages, stages_setStage hfirst] at hother
      split at hother
      · simp at hother
      · rename_i hne
        have hmem := h.waiting_line (by simpa using hopen) other ((hwaiting other).mp hother)
        rw [hline] at hmem
        simpa using (List.mem_cons.mp hmem).resolve_left (Ne.symm hne)
    case line_stuck =>
      intro _
      simpa using h.line_stuck (by simp [hline])
    case dead =>
      exact fun hdead => (wake_queuedTasks.trans htasks).trans (h.dead (by simpa using hdead))
  · constructor
    case futures_perm => exact h.futures_perm.trans (List.Perm.of_eq hsame.symm)
    case queued_eq => exact hsame ▸ h.queued_eq
    case queued_le => exact h.queued_le
    case permits_eq =>
      have htaskGranted := hcount .granted
      have htaskRunning := hcount .running
      simp at htaskGranted htaskRunning ⊢
      omega
    case line_waiting => exact fun other hother => (hwaiting other).mpr (h.line_waiting other hother)
    case waiting_line =>
      exact fun hopen other hother => h.waiting_line hopen other ((hwaiting other).mp hother)
    case line_stuck => exact fun hne => absurd hline hne
    case dead => exact fun hdead => hsame.trans (h.dead hdead)

theorem shutdown (h : p.Consistent max held) : (p.shutdown inside).Consistent max held := by
  constructor
  case futures_perm =>
    refine List.Perm.trans (List.Perm.append_left _ wake_futures_perm) ?_
    rw [shutdown_queuedTasks]
    refine List.Perm.trans (List.Perm.append_left _ ?_) h.futures_perm
    simpa only [futures, List.append_nil] using List.perm_append_comm
  case queued_eq => rw [shutdown_queuedTasks, ← h.queued_eq]; simp [Pool.shutdown]
  case queued_le => simpa [Pool.shutdown] using h.queued_le
  case permits_eq => simpa [Pool.shutdown] using h.permits_eq
  case line_waiting => simp [Pool.shutdown]
  case waiting_line => simp [Pool.shutdown]
  case line_stuck => simp [Pool.shutdown]
  case dead =>
    intro hdead
    exact shutdown_queuedTasks.trans (h.dead (by simpa [Pool.shutdown] using hdead))

end Consistent

theorem turn_alive : p.turn.1.alive = p.alive := by
  obtain ⟨-, -, hturn⟩ | ⟨_, _, _, -, hturn⟩ := p.turn_cases <;> rw [hturn]

theorem poll_alive : (p.poll task).1.alive = p.alive := by
  unfold poll
  dsimp only
  split
  · split_ifs <;> rfl
  · split_ifs <;> rfl
  · split_ifs <;> rfl
  · rfl

theorem finish_alive : (p.finish task).alive = p.alive := by
  unfold finish
  dsimp only
  split_ifs
  · split <;> simp
  · rfl

theorem shutdown_alive : (p.shutdown inside).alive = p.alive := by
  simp [shutdown]

theorem dropRuntime_queuedTasks : p.dropRuntime.1.queuedTasks = [] := by
  rw [List.eq_nil_iff_forall_not_mem]
  intro task htask
  obtain ⟨stage, hstage, hqueued⟩ := mem_queuedTasks.mp htask
  simp only [dropRuntime, Array.getElem?_map, Option.map_eq_some_iff] at hstage
  obtain ⟨before, -, rfl⟩ := hstage
  split at hqueued
  · simp [Stage.isQueued] at hqueued
  · contradiction

theorem Consistent.dropRuntime (h : p.Consistent max []) : p.dropRuntime.1.Consistent max [] := by
  have hstages (task : Nat) : p.dropRuntime.1.stages[task]? ≠ some .waiting := by
    intro hwaiting
    have := mem_queuedTasks.mpr ⟨_, hwaiting, rfl⟩
    simp [dropRuntime_queuedTasks] at this
  constructor
  case futures_perm =>
    rw [dropRuntime_queuedTasks]
    rfl
  case queued_eq =>
    rw [dropRuntime_queuedTasks]
    simp [Pool.dropRuntime, h.queued_eq]
  case queued_le => exact Nat.le_trans (Nat.sub_le _ _) h.queued_le
  case permits_eq =>
    rw [← h.permits_eq]
    simp only [Pool.dropRuntime, Array.count_eq_countP, Array.countP_map]
    have hgranted : p.stages.countP ((· == Stage.granted) ∘
        fun s => if s.isQueued then .dropped else s) = 0 := by
      rw [Array.countP_eq_zero]
      intro stage _
      cases stage <;> simp [Stage.isQueued]
    have hrunning : p.stages.countP ((· == Stage.running) ∘
        fun s => if s.isQueued then .dropped else s) = p.stages.countP (· == .running) := by
      congr 1
      funext stage
      cases stage <;> rfl
    rw [hgranted, hrunning]
    rfl
  case line_waiting => simp [Pool.dropRuntime]
  case waiting_line => exact fun _ task htask => absurd htask (hstages task)
  case line_stuck => simp [Pool.dropRuntime]
  case dead => exact fun _ => dropRuntime_queuedTasks

/-- With a permit to give, a pool in which no future is ready has nothing queued. -/
theorem Consistent.queuedTasks_eq_nil (h : p.Consistent max []) (hmax : 0 < max)
    (hrunning : p.stages.count .running = 0) (hinner : p.inner = []) (houter : p.outer = []) :
    p.queuedTasks = [] := by
  have hperm : p.line.Perm p.queuedTasks := by
    simpa [futures, hinner, houter] using h.futures_perm
  have hgranted : p.stages.count .granted = 0 := by
    rw [Array.count_eq_zero]
    intro hmem
    obtain ⟨task, hlt, hstage⟩ := Array.mem_iff_getElem.mp hmem
    have hgranted : p.stages[task]? = some .granted := Array.getElem?_eq_some_iff.mpr ⟨hlt, hstage⟩
    have := h.line_waiting task (hperm.mem_iff.mpr (mem_queuedTasks.mpr ⟨_, hgranted, rfl⟩))
    simp [hgranted] at this
  have hpermits := h.permits_eq
  rw [hgranted, hrunning] at hpermits
  have hline := h.line_eq_nil_of_permits (by omega)
  rw [hline] at hperm
  exact hperm.nil_eq.symm

end Pool
end Prefilter
