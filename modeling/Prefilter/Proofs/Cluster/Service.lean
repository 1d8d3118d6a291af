import Mathlib.Algebra.BigOperators.Group.Finset.Basic
import Prefilter.Proofs.Cluster.Search

/-!
How many probes the nodes of a simulated cluster serve for a search. A shard whose data is broken is
asked for at every copy, and any other shard until a node that is up has answered; along the way, what
has been served of a shard and what its remaining copies are still to serve add up to the same.
-/

namespace Prefilter
namespace Cluster

open Coordinator

variable {settings : Settings} {c : Cluster} {contents : ShardId → ShardData} {q : RangeQuery}
  {sort : Option SortSpec} {x : Course} {target : ShardTarget} {node : NodeId} {latency i j n : Nat}

/-- The copies of a shard on nodes that are up, in the order in which they were placed. -/
def liveCopies (c : Cluster) (target : ShardTarget) : List NodeId :=
  target.copies.filter (· ∉ c.down)

/-- How many probes of a shard are served in a search. -/
def servings (c : Cluster) (contents : ShardId → ShardData) (target : ShardTarget) : Nat :=
  if contents target.shard = .broken then (c.liveCopies target).length
  else if c.liveCopies target = [] then 0
  else 1

/-- The nodes that serve a probe of a shard when its copies are asked one after the other from some
copy on. -/
def serversFrom (c : Cluster) (contents : ShardId → ShardData) (target : ShardTarget) (j : Nat) :
    List NodeId :=
  let live := (target.copies.drop j).filter (· ∉ c.down)
  if contents target.shard = .broken then live else live.head?.toList

theorem serversFrom_zero : c.serversFrom contents target 0 =
    if contents target.shard = .broken then c.liveCopies target
    else (c.liveCopies target).head?.toList :=
  rfl

theorem length_serversFrom_zero :
    (c.serversFrom contents target 0).length = c.servings contents target := by
  rw [serversFrom_zero, servings]
  split
  · rfl
  · cases c.liveCopies target with
    | nil => rfl
    | cons node others => simp

theorem serversFrom_of_le (h : target.copies.length ≤ j) : c.serversFrom contents target j = [] := by
  simp [serversFrom, List.drop_eq_nil_of_le h]

theorem serversFrom_of_down (copy : target.copies[j]? = some node) (down : node ∈ c.down) :
    c.serversFrom contents target j = c.serversFrom contents target (j + 1) := by
  obtain ⟨hj, rfl⟩ := List.getElem?_eq_some_iff.mp copy
  rw [serversFrom, List.drop_eq_getElem_cons hj, List.filter_cons_of_neg (by simpa using down),
    serversFrom]

theorem serversFrom_of_up (copy : target.copies[j]? = some node) (up : node ∉ c.down) :
    c.serversFrom contents target j = node ::
      if contents target.shard = .broken then c.serversFrom contents target (j + 1) else [] := by
  obtain ⟨hj, rfl⟩ := List.getElem?_eq_some_iff.mp copy
  rw [serversFrom, List.drop_eq_getElem_cons hj, List.filter_cons_of_pos (by simpa using up),
    serversFrom]
  split <;> rfl

/-- The nodes that are still to serve a probe of a shard. -/
def owed (c : Cluster) (contents : ShardId → ShardData) (target : ShardTarget) : Cursor → List NodeId
  | .copy j => c.serversFrom contents target j
  | .done => []

/-- A copy whose node is up serves one probe, and what is then owed is owed by the copies after it. -/
theorem Consistent.owed_eq (h : Consistent c contents) (listed : x.targets[i]? = some target)
    (mem : target ∈ c.allTargets) (intime : x.late = false) (copy : target.copies[j]? = some node) :
    c.owed contents target (.copy j) = (if node ∈ c.down then [] else [node]) ++
      c.owed contents target ((c.surroundings contents q sort x).after target i j) := by
  have hanswer := @Consistent.answer?_eq c contents q sort x target i h listed mem j
  rw [if_neg (by simp [intime]), copy, Option.bind_some, copyResponse?] at hanswer
  -- Without a response, the shard moves on, or is done because there is no copy after this one.
  have hsilent (hnone : (c.surroundings contents q sort x).answer? target i j = none) :
      c.owed contents target ((c.surroundings contents q sort x).after target i j) =
        c.serversFrom contents target (j + 1) := by
    rw [Environment.after, hnone]
    split_ifs with hmore
    · rfl
    · exact (serversFrom_of_le (by simpa using hmore)).symm
  by_cases hdown : node ∈ c.down
  · rw [if_pos hdown] at hanswer
    rw [hsilent hanswer, if_pos hdown]
    exact serversFrom_of_down copy hdown
  · rw [if_neg hdown] at hanswer
    rw [if_neg hdown, owed, serversFrom_of_up copy hdown]
    by_cases hbroken : contents target.shard = .broken
    · rw [ShardData.response?_eq_none_iff.mpr hbroken] at hanswer
      rw [hsilent hanswer, if_pos hbroken]
      rfl
    · have hdone : (c.surroundings contents q sort x).after target i j = .done := by
        refine if_neg fun hnone => hbroken ?_
        rw [hanswer, Option.isNone_iff_eq_none, ShardData.response?_eq_none_iff] at hnone
        exact hnone.1
      rw [hdone, if_neg hbroken]
      rfl

theorem answer_backend (c : Cluster) (latency : Nat) (served : Array Serving) (connection : Connection)
    (request : ProbeRequest) :
    ((c.backend latency).answer served connection request).1.toList =
      served.toList ++ (c.probe connection request).2.toList := by
  simp only [backend]
  cases (c.probe connection request).2 <;> simp

/-- A search over distinct shards for which the pool has room, and whose probes are all in time. -/
structure Unhindered (c : Cluster) (q : RangeQuery) (sort : Option SortSpec) (latency : Nat)
    (x : Course) : Prop where
  request : x.request = searchRequest q sort
  delay : x.delay = latency
  permits : 0 < x.permits
  subset : x.targets ⊆ c.allTargets
  nodup : (x.targets.map (·.shard)).Nodup
  room : x.targets.length ≤ x.room
  intime : x.late = false
  fits : ∀ target ∈ x.targets, ∀ node ∈ target.copies,
    (Wire.Codec.probeMessage.encode (.request (x.probeRequest target node))).length ≤
      Wire.Frame.maxPayload

theorem Unhindered.steady (u : Unhindered c q sort latency x) (h : Consistent c contents) :
    (c.backend latency).Steady x (c.surroundings contents q sort x) :=
  h.steady u.request u.delay u.subset u.fits

/-- The nodes that have served a probe of a shard. -/
def serversOf (served : List Serving) (shard : ShardId) : List NodeId :=
  (served.filter (·.shard = shard)).map (·.node)

theorem serversOf_append (served more : List Serving) (shard : ShardId) :
    serversOf (served ++ more) shard = serversOf served shard ++ serversOf more shard := by
  rw [serversOf, List.filter_append, List.map_append, serversOf, serversOf]

/-- What a probe of a shard has its node serve. -/
def servedAt (c : Cluster) (target : ShardTarget) (node : NodeId) : List Serving :=
  if node ∈ c.down then [] else [⟨node, target.shard⟩]

theorem shard_of_mem_servedAt {serving : Serving} (h : serving ∈ c.servedAt target node) :
    serving.shard = target.shard := by
  rw [servedAt] at h
  split at h
  · cases h
  · obtain rfl := List.mem_singleton.mp h
    rfl

theorem serversOf_servedAt (c : Cluster) (target : ShardTarget) (node : NodeId) :
    serversOf (c.servedAt target node) target.shard = if node ∈ c.down then [] else [node] := by
  rw [serversOf, servedAt]
  split <;> simp

theorem serversOf_servedAt_of_ne {shard : ShardId} (h : target.shard ≠ shard) :
    serversOf (c.servedAt target node) shard = [] := by
  rw [serversOf, List.filter_eq_nil_iff.mpr, List.map_nil]
  intro serving mem
  simpa [shard_of_mem_servedAt mem] using h

theorem Unhindered.served_land {env : Environment} {s : Client} {f : Flight (Connection × ProbeRequest)}
    (u : Unhindered c q sort latency x) (consistent : Consistent c contents)
    (aloft : Aloft (c.backend latency) x env s.coordinator f i j)
    (listed : x.targets[i]? = some target) (copy : target.copies[j]? = some node) :
    (Client.served ((s.landed f s.runtime.backend).land (c.backend latency) f)).toList =
      s.served.toList ++ c.servedAt target node := by
  obtain ⟨_, _, htarget, hcopy, resolved, load, -⟩ := aloft.bound
  obtain rfl := Option.some.inj (listed.symm.trans htarget)
  obtain rfl := Option.some.inj (copy.symm.trans hcopy)
  have hmem := List.mem_of_getElem? listed
  have hnode := Except.ok.inj
    ((consistent.resolve_copy (u.subset hmem) (List.mem_of_getElem? copy)).symm.trans resolved)
  obtain ⟨result, hprobe, -⟩ := consistent.probe_course u.request (u.subset hmem)
    (List.mem_of_getElem? copy) (u.fits target hmem node (List.mem_of_getElem? copy))
  rw [Client.served, Stack.backend_land, aloft.late_eq, u.intime, ← hnode, load, if_neg nofun,
    answer_backend, hprobe, servedAt]
  split <;> rfl

/-- What the nodes have served in a search up to some time. Of each shard, this and what is then owed
make up all that is served of it. -/
structure Tally (c : Cluster) (contents : ShardId → ShardData) (x : Course) (before : Array Serving)
    (s : Client) (served : List Serving) : Prop where
  added : s.served.toList = before.toList ++ served
  listed : ∀ serving ∈ served, serving.shard ∈ x.targets.map (·.shard)
  account : ∀ i target, x.targets[i]? = some target → ∃ cursor,
    (s.coordinator.slot? x.phase i).map Slot.cursor = some cursor ∧
      serversOf served target.shard ++ c.owed contents target cursor = c.serversFrom contents target 0

namespace Tally

variable {env : Environment} {b : Backend (Array Serving)} {before : Array Serving} {s s' : Client}
  {served : List Serving} {f : Flight (Connection × ProbeRequest)}

theorem start (h : Underway b x env 0 s) (room : x.targets.length ≤ x.room) :
    Tally c contents x s.served s [] where
  added := (List.append_nil _).symm
  listed := nofun
  account i target listed := by
    have hi := (List.getElem?_eq_some_iff.mp listed).1
    obtain ⟨-, hslot⟩ := h.waiting i hi (Nat.zero_le i) (Nat.lt_of_lt_of_le hi room)
    exact ⟨.copy 0, by rw [hslot, Option.map_some], rfl⟩

theorem congr (h : Tally c contents x before s served) (same : s'.served = s.served)
    (slots : ∀ i, s'.coordinator.slot? x.phase i = s.coordinator.slot? x.phase i) :
    Tally c contents x before s' served where
  added := by rw [same, h.added]
  listed := h.listed
  account i target listed := by
    rw [slots i]
    exact h.account i target listed

/-- A probe lands: its node serves it if it is up, and the shard is owed so much less. -/
theorem land (h : Tally c contents x before s served) (u : Unhindered c q sort latency x)
    (consistent : Consistent c contents)
    (aloft : Aloft (c.backend latency) x (c.surroundings contents q sort x) s.coordinator f i j)
    (listed : x.targets[i]? = some target)
    (shifts : x.Shifts i ((c.surroundings contents q sort x).after target i j) s.coordinator
      ((s.landed f s.runtime.backend).land (c.backend latency) f).coordinator) :
    ∃ more, Tally c contents x before ((s.landed f s.runtime.backend).land (c.backend latency) f)
      (served ++ more) := by
  obtain ⟨t, node, htarget, copy, -⟩ := aloft.bound
  obtain rfl := Option.some.inj (htarget.symm.trans listed)
  have hmem := List.mem_of_getElem? listed
  refine ⟨c.servedAt t node, ?_, ?_, ?_⟩
  · rw [u.served_land consistent aloft listed copy, h.added, List.append_assoc]
  · intro serving hserving
    rcases List.mem_append.mp hserving with hold | hnew
    · exact h.listed serving hold
    · exact List.mem_map.mpr ⟨t, hmem, (shard_of_mem_servedAt hnew).symm⟩
  · intro l other hother
    obtain ⟨cursor, hcursor, haccount⟩ := h.account l other hother
    by_cases hl : l = i
    · subst hl
      obtain rfl := Option.some.inj (hother.symm.trans listed)
      have hat : cursor = .copy j := by
        rw [aloft.slot] at hcursor
        exact (Option.some.inj hcursor).symm
      refine ⟨_, shifts.shard, ?_⟩
      rw [← haccount, hat, consistent.owed_eq listed (u.subset hmem) u.intime copy, serversOf_append,
        serversOf_servedAt, List.append_assoc]
    · have hapart : t.shard ≠ other.shard := by
        intro heq
        have hlt := (List.getElem?_eq_some_iff.mp hother).1
        refine hl ((List.getElem?_inj (by simpa using hlt) u.nodup).mp ?_)
        rw [List.getElem?_map, List.getElem?_map, hother, listed, Option.map_some, Option.map_some, heq]
      refine ⟨cursor, (congrArg _ (shifts.others l hl)).trans hcursor, ?_⟩
      rw [serversOf_append, serversOf_servedAt_of_ne hapart, List.append_nil, haccount]

theorem way {s₀ : Client} (way : Way (c.backend latency) x s₀ n s)
    (u : Unhindered c q sort latency x) (consistent : Consistent c contents)
    (started : Underway (c.backend latency) x (c.surroundings contents q sort x) 0 s₀) :
    ∃ served, Tally c contents x s₀.served s served := by
  have hsteady := u.steady consistent
  induction way with
  | start => exact ⟨[], .start started u.room⟩
  | poll before listed hroom now ih =>
      obtain ⟨served, tally⟩ := ih
      have hunder := before.underway hsteady u.permits started
      obtain ⟨-, -, -, hslots⟩ := hunder.poll hsteady u.permits listed hroom now
      exact ⟨served, tally.congr (Stack.backend_poll ..) hslots⟩
  | pause before all ih =>
      obtain ⟨served, tally⟩ := ih
      exact ⟨served, tally.congr rfl fun _ => rfl⟩
  | land before mem first ih =>
      obtain ⟨served, tally⟩ := ih
      have hunder := before.underway hsteady u.permits started
      obtain ⟨i, j, -, ha⟩ := hunder.flight _ mem
      obtain ⟨target, -, listed, -⟩ := ha.bound
      have hshifts := (hunder.land_first hsteady mem first ha listed).2
      obtain ⟨more, hmore⟩ := tally.land u consistent ha listed hshifts
      exact ⟨_, hmore⟩

theorem serversOf_eq (h : Tally c contents x before s served) (under : Underway b x env n s)
    (found : (s.result? x.phase).isSome) (mem : target ∈ x.targets) :
    serversOf served target.shard = c.serversFrom contents target 0 := by
  obtain ⟨i, hi⟩ := List.getElem?_of_mem mem
  obtain ⟨cursor, hcursor, haccount⟩ := h.account i target hi
  obtain ⟨_, -, hslot⟩ := under.isSettled found (List.getElem?_eq_some_iff.mp hi).1
  rw [hslot] at hcursor
  obtain rfl := Option.some.inj hcursor
  rwa [owed, List.append_nil] at haccount

theorem length_eq (h : Tally c contents x before s served) (under : Underway b x env n s)
    (found : (s.result? x.phase).isSome) (nodup : (x.targets.map (·.shard)).Nodup) :
    served.length = (x.targets.map (c.servings contents)).sum := by
  have hlisted : ∀ shard ∈ (served.map (·.shard) : Multiset ShardId),
      shard ∈ (x.targets.map (·.shard)).toFinset := by
    simpa using h.listed
  have hcount : ∀ target ∈ x.targets,
      Multiset.count target.shard (served.map (·.shard) : Multiset ShardId) =
        c.servings contents target := by
    intro target mem
    rw [← length_serversFrom_zero, ← h.serversOf_eq under found mem, serversOf, List.length_map,
      ← List.countP_eq_length_filter, Multiset.coe_count, List.count_eq_countP, List.countP_map]
    rfl
  calc
    served.length = ∑ shard ∈ (x.targets.map (·.shard)).toFinset,
        Multiset.count shard (served.map (·.shard) : Multiset ShardId) := by
      rw [Multiset.sum_count_eq_card hlisted, Multiset.coe_card, List.length_map]
    _ = (x.targets.map (c.servings contents)).sum := by
      rw [List.sum_toFinset _ nodup, List.map_map]
      exact congrArg List.sum (List.map_congr_left hcount)

end Tally

theorem liveCopies_ne_nil_iff : c.liveCopies target ≠ [] ↔ ∃ node ∈ target.copies, node ∉ c.down := by
  simp [liveCopies]

theorem Consistent.answered_iff (h : Consistent c contents) (u : Unhindered c q sort latency x)
    (listed : x.targets[i]? = some target) :
    ((c.surroundings contents q sort x).outcome target i).failed = false ↔
      contents target.shard ≠ .broken ∧ c.liveCopies target ≠ [] := by
  have hroom : i < x.room :=
    Nat.lt_of_lt_of_le (List.getElem?_eq_some_iff.mp listed).1 u.room
  rw [h.outcome_eq listed (u.subset (List.mem_of_getElem? listed)), liveCopies_ne_nil_iff, ne_eq,
    ← @ShardData.response?_eq_none_iff (contents target.shard) q sort]
  split
  · rename_i hprobed
    rw [and_iff_left hprobed.2.2]
    cases (contents target.shard).response? q sort <;> simp [Outcome.failure,
      Outcome.success]
  · rename_i hnot
    refine iff_of_false (by decide) fun hanswered => hnot ⟨hroom, u.intime, hanswered.2⟩

variable {client : Client} {targets : List ShardTarget}

theorem search_snd (admitted : startFault? targets (searchRequest q sort) = none) :
    (c.search latency client targets q sort).2 =
      let started := client.start (c.backend latency) targets (searchRequest q sort)
      if (started.result? client.coordinator.phases.size).isSome then started
      else ((started.advance (c.backend latency) 0).drive (c.backend latency)).await
        (c.backend latency) client.coordinator.phases.size searchLimit := by
  rw [search, admitted]
  simp only
  split <;> rfl

theorem Consistent.exists_tally (h : Consistent c contents) (idle : client.Idle settings)
    (valid : settings.fault? = none) (admitted : startFault? targets (searchRequest q sort) = none)
    (u : Unhindered c q sort latency (searchCourse settings latency client targets q sort))
    (intime : ∀ target ∈ targets, target.copies.length * probeSpan settings latency < searchLimit) :
    ∃ served,
      (c.search latency client targets q sort).2.served.toList = client.served.toList ++ served ∧
      served.length = (targets.map (c.servings contents)).sum ∧
      ∀ target ∈ targets, serversOf served target.shard = c.serversFrom contents target 0 := by
  obtain ⟨hpermits, hroom⟩ := Settings.pos_of_fault?_eq_none valid
  rw [← duration_fst] at intime
  obtain ⟨hstarted, n, hway, hfound⟩ :=
    Stack.Idle.exists_way idle hpermits hroom admitted (u.steady h) intime
  obtain ⟨served, htally⟩ := Tally.way hway u h hstarted
  have hunder := hway.underway (u.steady h) hpermits hstarted
  refine ⟨served, ?_, htally.length_eq hunder hfound u.nodup, fun target mem =>
    htally.serversOf_eq hunder hfound mem⟩
  have hbefore : (client.start (c.backend latency) targets (searchRequest q sort)).runtime.backend =
      client.served := Stack.backend_move ..
  rw [search_snd admitted, htally.added, Client.served, hbefore]

/-- A search under valid settings, for which a pool can be made, over distinct shards for which it has
room, and whose probes all are in time: there are idle clients, and with any of them the nodes serve so
many probes in all as the data of the shards and the nodes that are up say. A shard has an answer unless
it is broken or none of its copies is up, and the one probe of it that is served, is by its first copy
that is up. -/
theorem probes_served (built : Built c contents) (valid : settings.fault? = none)
    (permits : settings.maxConcurrentTasks.toNat ≤ Pool.maxPermits) (nonempty : targets ≠ [])
    (subset : targets ⊆ c.allTargets) (nodup : targets.Nodup)
    (room : targets.length ≤ settings.maxQueuedTasks.toNat)
    (patient : ∀ timeout, settings.probeTimeoutMs = some timeout → latency ≤ timeout.toNat)
    (fits : ∀ target ∈ targets, ∀ node ∈ target.copies, RequestFits targets q sort target node)
    (intime : ∀ target ∈ targets, target.copies.length * latency < searchLimit) :
    (∃ client, Client.ofSettings? settings = some client ∧ client.Idle settings) ∧
      ∀ client : Client, client.Idle settings → ∃ outcomes served,
        (c.search latency client targets q sort).1 = .ok (settings.policy.order outcomes sort) ∧
        (c.search latency client targets q sort).2.Idle settings ∧
        (c.search latency client targets q sort).2.served.toList = client.served.toList ++ served ∧
        served.length = (targets.map (c.servings contents)).sum ∧
        outcomes.map (·.1) = targets ∧
        ∀ target outcome, (target, outcome) ∈ outcomes →
          (outcome.failed = false ↔
            contents target.shard ≠ .broken ∧ c.liveCopies target ≠ []) ∧
          serversOf served target.shard = if contents target.shard = .broken then c.liveCopies target
            else (c.liveCopies target).head?.toList := by
  have hconsistent := built.consistent
  obtain ⟨hpermits, -⟩ := Settings.pos_of_fault?_eq_none valid
  obtain ⟨fresh, hfresh⟩ := Client.exists_ofSettings? permits
  refine ⟨⟨fresh, hfresh, Client.idle_of_ofSettings? hfresh⟩, fun client idle => ?_⟩
  have hintime : (searchCourse settings latency client targets q sort).late = false := by
    refine Bool.eq_false_iff.mpr fun hlate => ?_
    obtain ⟨timeout, htimeout, hlt⟩ := duration_snd_eq_true.mp hlate
    exact Nat.not_lt.mpr (patient timeout htimeout) hlt
  have hshards : (targets.map (·.shard)).Nodup :=
    List.Nodup.map_on (fun target mem other mem' =>
      List.inj_on_of_nodup_map hconsistent.nodup_shards (subset mem) (subset mem')) nodup
  have hspan : probeSpan settings latency ≤ latency := by
    rw [probeSpan]
    cases settings.probeTimeoutMs with
    | none => exact Nat.le_refl _
    | some timeout => exact Nat.min_le_left ..
  have hspans : ∀ target ∈ targets, target.copies.length * probeSpan settings latency < searchLimit :=
    fun target mem => Nat.lt_of_le_of_lt (Nat.mul_le_mul_left _ hspan) (intime target mem)
  have hadmitted : startFault? targets (searchRequest q sort) = none := by
    simp [startFault?, hasDuplicates_eq_false hshards, nonempty]
  have hunhindered : Unhindered c q sort latency (searchCourse settings latency client targets q sort) :=
    ⟨rfl, rfl, hpermits, subset, hshards, room, hintime, fits⟩
  obtain ⟨hresult, hidle⟩ := hconsistent.search_eq valid idle subset hadmitted fits hspans
  obtain ⟨served, hadded, hlength, hservers⟩ :=
    hconsistent.exists_tally idle valid hadmitted hunhindered hspans
  refine ⟨_, served, hresult, hidle, hadded, hlength, Environment.map_fst_outcomes _ _, ?_⟩
  intro target outcome hmem
  obtain ⟨i, hi⟩ := List.getElem?_of_mem hmem
  rw [Environment.getElem?_outcomes] at hi
  obtain ⟨target, htarget, heq⟩ := Option.map_eq_some_iff.mp hi
  obtain ⟨rfl, rfl⟩ := Prod.mk.inj heq
  exact ⟨hconsistent.answered_iff hunhindered htarget, hservers target (List.mem_of_getElem? htarget)⟩

theorem probes_served_halfDown : ∃ client, Client.ofSettings? {} = some client ∧ ∃ served,
    (halfDown.search 5 client halfDown.allTargets ⟨5, 7⟩ none).2.served.toList =
        client.served.toList ++ served ∧
      served.length = 5 ∧
      halfDown.allTargets.map (serversOf served ·.shard) =
        [[], [⟨"node-2"⟩], [⟨"node-2"⟩, ⟨"node-3"⟩], [⟨"node-3"⟩], [⟨"node-4"⟩]] := by
  obtain ⟨⟨client, hclient, hidle⟩, hsearch⟩ := @probes_served {} halfDown _ ⟨5, 7⟩ none 5
    halfDown.allTargets built_halfDown rfl (by decide) (by decide +kernel) (List.Subset.refl _)
    (by decide +kernel) (by decide +kernel) nofun (by unfold RequestFits; decide +kernel)
    (by decide +kernel)
  obtain ⟨outcomes, served, -, -, hadded, hlength, hlisted, hserved⟩ := hsearch client hidle
  refine ⟨client, hclient, served, hadded, hlength.trans (by decide +kernel), ?_⟩
  have hservers : ∀ target ∈ halfDown.allTargets, serversOf served target.shard =
      halfDown.serversFrom (withIndex (fun _ => .empty) ⟨"logs"⟩ mixedData) target 0 := by
    intro target mem
    rw [← hlisted] at mem
    obtain ⟨⟨_, outcome⟩, hmem, rfl⟩ := List.mem_map.mp mem
    exact (hserved _ outcome hmem).2
  rw [List.map_congr_left hservers]
  decide +kernel

end Cluster
end Prefilter
