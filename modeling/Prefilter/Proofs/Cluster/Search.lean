import Mathlib
import Prefilter.Cluster.Search
import Prefilter.Proofs.Cluster.Answer
import Prefilter.Proofs.Config.Capacity
import Prefilter.Proofs.Stack.Arrival

namespace Prefilter

variable {settings : Settings} {client : Client}

namespace Client

/-- Nothing is under way at a client that goes by some settings. -/
def Idle (settings : Settings) (client : Client) : Prop :=
  Stack.Idle settings.policy settings.maxConcurrentTasks.toNat settings.maxQueuedTasks.toNat
    (settings.probeTimeoutMs.map (·.toNat)) client

theorem idle_of_ofSettings? (h : ofSettings? settings = some client) : client.Idle settings := by
  obtain ⟨pool, hpool, rfl⟩ := Option.map_eq_some_iff.mp h
  have hready := Pool.Ready.ofLimits hpool
  refine ⟨⟨[], .nil⟩, rfl, hready, ?_, rfl⟩
  rw [Settings.pool?, Pool.ofLimits?] at hpool
  split at hpool
  · obtain rfl := Option.some.inj hpool
    rfl
  · cases hpool

theorem exists_ofSettings? (h : settings.maxConcurrentTasks.toNat ≤ Pool.maxPermits) :
    ∃ client, ofSettings? settings = some client := by
  obtain ⟨pool, hpool⟩ : ∃ pool, settings.pool? = some pool := ⟨_, if_pos h⟩
  exact ⟨_, by rw [ofSettings?, hpool, Option.map_some]⟩

end Client

namespace Cluster

variable {c : Cluster} {contents : ShardId → ShardData} {q : RangeQuery} {sort : Option SortSpec}
  {x : Course} {targets : List ShardTarget} {target : ShardTarget} {node : NodeId}
  {latency i j : Nat}

/-- The response of a node that holds a copy of a shard, if it gives one. -/
def copyResponse? (c : Cluster) (contents : ShardId → ShardData) (q : RangeQuery)
    (sort : Option SortSpec) (target : ShardTarget) (node : NodeId) : Option ProbeResponse :=
  if node ∈ c.down then none else (contents target.shard).response? q sort

/-- What the collaborators do about a search over a cluster. -/
def surroundings (c : Cluster) (contents : ShardId → ShardData) (q : RangeQuery)
    (sort : Option SortSpec) (x : Course) : Environment where
  resolve := (Directory.ofNodes c.nodes.toList).resolve
  fate i := if i < x.room then .run else .refused
  reply i j :=
    let response? := x.targets[i]?.bind fun target =>
      target.copies[j]?.bind (c.copyResponse? contents q sort target)
    (if x.late then none else response?).elim .failure .response

theorem Consistent.resolve_copy (h : Consistent c contents) (mem : target ∈ c.allTargets)
    (copy : node ∈ target.copies) :
    (Directory.ofNodes c.nodes.toList).resolve target.cluster node = .ok { node } := by
  rw [h.cluster_eq mem]
  exact Directory.resolve_ofNodes (Array.mem_toList_iff.mpr (h.mem_nodes mem copy))

theorem Consistent.answer?_eq (h : Consistent c contents) (listed : x.targets[i]? = some target)
    (mem : target ∈ c.allTargets) (j : Nat) :
    (c.surroundings contents q sort x).answer? target i j =
      if x.late then none else target.copies[j]?.bind (c.copyResponse? contents q sort target) := by
  cases hcopy : target.copies[j]? with
  | none => simp [Environment.answer?, hcopy]
  | some node =>
      have hresolved := h.resolve_copy mem (List.mem_of_getElem? hcopy)
      simp only [Environment.answer?, surroundings, hcopy, hresolved, listed, Option.bind_some]
      cases hlate : x.late with
      | true => rfl
      | false => cases hresponse : c.copyResponse? contents q sort target node <;> simp

theorem exists_first_live (h : ∃ node ∈ target.copies, node ∉ c.down) :
    ∃ (j : Nat) (node : NodeId), target.copies[j]? = some node ∧ node ∉ c.down ∧
      ∀ l < j, ∀ other, target.copies[l]? = some other → other ∈ c.down := by
  classical
  have hexists : ∃ j : Nat, ∃ node, target.copies[j]? = some node ∧ node ∉ c.down := by
    obtain ⟨node, hmem, hlive⟩ := h
    obtain ⟨j, hj⟩ := List.getElem?_of_mem hmem
    exact ⟨j, node, hj, hlive⟩
  obtain ⟨node, hnode, hlive⟩ := Nat.find_spec hexists
  refine ⟨Nat.find hexists, node, hnode, hlive, fun l hl other hother => ?_⟩
  by_contra hdown
  exact Nat.find_min hexists hl ⟨other, hother, hdown⟩

/-- The outcome of a shard whose task is run and whose probes are in time is what its data gives, as
long as one of its copies is on a node that is up. -/
theorem Consistent.outcome_eq (h : Consistent c contents) (listed : x.targets[i]? = some target)
    (mem : target ∈ c.allTargets) :
    (c.surroundings contents q sort x).outcome target i =
      if i < x.room ∧ x.late = false ∧ ∃ node ∈ target.copies, node ∉ c.down then
        ((contents target.shard).response? q sort).elim .failure fun response =>
          .success response.canMatch response.bound
      else .failure := by
  have hanswer (l : Nat) : (c.surroundings contents q sort x).answer? target i l = _ :=
    h.answer?_eq listed mem l
  have hsilent (none : ∀ node ∈ target.copies, x.late = true ∨
      c.copyResponse? contents q sort target node = none) :
      (c.surroundings contents q sort x).outcome target i = .failure := by
    refine Environment.outcome_of_no_answer fun l _ => ?_
    rw [hanswer l]
    cases hcopy : target.copies[l]? with
    | none => simp
    | some node =>
        rcases none node (List.mem_of_getElem? hcopy) with hlate | hnone
        · rw [if_pos hlate]
        · simp [hnone]
  by_cases hroom : i < x.room
  · have hrun : (c.surroundings contents q sort x).fate i = .run := if_pos hroom
    by_cases hlive : x.late = false ∧ ∃ node ∈ target.copies, node ∉ c.down
    · obtain ⟨hlate, hexists⟩ := hlive
      rw [if_pos ⟨hroom, hlate, hexists⟩]
      cases hresponse : (contents target.shard).response? q sort with
      | none => exact hsilent fun node _ => .inr (by rw [copyResponse?, hresponse, ite_self])
      | some response =>
          obtain ⟨j, node, hnode, hup, hbefore⟩ := exists_first_live hexists
          have hfirst (l : Nat) (hl : l < j) :
              (c.surroundings contents q sort x).answer? target i l = none := by
            rw [hanswer l, if_neg (by simp [hlate])]
            cases hcopy : target.copies[l]? with
            | none => rfl
            | some other => exact if_pos (hbefore l hl other hcopy)
          refine Environment.outcome_of_answer hrun hfirst ?_
          rw [hanswer j, if_neg (by simp [hlate]), hnode, Option.bind_some, copyResponse?, if_neg hup,
            hresponse]
    · rw [if_neg (fun hall => hlive hall.2)]
      refine hsilent fun node hnode => ?_
      by_cases hlate : x.late = true
      · exact .inl hlate
      · refine .inr (if_pos ?_)
        by_contra hdown
        exact hlive ⟨by simpa using hlate, node, hnode, hdown⟩
  · rw [if_neg (fun hall => hroom hall.1)]
    have hfate : (c.surroundings contents q sort x).fate i = .refused := if_neg hroom
    exact Environment.outcome_of_not_run (by rw [hfate]; nofun)

theorem Consistent.probe_course (h : Consistent c contents) (request : x.request = searchRequest q sort)
    (mem : target ∈ c.allTargets) (copy : node ∈ target.copies)
    (fits : (Wire.Codec.probeMessage.encode (.request (x.probeRequest target node))).length ≤
      Wire.Frame.maxPayload) :
    ∃ result, c.probe { node } (x.probeRequest target node) =
        (some result, if node ∈ c.down then none else some ⟨node, target.shard⟩) ∧
      result.toOption = c.copyResponse? contents q sort target node := by
  have hsource : (x.probeRequest target node).source = some q.toSource := congrArg (·.source) request
  have hsort : (x.probeRequest target node).sort = sort := congrArg (·.sort) request
  have hheld : c.dataAt? node (x.probeRequest target node).shard = some (contents target.shard) :=
    h.dataAt?_eq mem copy
  obtain ⟨result, hprobe, hresult⟩ := probe_eq h.holdings_sound h.down_sound (h.mem_nodes mem copy)
    hheld (h.isOrdered mem) hsource fits
  exact ⟨result, hprobe, by rw [hresult, hsort, copyResponse?]⟩

theorem Consistent.steady (h : Consistent c contents) (request : x.request = searchRequest q sort)
    (delay : x.delay = latency) (subset : x.targets ⊆ c.allTargets)
    (fits : ∀ target ∈ x.targets, ∀ node ∈ target.copies,
      (Wire.Codec.probeMessage.encode (.request (x.probeRequest target node))).length ≤
        Wire.Frame.maxPayload) :
    (c.backend latency).Steady x (c.surroundings contents q sort x) where
  delay_eq _ _ := delay.symm
  fate_eq _ := rfl
  allocated target mem := h.copies_ne_nil (subset mem)
  resolves target mem node copy := ⟨{ node }, h.resolve_copy (subset mem) copy⟩
  late late i target j listed := by
    rw [h.answer?_eq listed (subset (List.mem_of_getElem? listed)), if_pos late]
  answers late i target j node connection state listed copy resolved := by
    have hmem := List.mem_of_getElem? listed
    have hcopy := List.mem_of_getElem? copy
    obtain rfl := Except.ok.inj ((h.resolve_copy (subset hmem) hcopy).symm.trans resolved)
    obtain ⟨result, hprobe, hresult⟩ := h.probe_course request (subset hmem) hcopy
      (fits target hmem node hcopy)
    refine ⟨result, congrArg Prod.fst hprobe, ?_⟩
    rw [h.answer?_eq listed (subset hmem), if_neg (by simp [late]), copy, hresult]
    rfl

/-- The course of a search. -/
def searchCourse (settings : Settings) (latency : Nat) (client : Client) (targets : List ShardTarget)
    (q : RangeQuery) (sort : Option SortSpec) : Course :=
  client.course settings.policy settings.maxConcurrentTasks.toNat settings.maxQueuedTasks.toNat
    (settings.probeTimeoutMs.map (·.toNat)) latency targets (searchRequest q sort)

/-- The request to a copy of a shard fits into a frame. -/
def RequestFits (targets : List ShardTarget) (q : RangeQuery) (sort : Option SortSpec)
    (target : ShardTarget) (node : NodeId) : Prop :=
  (Wire.Codec.probeMessage.encode
    (.request ((Phase.ofTargets targets (searchRequest q sort)).probeRequest target node))).length ≤
      Wire.Frame.maxPayload

/-- How long a probe takes at most. -/
def probeSpan (settings : Settings) (latency : Nat) : Nat :=
  settings.probeTimeoutMs.elim latency fun timeout => min latency timeout.toNat

theorem duration_fst (settings : Settings) (latency : Nat) :
    (Carrier.duration (settings.probeTimeoutMs.map (·.toNat)) latency).1 =
      probeSpan settings latency := by
  rw [probeSpan]
  cases settings.probeTimeoutMs with
  | none => rfl
  | some timeout =>
      simp only [Option.map_some, Carrier.duration, Option.elim_some]
      split <;> simp only <;> omega

theorem duration_snd_eq_true :
    (Carrier.duration (settings.probeTimeoutMs.map (·.toNat)) latency).2 = true ↔
      ∃ timeout, settings.probeTimeoutMs = some timeout ∧ timeout.toNat < latency := by
  cases settings.probeTimeoutMs with
  | none => simp [Carrier.duration]
  | some timeout =>
      simp only [Option.map_some, Carrier.duration, Option.some.injEq, exists_eq_left']
      split <;> simp only [Bool.false_eq_true, true_iff, false_iff] <;> omega

/-- A search over an idle client ends with the outcomes of its shards in order, and with an idle
client. -/
theorem Consistent.search_eq (h : Consistent c contents) (valid : settings.fault? = none)
    (idle : client.Idle settings) (subset : targets ⊆ c.allTargets)
    (admitted : startFault? targets (searchRequest q sort) = none)
    (fits : ∀ target ∈ targets, ∀ node ∈ target.copies, RequestFits targets q sort target node)
    (intime : ∀ target ∈ targets, target.copies.length * probeSpan settings latency < searchLimit) :
    (c.search latency client targets q sort).1 = .ok (settings.policy.order
        ((c.surroundings contents q sort (searchCourse settings latency client targets q sort)).outcomes
          targets) sort) ∧
      (c.search latency client targets q sort).2.Idle settings := by
  obtain ⟨hpermits, hroom⟩ := Settings.pos_of_fault?_eq_none valid
  let x := searchCourse settings latency client targets q sort
  have hsteady : (c.backend latency).Steady x (c.surroundings contents q sort x) :=
    h.steady rfl rfl subset fits
  have hspan : ∀ target ∈ targets, target.copies.length *
      (Carrier.duration (settings.probeTimeoutMs.map (·.toNat)) latency).1 < searchLimit := by
    rw [duration_fst]
    exact intime
  obtain ⟨hresult, hidle⟩ := Stack.Idle.settles idle hpermits hroom admitted hsteady hspan
  rw [search]
  simp only [admitted, hresult]
  exact ⟨rfl, hidle⟩

/-- What a search is to find out about the shard at some place in the routing order. -/
structure Finding (c : Cluster) (contents : ShardId → ShardData) (settings : Settings) (latency : Nat)
    (q : RangeQuery) (sort : Option SortSpec) (place : Nat) (target : ShardTarget) (outcome : Outcome) :
    Prop where
  failed_iff : outcome.failed = true ↔ settings.maxQueuedTasks.toNat ≤ place ∨
    (∀ node ∈ target.copies, node ∈ c.down) ∨ contents target.shard = .broken ∨
      ∃ timeout, settings.probeTimeoutMs = some timeout ∧ timeout.toNat < latency
  matched_of_failed : outcome.failed = true → outcome.matched = true
  matched_iff : outcome.failed = false → (outcome.matched = true ↔
    ∃ least greatest value, contents target.shard = .range least greatest ∧
      (least ≤ value ∧ value ≤ greatest) ∧ q.least ≤ value ∧ value ≤ q.greatest)
  bound_iff : ∀ bound, outcome.bound = some bound ↔ outcome.failed = false ∧ sort.isSome ∧
    ∃ least greatest, contents target.shard = .range least greatest ∧ bound = .long least greatest

theorem meets_iff {least greatest : Int64} (ordered : least ≤ greatest) (query : q.least ≤ q.greatest) :
    q.meets least greatest = true ↔
      ∃ value, (least ≤ value ∧ value ≤ greatest) ∧ q.least ≤ value ∧ value ≤ q.greatest := by
  simp only [RangeQuery.meets, Bool.and_eq_true, decide_eq_true_eq]
  constructor
  · rintro ⟨hleast, hgreatest⟩
    rcases Int64.le_total least q.least with hle | hle
    · exact ⟨q.least, ⟨hle, hgreatest⟩, Int64.le_refl _, query⟩
    · exact ⟨least, ⟨Int64.le_refl _, ordered⟩, hle, hleast⟩
  · rintro ⟨value, ⟨hleast, hgreatest⟩, hqleast, hqgreatest⟩
    exact ⟨Int64.le_trans hleast hqgreatest, Int64.le_trans hqleast hgreatest⟩

theorem Finding.of_failure (cause : settings.maxQueuedTasks.toNat ≤ i ∨
    (∀ node ∈ target.copies, node ∈ c.down) ∨ contents target.shard = .broken ∨
      ∃ timeout, settings.probeTimeoutMs = some timeout ∧ timeout.toNat < latency) :
    Finding c contents settings latency q sort i target .failure where
  failed_iff := iff_of_true rfl cause
  matched_of_failed _ := rfl
  matched_iff := nofun
  bound_iff bound := by simp [Outcome.failure]

theorem Finding.of_response (response : ProbeResponse) (room : i < settings.maxQueuedTasks.toNat)
    (live : ∃ node ∈ target.copies, node ∉ c.down)
    (intime : ¬ ∃ timeout, settings.probeTimeoutMs = some timeout ∧ timeout.toNat < latency)
    (ordered : (contents target.shard).IsOrdered) (query : q.least ≤ q.greatest)
    (found : (contents target.shard).response? q sort = some response) :
    Finding c contents settings latency q sort i target
      (.success response.canMatch response.bound) where
  failed_iff := by
    obtain ⟨node, hnode, hup⟩ := live
    refine iff_of_false nofun ?_
    rintro (hlast | hdown | hbroken | hlate)
    · exact Nat.not_le.mpr room hlast
    · exact hup (hdown node hnode)
    · rw [hbroken] at found
      cases found
    · exact intime hlate
  matched_of_failed := nofun
  matched_iff _ := by
    rcases ShardData.response?_cases found with ⟨hdata, rfl⟩ | ⟨least, greatest, hdata, rfl⟩
    · simp [hdata, Outcome.success]
    · rw [hdata] at ordered ⊢
      refine (meets_iff ordered query).trans ⟨fun ⟨value, hvalue⟩ => ⟨_, _, value, rfl, hvalue⟩, ?_⟩
      rintro ⟨_, _, value, heq, hvalue⟩
      cases heq
      exact ⟨value, hvalue⟩
  bound_iff bound := by
    rcases ShardData.response?_cases found with ⟨hdata, rfl⟩ | ⟨least, greatest, hdata, rfl⟩
    · simp [hdata, Outcome.success]
    · cases sort with
      | none => simp [Outcome.success]
      | some sort =>
          simp only [hdata, Outcome.success, Option.map_some, Option.some.injEq, Option.isSome_some,
            true_and]
          constructor
          · rintro rfl
            exact ⟨least, greatest, rfl, rfl⟩
          · rintro ⟨_, _, heq, rfl⟩
            cases heq
            rfl

theorem Finding.unique {a b : Outcome} (ha : Finding c contents settings latency q sort i target a)
    (hb : Finding c contents settings latency q sort i target b) : a = b := by
  have hfailed : a.failed = b.failed :=
    Bool.eq_iff_iff.mpr (ha.failed_iff.trans hb.failed_iff.symm)
  have hmatched : a.matched = b.matched := by
    cases hf : a.failed with
    | true => rw [ha.matched_of_failed hf, hb.matched_of_failed (hfailed ▸ hf)]
    | false =>
        exact Bool.eq_iff_iff.mpr ((ha.matched_iff hf).trans (hb.matched_iff (hfailed ▸ hf)).symm)
  have hbound : a.bound = b.bound := by
    ext bound
    rw [ha.bound_iff, hb.bound_iff, hfailed]
  cases a
  cases b
  simp_all

theorem Finding.unique_list {a b : List (ShardTarget × Outcome)} (same : a.map (·.1) = b.map (·.1))
    (ha : ∀ place target outcome, a[place]? = some (target, outcome) →
      Finding c contents settings latency q sort place target outcome)
    (hb : ∀ place target outcome, b[place]? = some (target, outcome) →
      Finding c contents settings latency q sort place target outcome) : a = b := by
  have hlength : a.length = b.length := by simpa using congrArg List.length same
  refine List.ext_getElem hlength fun place hplace hplace' => ?_
  have htarget : a[place].1 = b[place].1 := by
    have heq := congrArg (·[place]?) same
    simpa [hplace, hplace'] using heq
  have hfound := ha place a[place].1 a[place].2 (List.getElem?_eq_getElem hplace)
  rw [htarget] at hfound
  have hfound' := hb place b[place].1 b[place].2 (List.getElem?_eq_getElem hplace')
  exact Prod.ext htarget (hfound.unique hfound')

theorem Consistent.finding (h : Consistent c contents) (query : q.least ≤ q.greatest)
    (listed : x.targets[i]? = some target) (mem : target ∈ c.allTargets)
    (room : x.room = settings.maxQueuedTasks.toNat)
    (late : x.late = true ↔
      ∃ timeout, settings.probeTimeoutMs = some timeout ∧ timeout.toNat < latency) :
    Finding c contents settings latency q sort i target
      ((c.surroundings contents q sort x).outcome target i) := by
  rw [h.outcome_eq listed mem, room]
  split
  · rename_i hprobed
    obtain ⟨hroom, hlate, hlive⟩ := hprobed
    cases hresponse : (contents target.shard).response? q sort with
    | none =>
        refine .of_failure (.inr (.inr (.inl ?_)))
        cases hdata : contents target.shard with
        | broken => rfl
        | _ =>
            rw [hdata] at hresponse
            cases hresponse
    | some response =>
        have hintime := fun hover => Bool.false_ne_true (hlate.symm.trans (late.mpr hover))
        exact .of_response response hroom hlive hintime (h.isOrdered mem) query hresponse
  · rename_i hnot
    apply Finding.of_failure
    by_cases hlast : settings.maxQueuedTasks.toNat ≤ i
    · exact .inl hlast
    · by_cases hlate : x.late = true
      · exact .inr (.inr (.inr (late.mp hlate)))
      · refine .inr (.inl fun node hnode => ?_)
        by_contra hup
        exact hnot ⟨Nat.lt_of_not_le hlast, by simpa using hlate, node, hnode, hup⟩

/-- Under settings that are valid and for which a pool can be made, there are idle clients, and a search
over any of them reports of every shard what is to be found out about it. -/
theorem search_reports (built : Built c contents) (valid : settings.fault? = none)
    (permits : settings.maxConcurrentTasks.toNat ≤ Pool.maxPermits) (query : q.least ≤ q.greatest)
    (listed : (∃ index, targets = c.targets index) ∨ targets = c.allTargets)
    (nonempty : sort.isSome → targets ≠ [])
    (fits : ∀ target ∈ targets, ∀ node ∈ target.copies, RequestFits targets q sort target node)
    (intime : ∀ target ∈ targets, target.copies.length * probeSpan settings latency < searchLimit) :
    (∃ client, Client.ofSettings? settings = some client ∧ client.Idle settings) ∧
      ∀ client : Client, client.Idle settings → ∃ outcomes,
        (c.search latency client targets q sort).1 = .ok (settings.policy.order outcomes sort) ∧
        (c.search latency client targets q sort).2.Idle settings ∧
        outcomes.map (·.1) = targets ∧
        ∀ place target outcome, outcomes[place]? = some (target, outcome) →
          Finding c contents settings latency q sort place target outcome := by
  have hconsistent := built.consistent
  obtain ⟨fresh, hfresh⟩ := Client.exists_ofSettings? permits
  have hsublist : targets.Sublist c.allTargets := by
    rcases listed with ⟨index, rfl⟩ | rfl
    · exact c.targets_sublist index
    · exact List.Sublist.refl _
  have hadmitted : startFault? targets (searchRequest q sort) = none := by
    have hnodup := hconsistent.nodup_shards.sublist (hsublist.map _)
    rw [startFault?, hasDuplicates_eq_false hnodup]
    cases sort with
    | none => simp [searchRequest]
    | some sort => simp [searchRequest, nonempty rfl]
  refine ⟨⟨fresh, hfresh, Client.idle_of_ofSettings? hfresh⟩, fun client idle => ?_⟩
  obtain ⟨hresult, hidle⟩ := hconsistent.search_eq valid idle hsublist.subset hadmitted fits intime
  refine ⟨_, hresult, hidle, Environment.map_fst_outcomes _ _, fun place target outcome hplace => ?_⟩
  rw [Environment.getElem?_outcomes] at hplace
  obtain ⟨target, htarget, heq⟩ := Option.map_eq_some_iff.mp hplace
  obtain ⟨rfl, rfl⟩ := Prod.mk.inj heq
  exact hconsistent.finding query htarget (hsublist.subset (List.mem_of_getElem? htarget)) rfl
    duration_snd_eq_true

/-- One shard is broken, and the values of one are greater than those of the others. -/
def mixedData (ordinal : UInt32) : ShardData :=
  if ordinal = 2 then .broken else if ordinal = 3 then .range 20 29 else .range 0 9

/-- Five nodes, the first two of which have gone down, with an index of five shards. -/
def halfDown : Cluster :=
  ((((ofSize 5).createIndex ⟨"logs"⟩ 5 1 mixedData).1.kill 0).1.kill 1).1

theorem built_halfDown : Built halfDown (withIndex (fun _ => .empty) ⟨"logs"⟩ mixedData) := by
  have hordered : ∀ ordinal < (5 : UInt32), (mixedData ordinal).IsOrdered := by
    intro ordinal _
    unfold mixedData
    split
    · trivial
    · split <;> decide
  have hcreated := Built.createIndex (.ofSize 5) ⟨"logs"⟩ 5 1 mixedData hordered
    (Prod.ext rfl (by decide +kernel))
  exact (hcreated.kill 0 (Prod.ext rfl (by decide +kernel))).kill 1 (Prod.ext rfl (by decide +kernel))

/-- What a search for the values from 5 to 7 that has room for four tasks finds out. -/
def reported : List (ShardTarget × Outcome) :=
  let shard (ordinal : UInt32) (first second : String) : ShardTarget :=
    { shard := { index := ⟨"logs"⟩, ordinal }, copies := [⟨first⟩, ⟨second⟩] }
  [(shard 0 "node-0" "node-1", .failure),
    (shard 1 "node-1" "node-2", .success true (some (.long 0 9))),
    (shard 2 "node-2" "node-3", .failure),
    (shard 3 "node-3" "node-4", .success false (some (.long 20 29))),
    (shard 4 "node-4" "node-0", .failure)]

theorem finding_reported (place : Nat) (target : ShardTarget) (outcome : Outcome)
    (listed : reported[place]? = some (target, outcome)) :
    Finding halfDown (withIndex (fun _ => .empty) ⟨"logs"⟩ mixedData) { maxQueuedTasks := 4 } 5 ⟨5, 7⟩
      (some { field := "time" }) place target outcome := by
  have hpatient : ¬ ∃ timeout : UInt64, none = some timeout ∧ timeout.toNat < 5 := nofun
  rcases place with _ | _ | _ | _ | _ | place <;> cases listed
  · exact .of_failure (.inr (.inl (by decide +kernel)))
  · exact .of_response ⟨true, some (.long 0 9)⟩ (by decide) (by decide +kernel) hpatient (by decide)
      (by decide) (by decide)
  · exact .of_failure (.inr (.inr (.inl (by decide))))
  · exact .of_response ⟨false, some (.long 20 29)⟩ (by decide) (by decide +kernel) hpatient (by decide)
      (by decide) (by decide)
  · exact .of_failure (.inl (by decide))

theorem search_reports_halfDown :
    ∃ client, Client.ofSettings? { maxQueuedTasks := 4 } = some client ∧ ∃ r,
      (halfDown.search 5 client halfDown.allTargets ⟨5, 7⟩ (some { field := "time" })).1 = .ok r ∧
      r = OrderingPolicy.order {} reported (some { field := "time" }) ∧ r.summary.failed = 3 ∧
      r.shards.map (fun x => (x.target.shard.ordinal, x.skip)) =
        [(1, false), (3, true), (0, false), (2, false), (4, false)] := by
  obtain ⟨⟨client, hclient, hidle⟩, hsearch⟩ := @search_reports { maxQueuedTasks := 4 } halfDown _
    ⟨5, 7⟩ (some { field := "time" }) halfDown.allTargets 5 built_halfDown rfl (by decide) (by decide)
    (.inr rfl) (by decide +kernel) (by unfold RequestFits; decide +kernel) (by decide +kernel)
  obtain ⟨outcomes, hresult, -, hlisted, hfindings⟩ := hsearch client hidle
  have htargets : reported.map (·.1) = halfDown.allTargets := by decide +kernel
  obtain rfl : outcomes = reported :=
    Finding.unique_list (hlisted.trans htargets.symm) hfindings finding_reported
  exact ⟨client, hclient, _, hresult, rfl, rfl, by cbv⟩

end Cluster
end Prefilter
