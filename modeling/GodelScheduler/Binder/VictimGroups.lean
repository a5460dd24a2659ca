import GodelScheduler.Binder.Sorted

/-!
# The victims of the new tasks by node

A unit keeps the victims of its new tasks in a map by node and in a set of their
own. Victims of different tasks are different pods, since a task is refused when
another one has its victim; so a task that leaves the new tasks takes exactly its
own victims along, and the map of a node holds the victims of the new tasks on it.
-/

namespace GodelScheduler.Binder

open Library BindingUnitInfo Shelves CheckResult List

def CheckResult.victimUids (cr : CheckResult) : List String := cr.runningUnit.victims.map Pod.uid

def BindingUnitInfo.victimsOn (u : BindingUnitInfo) (node : NodeName) : GoMap String Pod :=
  (u.victimsGroupByNode.lookup node).getD ∅

theorem getVictimsOfNewTasksOnNode_eq (u : BindingUnitInfo) (node : NodeName) :
    u.getVictimsOfNewTasksOnNode node = (u.victimsOn node).entries.map Sigma.snd := by
  unfold getVictimsOfNewTasksOnNode victimsOn
  cases u.victimsGroupByNode.lookup node <;> rfl

structure VictimsGrouped (u : BindingUnitInfo) : Prop where
  known : ∀ cr ∈ u.getTasks .newTasks, ∀ uid ∈ cr.victimUids, uid ∈ u.allVictims
  apart : ∀ cr ∈ u.getTasks .newTasks, ∀ cr' ∈ u.getTasks .newTasks, ∀ uid ∈ cr.victimUids,
    uid ∈ cr'.victimUids → cr.uid = cr'.uid
  grouped : ∀ node uid, uid ∈ u.victimsOn node ↔ ∃ cr ∈ u.getTasks .newTasks,
    cr.runningUnit.suggestedNode = some node ∧ uid ∈ cr.victimUids
  keyed : ∀ node uid pod, (u.victimsOn node).lookup uid = some pod → pod.uid = uid

/-- The victims of a node, by the keys they are stored under. -/
theorem VictimsGrouped.map_uid_victims {u : BindingUnitInfo} (h : VictimsGrouped u)
    (node : NodeName) :
    (u.getVictimsOfNewTasksOnNode node).map Pod.uid = (u.victimsOn node).keys := by
  rw [getVictimsOfNewTasksOnNode_eq, map_map]
  unfold AList.keys List.keys
  apply map_congr_left
  intro entry hentry
  exact h.keyed node entry.1 entry.2 (AList.mem_lookup_iff.mpr hentry)

theorem VictimsGrouped.nodup_victims {u : BindingUnitInfo} (h : VictimsGrouped u)
    (node : NodeName) : ((u.getVictimsOfNewTasksOnNode node).map Pod.uid).Nodup := by
  rw [h.map_uid_victims]
  exact (u.victimsOn node).keys_nodup

section

variable {m : GoMap String Pod} (victims : List Pod)

theorem lookup_foldl_erase (m : GoMap String Pod) (uid : String) :
    (victims.foldl (fun m victim => m.erase victim.uid) m).lookup uid =
      if uid ∈ victims.map Pod.uid then none else m.lookup uid := by
  induction victims generalizing m with
  | nil => simp
  | cons victim victims ih =>
    rw [foldl_cons, ih, GoMap.lookup_erase', map_cons]
    grind

end

section Settle

variable {u : BindingUnitInfo} {dst : TaskList} {cr : CheckResult} {node : NodeName}

theorem mem_new_settle_iff (hdst : dst.checked) (hassumed : cr.assumed = false)
    (hnode : cr.runningUnit.suggestedNode = some node) {cr' : CheckResult} :
    cr' ∈ (u.settle dst cr).getTasks .newTasks ↔ cr' ∈ u.getTasks .newTasks ∧ cr'.uid ≠ cr.uid := by
  have hplaced : cr.assumed ∨ cr.runningUnit.suggestedNode.isSome := by
    rw [hnode]
    exact .inr rfl
  unfold getTasks
  rw [tasks_settle, if_pos hplaced, hassumed, Shelves.move, mem_drop,
    mem_getTasks_put hdst.ne_unchecked.2.symm]
  simp [BindingUnitInfo.uncheckedList, BindingUnitInfo.getTasks]

theorem allVictims_settle (hassumed : cr.assumed = false)
    (hnode : cr.runningUnit.suggestedNode = some node) :
    (u.settle dst cr).allVictims = u.allVictims \ cr.victimUids.toFinset := by
  unfold settle deleteTaskFromNewOrAssumedTasks
  rw [hassumed, hnode]
  rfl

theorem victimsOn_settle (hassumed : cr.assumed = false)
    (hnode : cr.runningUnit.suggestedNode = some node) (node' : NodeName) :
    (u.settle dst cr).victimsOn node' =
      if node' = node then
        cr.runningUnit.victims.foldl (fun m victim => m.erase victim.uid) (u.victimsOn node)
      else u.victimsOn node' := by
  unfold settle deleteTaskFromNewOrAssumedTasks
  rw [hassumed, hnode]
  simp only [Bool.false_eq_true, if_false]
  unfold deleteVictims victimsOn
  cases hlookup : u.victimsGroupByNode.lookup node with
  | none =>
    split_ifs with heq
    · have hempty : ∀ victims : List Pod,
          victims.foldl (fun m victim => m.erase victim.uid) (∅ : GoMap String Pod) = ∅ := by
        intro victims
        induction victims with
        | nil => rfl
        | cons victim victims ih => exact ih
      rw [heq, hlookup]
      exact (hempty _).symm
    · rfl
  | some m =>
    simp only [GoMap.lookup_insert']
    split_ifs <;> rfl

theorem mem_victimsOn_settle (hassumed : cr.assumed = false)
    (hnode : cr.runningUnit.suggestedNode = some node) (node' : NodeName) (uid : String) :
    uid ∈ (u.settle dst cr).victimsOn node' ↔
      uid ∈ u.victimsOn node' ∧ (node' = node → uid ∉ cr.victimUids) := by
  rw [victimsOn_settle hassumed hnode]
  split_ifs with heq
  · rw [← AList.lookup_isSome, lookup_foldl_erase, heq, ← AList.lookup_isSome]
    unfold victimUids
    split_ifs with huid <;> simp [huid]
  · simp [heq]

/-- Settling an assumed task, or one without a node, leaves the new tasks and the victims alone. -/
theorem settle_of_not_placed (hdst : dst.checked)
    (h : cr.assumed = true ∨ cr.runningUnit.suggestedNode = none) :
    (u.settle dst cr).getTasks .newTasks = u.getTasks .newTasks ∧
      (u.settle dst cr).allVictims = u.allVictims ∧
      (u.settle dst cr).victimsGroupByNode = u.victimsGroupByNode := by
  have hput : ∀ (l : TaskList) (uid : String), l ≠ .newTasks →
      ((u.tasks.put dst cr).drop l uid) .newTasks = u.tasks .newTasks := by
    intro l uid hl
    rw [drop_of_ne _ hl.symm, put_of_ne _ hdst.ne_unchecked.2.symm]
  unfold settle deleteTaskFromNewOrAssumedTasks
  cases hassumed : cr.assumed with
  | true => exact ⟨congrArg KeyedStore.list (hput .assumedTasks cr.uid (by decide)), rfl, rfl⟩
  | false =>
    rcases h with h | h
    · rw [hassumed] at h
      cases h
    · rw [h]
      refine ⟨congrArg KeyedStore.list ?_, rfl, rfl⟩
      exact put_of_ne _ hdst.ne_unchecked.2.symm _

theorem getTasks_new_addAssumedTask (u : BindingUnitInfo) (qpi : BindingPodInfo) :
    (u.addAssumedTask qpi).getTasks .newTasks = u.getTasks .newTasks := by
  have hput : u.tasks.put .assumedTasks
      { assumed := true, runningUnit := { queuedPodInfo := qpi } } .newTasks = u.tasks .newTasks :=
    put_of_ne _ (by decide) _
  exact congrArg KeyedStore.list hput

/-- A unit that fails by its assumed tasks loses no new task before all of them fail. -/
theorem moveAll_of_checkAssumedTasks_eq_none (env : Env) (l : List CheckResult)
    (u : BindingUnitInfo) (anyOneStillInProgress : Bool)
    (h : (checkAssumedTasks env l u anyOneStillInProgress).2 = none) :
    ∃ (u' : BindingUnitInfo) (err : String), u'.getTasks .newTasks = u.getTasks .newTasks ∧
      (checkAssumedTasks env l u anyOneStillInProgress).1 = u'.moveAllTasksToFailedList err := by
  induction l generalizing u anyOneStillInProgress with
  | nil => cases h
  | cons cr l ih =>
    unfold checkAssumedTasks at h ⊢
    split at h
    · exact ih _ _ h
    · simp only at h ⊢
      generalize checkCrossNodePreemptionForAssumedTask env cr.info _ = checked at h ⊢
      obtain ⟨task, inProgress, err⟩ := checked
      have hadd := getTasks_new_addAssumedTask u task
      cases err with
      | none =>
        simp only at h ⊢
        split_ifs at h ⊢
        · exact ⟨_, _, hadd, rfl⟩
        · obtain ⟨u', err, hnew, heq⟩ := ih _ _ h
          exact ⟨u', err, hnew.trans hadd, heq⟩
      | some err =>
        have hfail : ((u.addAssumedTask task).addFailedTask { queuedPodInfo := task } err
            true).getTasks .newTasks = u.getTasks .newTasks :=
          (settle_of_not_placed (by trivial) (.inl rfl)).1.trans hadd
        simp only at h ⊢
        split_ifs at h ⊢
        · exact ⟨_, _, hfail, rfl⟩
        · obtain ⟨u', err', hnew, heq⟩ := ih _ _ h
          exact ⟨u', err', hnew.trans hfail, heq⟩

namespace VictimsGrouped

theorem of_same {u u' : BindingUnitInfo} (h : VictimsGrouped u)
    (hnew : u'.getTasks .newTasks = u.getTasks .newTasks) (hall : u'.allVictims = u.allVictims)
    (hgroup : u'.victimsGroupByNode = u.victimsGroupByNode) : VictimsGrouped u' := by
  have hon : ∀ node, u'.victimsOn node = u.victimsOn node := by
    intro node
    unfold victimsOn
    rw [hgroup]
  constructor
  · rw [hnew, hall]
    exact h.known
  · rw [hnew]
    exact h.apart
  · intro node uid
    rw [hon, hnew]
    exact h.grouped node uid
  · intro node uid pod
    rw [hon]
    exact h.keyed node uid pod

/-- The settled task has the victims of the new task it was, or none and it was no new task. -/
theorem settle (h : VictimsGrouped u) (hdst : dst.checked)
    (htask : cr.assumed = true ∨ (cr.runningUnit.victims = [] ∧ ¬ u.tasks.Has .newTasks cr.uid) ∨
      ∃ cr' ∈ u.getTasks .newTasks, cr.runningUnit = cr'.runningUnit) :
    VictimsGrouped (u.settle dst cr) := by
  by_cases hplaced : cr.assumed = true ∨ cr.runningUnit.suggestedNode = none
  · obtain ⟨hnew, hall, hgroup⟩ := settle_of_not_placed hdst hplaced
    exact h.of_same hnew hall hgroup
  obtain ⟨hassumed, hsome⟩ := not_or.mp hplaced
  have htask := htask.resolve_left hassumed
  have hassumed := Bool.eq_false_of_not_eq_true hassumed
  obtain ⟨node, hnode⟩ := Option.ne_none_iff_exists'.mp hsome
  -- of the victims of new tasks only those of the settled task are its own
  have hown : ∀ cr' ∈ u.getTasks .newTasks, ∀ uid ∈ cr'.victimUids,
      (uid ∈ cr.victimUids ↔ cr'.uid = cr.uid) ∧
        (cr'.uid = cr.uid → cr'.runningUnit.suggestedNode = some node) := by
    intro cr' hcr' uid huid
    rcases htask with ⟨hnil, hnot⟩ | ⟨cr₀, hcr₀, hunit⟩
    · have hne : cr'.uid ≠ cr.uid := fun heq =>
        hnot (heq ▸ has_of_mem_list hcr')
      simp [victimUids, hnil, hne]
    · have hsame : cr'.uid = cr.uid → cr' = cr₀ := fun heq =>
        inj_on_of_nodup_map (u.tasks .newTasks).nodup_list_key hcr' hcr₀
          (heq.trans (uid_congr hunit))
      rw [victimUids, uid_congr hunit, ← hnode, hunit]
      rw [uid_congr hunit] at hsame
      exact ⟨⟨h.apart cr' hcr' cr₀ hcr₀ uid huid, fun heq => hsame heq ▸ huid⟩,
        fun heq => by rw [hsame heq]⟩
  constructor
  · intro cr' hcr' uid huid
    obtain ⟨hmem, hne⟩ := (mem_new_settle_iff hdst hassumed hnode).mp hcr'
    rw [allVictims_settle hassumed hnode, Finset.mem_sdiff, mem_toFinset,
      (hown cr' hmem uid huid).1]
    exact ⟨h.known cr' hmem uid huid, hne⟩
  · intro cr₁ hcr₁ cr₂ hcr₂
    exact h.apart cr₁ ((mem_new_settle_iff hdst hassumed hnode).mp hcr₁).1
      cr₂ ((mem_new_settle_iff hdst hassumed hnode).mp hcr₂).1
  · intro node' uid
    simp only [mem_victimsOn_settle hassumed hnode, h.grouped,
      mem_new_settle_iff hdst hassumed hnode]
    constructor
    · rintro ⟨⟨cr', hcr', hon, huid⟩, hnot⟩
      obtain ⟨hiff, hsame⟩ := hown cr' hcr' uid huid
      refine ⟨cr', ⟨hcr', fun heq => hnot ?_ (hiff.mpr heq)⟩, hon, huid⟩
      exact Option.some_inj.mp (hon.symm.trans (hsame heq))
    · rintro ⟨cr', ⟨hcr', hne⟩, hon, huid⟩
      exact ⟨⟨cr', hcr', hon, huid⟩, fun _ hin => hne ((hown cr' hcr' uid huid).1.mp hin)⟩
  · intro node' uid pod hlookup
    rw [victimsOn_settle hassumed hnode] at hlookup
    split_ifs at hlookup
    · rw [lookup_foldl_erase] at hlookup
      split_ifs at hlookup
      exact h.keyed node uid pod hlookup
    · exact h.keyed node' uid pod hlookup

theorem of_move {u' : BindingUnitInfo} (h : VictimsGrouped u) (hmove : Move u u') :
    VictimsGrouped u' := by
  cases hmove with
  | settleAssumed hdst _ hassumed _ _ => exact h.settle hdst (.inl hassumed)
  | settleNew hdst hin _ hunit => exact h.settle hdst (.inr (.inr ⟨_, hin, hunit⟩))
  | moveWhere p err hsrc _ hdst _ =>
    refine h.of_same (congrArg KeyedStore.list ?_) rfl rfl
    exact tasks_moveWhere_of_ne hsrc.ne_unchecked.2.symm hdst.ne_unchecked.2.symm
  | addAssumedTask _ _ =>
    exact h.of_same (getTasks_new_addAssumedTask u _) rfl rfl
  | updateTask hl _ _ =>
    refine h.of_same (congrArg KeyedStore.list ?_) rfl rfl
    exact put_of_ne _ hl.ne_unchecked.2.symm _

theorem of_moves {u' : BindingUnitInfo} (h : VictimsGrouped u) (hmoves : Moves u u') :
    VictimsGrouped u' := by
  induction hmoves with
  | refl => exact h
  | tail _ hmove ih => exact ih.of_move hmove

end VictimsGrouped

end Settle

section

variable {env : Env} {cache : BinderCache} {u : BindingUnitInfo} {qpi : BindingPodInfo}

variable {rui : RunningUnitInfo}

theorem mem_new_addNewTask_iff (hnode : rui.suggestedNode.isSome) {cr : CheckResult} :
    cr ∈ (u.addNewTask rui).getTasks .newTasks ↔ cr = { assumed := false, runningUnit := rui } ∨
      cr ∈ u.getTasks .newTasks ∧ cr.uid ≠ rui.queuedPodInfo.pod.uid := by
  obtain ⟨node, hnode⟩ := Option.isSome_iff_exists.mp hnode
  unfold addNewTask getTasks
  rw [hnode, mem_put]
  grind

theorem victimsOn_addNewTask {node : NodeName} (hnode : rui.suggestedNode = some node)
    (node' : NodeName) :
    (u.addNewTask rui).victimsOn node' =
      if node' = node then
        rui.victims.foldl (fun m victim => m.insert victim.uid victim) (u.victimsOn node)
      else u.victimsOn node' := by
  unfold addNewTask victimsOn
  rw [hnode]
  cases rui.victims with
  | nil =>
    simp only [isEmpty_nil, if_true, foldl_nil]
    split_ifs with heq
    · rw [heq]
    · rfl
  | cons victim victims =>
    simp only [isEmpty_cons, Bool.false_eq_true, if_false, GoMap.lookup_insert']
    split_ifs <;> rfl

namespace VictimsGrouped

theorem new_empty (type : ScheduleUnitType) (minMember : ℤ) (allMember : ℕ)
    (everScheduled : Bool) : VictimsGrouped (.new type minMember allMember everScheduled) := by
  refine ⟨fun cr hcr => (by cases hcr), fun cr hcr => (by cases hcr), fun node uid => ?_,
    fun node uid pod h => (by cases h)⟩
  refine iff_of_false (AList.notMem_empty uid) ?_
  rintro ⟨cr, hcr, -⟩
  cases hcr

theorem addNewTask (h : VictimsGrouped u) (htask : InitializedTask env u qpi rui)
    (hfresh : ¬ u.tasks.Has .newTasks qpi.pod.uid) : VictimsGrouped (u.addNewTask rui) := by
  have hmem : ∀ cr, cr ∈ (u.addNewTask rui).getTasks .newTasks ↔
      cr = { assumed := false, runningUnit := rui } ∨ cr ∈ u.getTasks .newTasks := by
    intro cr
    rw [mem_new_addNewTask_iff htask.suggestedNode, htask.pod]
    refine or_congr_right (and_iff_left_of_imp fun hcr heq => hfresh ?_)
    exact heq ▸ has_of_mem_list hcr
  obtain ⟨node, hnode⟩ := Option.isSome_iff_exists.mp htask.suggestedNode
  have hall : (u.addNewTask rui).allVictims =
      u.allVictims ∪ (rui.victims.map Pod.uid).toFinset := by
    unfold BindingUnitInfo.addNewTask
    rw [hnode]
  -- none of the victims is one of another new task
  have htaken : ∀ cr ∈ u.getTasks .newTasks, ∀ uid ∈ cr.victimUids,
      uid ∉ rui.victims.map Pod.uid := by
    intro cr hcr uid hvictim hvictim'
    obtain ⟨victim, hv, rfl⟩ := mem_map.mp hvictim'
    exact of_decide_eq_false (htask.notTaken victim hv) (h.known cr hcr _ hvictim)
  constructor
  · intro cr hcr uid hvictim
    rw [hall, Finset.mem_union, mem_toFinset]
    rcases (hmem cr).mp hcr with rfl | hcr
    · exact .inr hvictim
    · exact .inl (h.known cr hcr uid hvictim)
  · intro cr₁ hcr₁ cr₂ hcr₂ uid huid₁ huid₂
    rcases (hmem cr₁).mp hcr₁ with rfl | hcr₁ <;> rcases (hmem cr₂).mp hcr₂ with rfl | hcr₂
    · rfl
    · exact absurd huid₁ (htaken cr₂ hcr₂ uid huid₂)
    · exact absurd huid₂ (htaken cr₁ hcr₁ uid huid₁)
    · exact h.apart cr₁ hcr₁ cr₂ hcr₂ uid huid₁ huid₂
  · intro node' uid
    have hon : uid ∈ (u.addNewTask rui).victimsOn node' ↔
        (some node = some node' ∧ uid ∈ rui.victims.map Pod.uid) ∨ uid ∈ u.victimsOn node' := by
      rw [victimsOn_addNewTask hnode]
      split_ifs with heq
      · simp [GoMap.mem_foldl_insert, heq, or_comm]
      · simp [Ne.symm heq]
    simp only [hon, h.grouped, hmem, exists_eq_or_imp, hnode, victimUids]
  · intro node' uid pod hlookup
    rw [victimsOn_addNewTask hnode] at hlookup
    split_ifs at hlookup
    · rcases GoMap.exists_of_lookup_foldl_insert hlookup with ⟨victim, -, huid, rfl⟩ | hold
      · exact huid
      · exact h.keyed node uid pod hold
    · exact h.keyed node' uid pod hlookup

theorem initializePod (h : VictimsGrouped u) (hfresh : ∀ l, ¬ u.tasks.Has l qpi.pod.uid) :
    VictimsGrouped (initializePod env cache u qpi) := by
  rcases initializePod_cases env cache u qpi with
    heq | heq | ⟨rui, err, hpod, hvictims, heq⟩ | ⟨rui, htask, heq⟩
  · rw [heq]
    exact h.of_same (getTasks_new_addAssumedTask u _) rfl rfl
  · rw [heq]
    exact h.of_same rfl rfl rfl
  · rw [heq]
    refine h.settle (by trivial) (.inr (.inl ⟨hvictims, ?_⟩))
    have huid : rui.queuedPodInfo.pod.uid = qpi.pod.uid := congrArg Pod.uid hpod
    exact fun hc => hfresh .newTasks (huid ▸ hc)
  · rw [heq]
    exact h.addNewTask htask (hfresh .newTasks)

theorem initializeUnit (env : Env) (cache : BinderCache) (unit : BindingUnit) :
    VictimsGrouped (initializeUnit env cache unit) :=
  initializeUnit_invariant unit (new_empty ..) fun _ _ _ h hfresh => h.initializePod hfresh

end VictimsGrouped

/-- The cycle state of every new task could be set up. -/
theorem initCycleState_of_mem_new (env : Env) (cache : BinderCache) (pods : List BindingPodInfo)
    (u : BindingUnitInfo)
    (hu : ∀ cr ∈ u.getTasks .newTasks, env.initCycleState cr.info.pod = none) :
    ∀ cr ∈ (pods.foldl (initializePod env cache) u).getTasks .newTasks,
      env.initCycleState cr.info.pod = none := by
  induction pods generalizing u with
  | nil => exact hu
  | cons qpi pods ih =>
    apply ih
    intro cr hcr
    rcases initializePod_cases env cache u qpi with
      heq | heq | ⟨rui, err, -, -, heq⟩ | ⟨rui, htask, heq⟩ <;> rw [heq] at hcr
    · exact hu cr ((mem_getTasks_put (by decide)).mp hcr)
    · exact hu cr hcr
    · exact hu cr (mem_getTasks_settle (by decide) hcr)
    · rcases (mem_new_addNewTask_iff htask.suggestedNode).mp hcr with rfl | ⟨hcr, -⟩
      · rw [info, htask.pod]
        exact htask.initCycleState
      · exact hu cr hcr

end

section

/-- The new tasks of a node, their victims and the lists they are in are the same. -/
structure SameOn (nodeName : NodeName) (u u' : BindingUnitInfo) : Prop where
  new : ∀ cr ∈ u'.getTasks .newTasks, cr ∈ u.getTasks .newTasks
  onNode : ∀ cr ∈ u.getTasks .newTasks, OnNode nodeName cr → cr ∈ u'.getTasks .newTasks
  victims : u'.victimsOn nodeName = u.victimsOn nodeName
  has : ∀ uid, (∀ cr ∈ u.getTasks .newTasks, cr.uid = uid → OnNode nodeName cr) →
    ∀ l, u'.tasks.Has l uid ↔ u.tasks.Has l uid

namespace SameOn

variable {nodeName node' : NodeName} {u u' u'' : BindingUnitInfo}

theorem refl (nodeName : NodeName) (u : BindingUnitInfo) : SameOn nodeName u u :=
  ⟨fun _ h => h, fun _ h _ => h, rfl, fun _ _ _ => Iff.rfl⟩

theorem trans (h : SameOn nodeName u u') (h' : SameOn nodeName u' u'') : SameOn nodeName u u'' where
  new cr hcr := h.new cr (h'.new cr hcr)
  onNode cr hcr hon := h'.onNode cr (h.onNode cr hcr hon) hon
  victims := h'.victims.trans h.victims
  has uid huid l :=
    (h'.has uid (fun cr hcr => huid cr (h.new cr hcr)) l).trans (h.has uid huid l)

theorem of_settlesNew (hne : node' ≠ nodeName) (h : SettlesNew (OnNode node') u u') :
    SameOn nodeName u u' := by
  obtain ⟨dst, cr, cr', hcr', hdst, hassumed, hunit, hon', rfl⟩ := h
  have huid : cr.uid = cr'.uid := uid_congr hunit
  have hnode : cr.runningUnit.suggestedNode = some node' := by
    rw [hunit]
    exact hon'
  have hapart : ∀ cr₂ ∈ u.getTasks .newTasks, OnNode nodeName cr₂ → cr₂.uid ≠ cr.uid := by
    intro cr₂ hcr₂ hon heq
    have hsame : cr₂ = cr' :=
      inj_on_of_nodup_map (u.tasks .newTasks).nodup_list_key hcr₂ hcr' (heq.trans huid)
    rw [hsame] at hon
    exact hne (Option.some_inj.mp (hon'.symm.trans hon))
  constructor
  · intro cr₂ hcr₂
    exact mem_getTasks_settle hdst.ne_unchecked.2.symm hcr₂
  · intro cr₂ hcr₂ hon
    exact mem_getTasks_settle_of_ne (hapart cr₂ hcr₂ hon) hcr₂
  · rw [victimsOn_settle hassumed hnode, if_neg hne.symm]
  · intro uid hall l
    have hother : uid ≠ cr.uid := by
      rintro rfl
      exact hapart cr' hcr' (hall cr' hcr' huid.symm) huid.symm
    exact ⟨fun hhas => (has_of_has_settle hhas).resolve_left hother, has_settle_of_ne hother⟩

theorem of_movesNew (hne : node' ≠ nodeName) (h : MovesNew (OnNode node') u u') :
    SameOn nodeName u u' := by
  induction h with
  | refl => exact refl nodeName u
  | tail _ hstep ih => exact ih.trans (of_settlesNew hne hstep)

end SameOn

end

end GodelScheduler.Binder
