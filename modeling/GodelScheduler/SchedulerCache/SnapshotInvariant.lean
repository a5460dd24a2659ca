import GodelScheduler.SchedulerCache.Snapshot

/-!
# The invariant of a snapshot

`SnapInv` ties the raw store of a snapshot to its partition lists: a listed
node info with a node object is the one stored under its name, and every stored
node info with a node object is listed in its partition. It is kept by each
primitive the snapshot operations are made of, whatever the order of events.

Node infos without node objects share one empty key in each list. `NilCovered`
says that such a list entry is backed by a stored node info of the same
partition, so that deleting all of these clears the list.
-/

namespace GodelScheduler.SchedulerCache

open Library GenerationStore SnapshotState

def NodeSlices.partition (s : NodeSlices) (b : Bool) : HashSlice (Option NodeName) Ref :=
  if b then s.inPartitionNodeSlice else s.outOfPartitionNodeSlice

namespace SnapshotState

variable (st : SnapshotState) (r : Ref) (isAdd : Bool)

def listed (b : Bool) : List Ref := (st.nodeSlices.partition b).items

@[simp] theorem update_placeHolder : st.update placeHolder isAdd = st := by
  simp [update]

@[simp] theorem update_objs : (st.update r isAdd).objs = st.objs := by
  unfold update
  split <;> rfl

@[simp] theorem update_deleted : (st.update r isAdd).deleted = st.deleted := by
  unfold update
  split <;> rfl

theorem congr_objs {st st' : SnapshotState} (h : st'.objs = st.objs) :
    st'.info = st.info ∧ st'.nodeName = st.nodeName := by
  have hinfo : st'.info = st.info := by
    funext x
    rw [info, h, info]
  refine ⟨hinfo, ?_⟩
  funext x
  rw [nodeName, hinfo, nodeName]

@[simp] theorem update_info : (st.update r isAdd).info = st.info :=
  (congr_objs (st.update_objs r isAdd)).1

variable {st r isAdd}

theorem update_partition (hr : r ≠ placeHolder) (b : Bool) :
    (st.update r isAdd).nodeSlices.partition b =
      if (st.info r).inPartition = b then st.op (st.nodeSlices.partition b) r isAdd
      else st.nodeSlices.partition b := by
  simp only [update, if_neg hr, NodeSlices.partition]
  cases (st.info r).inPartition <;> cases b <;> simp <;> split_ifs <;> rfl

theorem info_modifyInfo (f : NodeInfo → NodeInfo) (hr : r < st.objs.length) (x : Ref) :
    (st.modifyInfo r f).info x = if x = r then f (st.info r) else st.info x := by
  simp only [modifyInfo, info, List.getD_eq_getElem?_getD]
  by_cases hx : x = r
  · subst hx
    rw [List.getElem?_modify_eq, List.getElem?_eq_getElem hr]
    simp
  · rw [List.getElem?_modify_ne _ _ (Ne.symm hx), if_neg hx]

theorem info_append (n : NodeInfo) {x : Ref} (hx : x < st.objs.length) :
    ({ st with objs := st.objs ++ [n] } : SnapshotState).info x = st.info x := by
  simp [info, List.getD_eq_getElem?_getD, List.getElem?_append_left hx]

theorem info_append_self (n : NodeInfo) :
    ({ st with objs := st.objs ++ [n] } : SnapshotState).info st.objs.length = n := by
  simp [info, List.getD_eq_getElem?_getD]

end SnapshotState

structure SnapInv (st : SnapshotStore) : Prop where
  placeHolder_lt : placeHolder < st.2.objs.length
  placeHolder_nil : (st.2.info placeHolder).objectIsNil = true
  valid : ∀ k r, st.get k = some r → r < st.2.objs.length
  inj : ∀ k k' r, st.get k = some r → st.get k' = some r → r ≠ placeHolder → k = k'
  named : ∀ k r, st.get k = some r → (st.2.info r).Named k
  wf : ∀ b, (st.2.nodeSlices.partition b).WF st.2.nodeName
  listed_lt : ∀ b, ∀ r ∈ st.2.listed b, r < st.2.objs.length
  listed_ne : ∀ b, ∀ r ∈ st.2.listed b, r ≠ placeHolder
  listed_partition : ∀ b, ∀ r ∈ st.2.listed b, (st.2.info r).inPartition = b
  /-- A listed node info with a name is the one stored under it. -/
  listed_stored : ∀ b, ∀ r ∈ st.2.listed b, ∀ k, st.2.nodeName r = some k → st.get k = some r
  /-- A stored node info with a node object is listed in its partition. -/
  stored_listed : ∀ k r, st.get k = some r → (st.2.info r).objectIsNil = false →
    r ∈ st.2.listed (st.2.info r).inPartition

theorem named_of_nil {n : NodeInfo} (h : n.objectIsNil = true) (k : NodeName) : n.Named k := by
  simp only [NodeInfo.objectIsNil, Bool.and_eq_true, Option.isNone_iff_eq_none] at h
  constructor
  · intro x hx
    rw [h.2] at hx
    cases hx
  · intro x hx
    rw [h.1] at hx
    cases hx

namespace SnapInv

variable {st st' : SnapshotStore} {k : NodeName} {r : Ref}

theorem new : SnapInv SnapshotStore.new where
  placeHolder_lt := Nat.one_pos
  placeHolder_nil := rfl
  valid k r h := by cases h
  inj k k' r h := by cases h
  named k r h := by cases h
  wf b := by cases b <;> exact HashSlice.wf_new _
  listed_lt b r h := by cases b <;> cases h
  listed_ne b r h := by cases b <;> cases h
  listed_partition b r h := by cases b <;> cases h
  listed_stored b r h := by cases b <;> cases h
  stored_listed k r h := by cases h

variable (h : SnapInv st)
include h

/-- Only the stored references, the objects' names and flags and the lists matter. -/
theorem congr (hget : ∀ k, st'.get k = st.get k) (hlen : st'.2.objs.length = st.2.objs.length)
    (hinfo : ∀ r, (st.2.info r).SameObjects (st'.2.info r))
    (hslices : st'.2.nodeSlices = st.2.nodeSlices) : SnapInv st' := by
  have hname : st'.2.nodeName = st.2.nodeName := funext fun r => (hinfo r).getNodeName
  have hlisted : ∀ b, st'.2.listed b = st.2.listed b := by
    intro b
    rw [listed, hslices]
    rfl
  constructor
  · rw [hlen]
    exact h.placeHolder_lt
  · rw [(hinfo _).objectIsNil]
    exact h.placeHolder_nil
  · intro k r hk
    rw [hget] at hk
    rw [hlen]
    exact h.valid k r hk
  · intro k k' r hk hk'
    rw [hget] at hk hk'
    exact h.inj k k' r hk hk'
  · intro k r hk
    rw [hget] at hk
    exact (hinfo r).named (h.named k r hk)
  · intro b
    rw [hname, hslices]
    exact h.wf b
  · intro b r hr
    rw [hlisted] at hr
    rw [hlen]
    exact h.listed_lt b r hr
  · intro b r hr
    rw [hlisted] at hr
    exact h.listed_ne b r hr
  · intro b r hr
    rw [hlisted] at hr
    rw [(hinfo r).inPartition]
    exact h.listed_partition b r hr
  · intro b r hr k hk
    rw [hlisted] at hr
    rw [hname] at hk
    rw [hget]
    exact h.listed_stored b r hr k hk
  · intro k r hk hnil
    rw [hget] at hk
    rw [(hinfo r).objectIsNil] at hnil
    rw [(hinfo r).inPartition, hlisted]
    exact h.stored_listed k r hk hnil

theorem alloc (n : NodeInfo) : SnapInv (st.alloc n).1 := by
  have hinfo : ∀ r, r < st.2.objs.length → (st.alloc n).1.2.info r = st.2.info r :=
    fun r hr => info_append n hr
  have hname : ∀ r, r < st.2.objs.length → (st.alloc n).1.2.nodeName r = st.2.nodeName r :=
    fun r hr => congrArg NodeInfo.getNodeName (hinfo r hr)
  have hlt : ∀ {r}, r < st.2.objs.length → r < (st.alloc n).1.2.objs.length := by
    intro r hr
    simp only [SnapshotStore.alloc, List.length_append, List.length_singleton]
    omega
  constructor
  · exact hlt h.placeHolder_lt
  · rw [hinfo _ h.placeHolder_lt]
    exact h.placeHolder_nil
  · intro k r hk
    exact hlt (h.valid k r hk)
  · exact h.inj
  · intro k r hk
    rw [hinfo r (h.valid k r hk)]
    exact h.named k r hk
  · intro b
    exact (h.wf b).congr fun r hr => hname r (h.listed_lt b r hr)
  · intro b r hr
    exact hlt (h.listed_lt b r hr)
  · exact h.listed_ne
  · intro b r hr
    rw [hinfo r (h.listed_lt b r hr)]
    exact h.listed_partition b r hr
  · intro b r hr k hk
    rw [hname r (h.listed_lt b r hr)] at hk
    exact h.listed_stored b r hr k hk
  · intro k r hk hnil
    have hr := h.valid k r hk
    rw [hinfo r hr] at hnil ⊢
    exact h.stored_listed k r hk hnil

/-- A node info is stored under a free name. The lists may gain it, and lose those of its name. -/
theorem store (hk : st.get k = none) (hlt : r < st.2.objs.length)
    (hfree : r = placeHolder ∨ ∀ a, st.get a ≠ some r) (hnamed : (st.2.info r).Named k)
    (hget : st'.1 = st.1.set k r) (hobjs : st'.2.objs = st.2.objs)
    (hwf : ∀ b, (st'.2.nodeSlices.partition b).WF st.2.nodeName)
    (hgain : ∀ b x, x ∈ st'.2.listed b →
      x ∈ st.2.listed b ∨ x = r ∧ r ≠ placeHolder ∧ (st.2.info r).inPartition = b)
    (hkeep : ∀ b x, x ∈ st.2.listed b → st.2.nodeName x ≠ st.2.nodeName r → x ∈ st'.2.listed b)
    (hself : (st.2.info r).objectIsNil = false → r ∈ st'.2.listed (st.2.info r).inPartition) :
    SnapInv st' := by
  have hget : ∀ a, st'.get a = if a = k then some r else st.get a := by
    intro a
    rw [SnapshotStore.get, hget]
    exact st.1.get_set k a r
  obtain ⟨hinfo, hname⟩ := congr_objs hobjs
  constructor
  · rw [hobjs]
    exact h.placeHolder_lt
  · rw [hinfo]
    exact h.placeHolder_nil
  · intro a x hx
    rw [hget] at hx
    rw [hobjs]
    split_ifs at hx with ha
    · cases hx
      exact hlt
    · exact h.valid a x hx
  · intro a a' x hx hx' hne
    rw [hget] at hx hx'
    have hfree : ∀ a, st.get a = some x → x ≠ r := by
      rintro a ha rfl
      exact hfree.resolve_left hne a ha
    split_ifs at hx hx' with ha ha' ha'
    · rw [ha, ha']
    · cases hx
      exact absurd rfl (hfree a' hx')
    · cases hx'
      exact absurd rfl (hfree a hx)
    · exact h.inj a a' x hx hx' hne
  · intro a x hx
    rw [hget] at hx
    rw [hinfo]
    split_ifs at hx with ha
    · cases hx
      rw [ha]
      exact hnamed
    · exact h.named a x hx
  · intro b
    rw [hname]
    exact hwf b
  · intro b x hx
    rw [hobjs]
    rcases hgain b x hx with hx | ⟨rfl, -⟩
    · exact h.listed_lt b x hx
    · exact hlt
  · intro b x hx
    rcases hgain b x hx with hx | ⟨rfl, hne, -⟩
    · exact h.listed_ne b x hx
    · exact hne
  · intro b x hx
    rw [hinfo]
    rcases hgain b x hx with hx | ⟨rfl, -, hb⟩
    · exact h.listed_partition b x hx
    · exact hb
  · intro b x hx a ha
    rw [hname] at ha
    rw [hget]
    rcases hgain b x hx with hx | ⟨rfl, -⟩
    · have hold := h.listed_stored b x hx a ha
      rw [if_neg]
      · exact hold
      · rintro rfl
        rw [hk] at hold
        cases hold
    · rw [if_pos (hnamed.eq_of_getNodeName ha)]
  · intro a x hx hlive
    rw [hget] at hx
    rw [hinfo] at hlive ⊢
    split_ifs at hx with ha
    · cases hx
      exact hself hlive
    · refine hkeep _ x (h.stored_listed a x hx hlive) fun hkey => ha ?_
      exact hnamed.eq_of_getNodeName (hkey.symm.trans ((h.named a x hx).getNodeName hlive))

/-- A stored node info is dropped. The lists may lose those of its name, and lose it if it has
one. -/
theorem drop (hk : st.get k = some r) (hget : st'.1 = st.1.delete k)
    (hobjs : st'.2.objs = st.2.objs) (hwf : ∀ b, (st'.2.nodeSlices.partition b).WF st.2.nodeName)
    (hlose : ∀ b x, x ∈ st'.2.listed b → x ∈ st.2.listed b ∧
      (x = r → (st.2.info r).objectIsNil = true))
    (hkeep : ∀ b x, x ∈ st.2.listed b → st.2.nodeName x ≠ st.2.nodeName r → x ∈ st'.2.listed b) :
    SnapInv st' := by
  have hget : ∀ a, st'.get a = if a = k then none else st.get a := by
    intro a
    rw [SnapshotStore.get, hget]
    exact st.1.get_delete k a
  have hold : ∀ a x, st'.get a = some x → a ≠ k ∧ st.get a = some x := by
    intro a x hx
    rw [hget] at hx
    split_ifs at hx with ha
    exact ⟨ha, hx⟩
  obtain ⟨hinfo, hname⟩ := congr_objs hobjs
  constructor
  · rw [hobjs]
    exact h.placeHolder_lt
  · rw [hinfo]
    exact h.placeHolder_nil
  · intro a x hx
    rw [hobjs]
    exact h.valid a x (hold a x hx).2
  · intro a a' x hx hx'
    exact h.inj a a' x (hold a x hx).2 (hold a' x hx').2
  · intro a x hx
    rw [hinfo]
    exact h.named a x (hold a x hx).2
  · intro b
    rw [hname]
    exact hwf b
  · intro b x hx
    rw [hobjs]
    exact h.listed_lt b x (hlose b x hx).1
  · intro b x hx
    exact h.listed_ne b x (hlose b x hx).1
  · intro b x hx
    rw [hinfo]
    exact h.listed_partition b x (hlose b x hx).1
  · intro b x hx a ha
    rw [hname] at ha
    obtain ⟨hin, hnil⟩ := hlose b x hx
    have hstored := h.listed_stored b x hin a ha
    rw [hget, if_neg]
    · exact hstored
    · rintro rfl
      obtain rfl := Option.some.inj (hstored.symm.trans hk)
      rw [nodeName, (NodeInfo.objectIsNil_iff _).mp (hnil rfl)] at ha
      cases ha
  · intro a x hx hlive
    obtain ⟨hak, hold⟩ := hold a x hx
    rw [hinfo] at hlive ⊢
    refine hkeep _ x (h.stored_listed a x hold hlive) fun hkey => hak ?_
    exact (h.named k r hk).eq_of_getNodeName
      (hkey.symm.trans ((h.named a x hold).getNodeName hlive))

theorem setNil (hk : st.get k = none) (hr : r < st.2.objs.length)
    (hnil : (st.2.info r).objectIsNil = true) (hfree : r = placeHolder ∨ ∀ a, st.get a ≠ some r) :
    SnapInv (st.set k r) := by
  refine h.store hk hr hfree (named_of_nil hnil k) rfl rfl h.wf ?_ ?_ ?_
  · exact fun _ _ => .inl
  · exact fun _ _ hx _ => hx
  · simp [hnil]

theorem dropNil (hk : st.get k = some r) (hnil : (st.2.info r).objectIsNil = true)
    (d : GoSet NodeName) :
    SnapInv (st.1.delete k, { st.2 with deleted := d }) :=
  h.drop hk rfl rfl h.wf (fun _ _ hx => ⟨hx, fun _ => hnil⟩) fun _ _ hx _ => hx

theorem wf_update (r : Ref) (isAdd b : Bool) :
    ((st.2.update r isAdd).nodeSlices.partition b).WF st.2.nodeName := by
  by_cases hr : r = placeHolder
  · subst hr
    rw [update_placeHolder]
    exact h.wf b
  · rw [update_partition hr]
    split_ifs
    · cases isAdd
      · exact (h.wf b).del r
      · exact (h.wf b).add r
    · exact h.wf b

theorem mem_listed_update (hr : r ≠ placeHolder) (isAdd b : Bool) (x : Ref) :
    x ∈ (st.2.update r isAdd).listed b ↔
      (isAdd = true ∧ (st.2.info r).inPartition = b ∧ x = r) ∨
        x ∈ st.2.listed b ∧
          ((st.2.info r).inPartition = b → st.2.nodeName x ≠ st.2.nodeName r) := by
  rw [listed, update_partition hr]
  split_ifs with hb
  · cases isAdd
    · simpa [hb, op, listed] using (h.wf b).mem_del r x
    · simpa [hb, op, listed] using (h.wf b).mem_add r x
  · simp [hb, listed]

theorem delete (hk : st.get k = some r) : SnapInv (st.delete k r) := by
  by_cases hr : r = placeHolder
  · subst hr
    have := h.dropNil hk h.placeHolder_nil st.2.deleted
    rw [SnapshotStore.delete, update_placeHolder]
    exact this
  have hmem := h.mem_listed_update hr false
  simp only [Bool.false_eq_true, false_and, false_or] at hmem
  apply h.drop hk rfl (update_objs ..) (h.wf_update r false)
  · intro b x hx
    obtain ⟨hin, hkey⟩ := (hmem b x).mp hx
    refine ⟨hin, ?_⟩
    rintro rfl
    exact absurd rfl (hkey (h.listed_partition b x hin))
  · exact fun b x hx hne => (hmem b x).mpr ⟨hx, fun _ => hne⟩

theorem add (hk : st.get k = none) (hr : r ≠ placeHolder) (hlt : r < st.2.objs.length)
    (hfree : ∀ a, st.get a ≠ some r) (hnamed : (st.2.info r).Named k) : SnapInv (st.add k r) := by
  have hmem := h.mem_listed_update hr true
  apply h.store hk hlt (.inr hfree) hnamed rfl (update_objs ..) (h.wf_update r true)
  · intro b x hx
    rcases (hmem b x).mp hx with ⟨-, hb, rfl⟩ | ⟨hx, -⟩
    · exact .inr ⟨rfl, hr, hb⟩
    · exact .inl hx
  · exact fun b x hx hne => (hmem b x).mpr (.inr ⟨hx, fun _ => hne⟩)
  · exact fun _ => (hmem _ r).mpr (.inl ⟨rfl, rfl, rfl⟩)

end SnapInv

/-- A nameless list entry is backed by a stored node info of the same partition. -/
def NilCovered (st : SnapshotStore) : Prop :=
  ∀ b, ∀ r ∈ st.2.listed b, (st.2.info r).objectIsNil = true →
    ∃ k r', st.get k = some r' ∧ r' ≠ placeHolder ∧ (st.2.info r').objectIsNil = true ∧
      (st.2.info r').inPartition = b

def NoNil (st : SnapshotStore) : Prop :=
  ∀ b, ∀ r ∈ st.2.listed b, (st.2.info r).objectIsNil = false

namespace NilCovered

variable {st : SnapshotStore} {k : NodeName} {r : Ref}

theorem of_noNil (h : NoNil st) : NilCovered st := by
  intro b x hx hnil
  rw [h b x hx] at hnil
  cases hnil

theorem noNil (h : NilCovered st)
    (hstored : ∀ k r, st.get k = some r → r ≠ placeHolder → (st.2.info r).objectIsNil = false) :
    NoNil st := by
  intro b x hx
  rw [Bool.eq_false_iff]
  intro hnil
  obtain ⟨k, r', hk, hne, hnil', -⟩ := h b x hx hnil
  rw [hstored k r' hk hne] at hnil'
  cases hnil'

theorem delete (h : NilCovered st) (hi : SnapInv st) (hk : st.get k = some r) :
    NilCovered (st.delete k r) := by
  intro b x hx hnil
  have hold : x ∈ st.2.listed b ∧ (r ≠ placeHolder → (st.2.info r).inPartition = b →
      st.2.nodeName x ≠ st.2.nodeName r) := by
    by_cases hr : r = placeHolder
    · subst hr
      simp only [SnapshotStore.delete, update_placeHolder] at hx
      exact ⟨hx, fun hne => absurd rfl hne⟩
    · obtain ⟨hx, hkey⟩ := ((hi.mem_listed_update hr false b x).mp hx).resolve_left (by simp)
      exact ⟨hx, fun _ => hkey⟩
  simp only [SnapshotStore.delete, update_info] at hnil ⊢
  obtain ⟨a, r', ha, hne, hnil', hb⟩ := h b x hold.1 hnil
  have hak : a ≠ k := by
    rintro rfl
    obtain rfl := Option.some.inj (ha.symm.trans hk)
    apply hold.2 hne hb
    rw [nodeName, nodeName, (NodeInfo.objectIsNil_iff _).mp hnil,
      (NodeInfo.objectIsNil_iff _).mp hnil']
  exact ⟨a, r', (st.1.get_delete k a).trans ((if_neg hak).trans ha), hne, hnil', hb⟩

theorem alloc (h : NilCovered st) (hi : SnapInv st) (n : NodeInfo) : NilCovered (st.alloc n).1 := by
  have hinfo : ∀ x, x < st.2.objs.length → (st.alloc n).1.2.info x = st.2.info x :=
    fun x hx => info_append n hx
  intro b x hx hnil
  rw [hinfo x (hi.listed_lt b x hx)] at hnil
  obtain ⟨a, r', ha, hne, hnil', hb⟩ := h b x hx hnil
  rw [← hinfo r' (hi.valid a r' ha)] at hnil' hb
  exact ⟨a, r', ha, hne, hnil', hb⟩

theorem add (h : NilCovered st) (hi : SnapInv st) (hk : st.get k = none) :
    NilCovered (st.add k r) := by
  intro b x hx hnil
  have hold : (r ≠ placeHolder ∧ (st.2.info r).inPartition = b ∧ x = r) ∨ x ∈ st.2.listed b := by
    by_cases hr : r = placeHolder
    · subst hr
      simp only [SnapshotStore.add, update_placeHolder] at hx
      exact Or.inr hx
    · rcases (hi.mem_listed_update hr true b x).mp hx with ⟨-, hb, hxr⟩ | ⟨hx, -⟩
      · exact Or.inl ⟨hr, hb, hxr⟩
      · exact Or.inr hx
  simp only [SnapshotStore.add, update_info] at hnil ⊢
  rcases hold with ⟨hr, hb, rfl⟩ | hx
  · exact ⟨k, x, (st.1.get_set k k x).trans (if_pos rfl), hr, hnil, hb⟩
  · obtain ⟨a, r', ha, hne, hnil', hb⟩ := h b x hx hnil
    have hak : a ≠ k := by
      rintro rfl
      rw [hk] at ha
      cases ha
    exact ⟨a, r', (st.1.get_set k a r).trans ((if_neg hak).trans ha), hne, hnil', hb⟩

end NilCovered

end GodelScheduler.SchedulerCache
