import GodelScheduler.Splay.OrderedMap

/-!
# Partition queries over pods

What a partition of a splay tree of pods returns: the CPU and memory requests of
exactly the stored pods below the partition object, and nothing if there are none.
-/

namespace GodelScheduler

open Library Splay

namespace PodInfo

def below (m : GoMap String PodInfo) (o : PodInfo → Bool) : List PodInfo :=
  (m.entries.map Sigma.snd).filter o

variable {s : Splay PodInfo PodMaintainableInfo} {t : SlotTree} {m : GoMap String PodInfo}

theorem perm_objs (h : IsSplay requests s t) (hm : ∀ k, s.contents k = m.lookup k) :
    (s.objs t.inorder).Perm (m.entries.map Sigma.snd) := by
  have hkey : ∀ e ∈ m.entries, e.2.podKey = e.1 ∧ e.2 ∈ s.objs t.inorder := by
    intro e he
    refine h.contents_eq_some.mp ?_
    rw [hm]
    exact AList.mem_lookup_iff.mpr he
  have hnodup : (s.objs t.inorder).Nodup := by
    refine List.Pairwise.imp ?_ h.sorted
    rintro a b hba rfl
    exact ordered.irrefl a hba
  have hnodup' : (m.entries.map Sigma.snd).Nodup := by
    refine (List.NodupKeys.nodup m.nodupKeys).map_on fun e he e' he' heq => ?_
    obtain ⟨k, a⟩ := e
    obtain ⟨k', a'⟩ := e'
    obtain rfl : a = a' := heq
    obtain rfl : k = k' := (hkey _ he).1.symm.trans (hkey _ he').1
    rfl
  refine (List.perm_ext_iff_of_nodup hnodup hnodup').mpr fun a => ?_
  rw [List.mem_map]
  constructor
  · intro ha
    have hlookup := h.contents_eq_some.mpr ⟨rfl, ha⟩
    rw [hm] at hlookup
    exact ⟨⟨_, a⟩, AList.mem_lookup_iff.mp hlookup, rfl⟩
  · rintro ⟨e, he, rfl⟩
    exact (hkey e he).2

theorem SumsTo.perm {pods pods' : List PodInfo} {info : MaintainInfo PodMaintainableInfo}
    (h : SumsTo SumsRequests pods info) (hperm : pods.Perm pods') :
    SumsTo SumsRequests pods' info := by
  cases info with
  | nil =>
    obtain rfl : pods = [] := h
    exact hperm.nil_eq.symm
  | forLookup => exact h
  | own o =>
    obtain ⟨hne, hcpu, hmemory⟩ := h
    exact ⟨fun hnil => hne (hnil ▸ hperm).eq_nil, hcpu.trans (sums_perm hperm).1,
      hmemory.trans (sums_perm hperm).2⟩

/-- Over every run that inserts only absent keys, a partition returns the requests of exactly the
stored pods below the partition object. -/
theorem partition_sums_below (ops : List (Op PodInfo)) (hops : Along record InsertsNew ∅ ops)
    (o : PodInfo → Bool)
    (ho : ∀ a b k k', (run record ∅ ops).lookup k = some a → (run record ∅ ops).lookup k' = some b →
      compare b a → o b → o a) :
    ∃ (s s' : Splay PodInfo PodMaintainableInfo) (info : MaintainInfo PodMaintainableInfo),
      ops.foldlM apply newSplay = some s ∧ s.partition o = some (s', info) ∧
      SumsTo SumsRequests (below (run record ∅ ops) o) info := by
  obtain ⟨s, t, hs, h, hm⟩ := exists_isSplay_run ordered requests hops
  obtain ⟨s', t', info, hs', -, -, hsums⟩ := h.partition o
  have hlookup : ∀ a ∈ s.objs t.inorder, (run record ∅ ops).lookup a.podKey = some a := by
    intro a ha
    rw [← hm]
    exact h.contents_eq_some.mpr ⟨rfl, ha⟩
  refine ⟨s, s', info, hs, hs', SumsTo.perm (hsums fun a ha b hb => ?_) ((perm_objs h hm).filter o)⟩
  exact ho a b _ _ (hlookup a ha) (hlookup b hb)

/-- Two pods are left below the priority, and the sum of their memory wraps around. -/
theorem partition_podOps : Along record InsertsNew ∅ podOps ∧
    ∃ (s s' : Splay PodInfo PodMaintainableInfo) (info : PodMaintainableInfo),
      podOps.foldlM apply newSplay = some s ∧
      s.partition (PodPartitionInfo.compare ⟨6⟩) = some (s', .own info) ∧
      info.milliCPU = 200 ∧ info.memory = -6 * 2 ^ 60 := by
  have hops : Along record InsertsNew ∅ podOps := by decide
  obtain ⟨s, s', info, hs, hs', hsums⟩ := partition_sums_below podOps hops
    (PodPartitionInfo.compare ⟨6⟩) fun a b _ _ _ _ hba hb =>
      PodPartitionInfo.compare_of_compare hba hb
  cases info with
  | nil => cases hsums
  | forLookup => exact hsums.elim
  | own info => exact ⟨hops, s, s', info, hs, hs', hsums.2⟩

end PodInfo

end GodelScheduler
