import GodelScheduler.Binder.UnitInfo

/-!
# The embedded binder

In embedded mode the scheduler hands a scheduled unit to a binder of its own.
The binder validates the request, asks the node validator, if there is one,
about every node the request names, and then issues `Bind` calls pod by pod.
The calls are kept in a log, since what they name is what the API server sees.
`mem_calls_bindUnit` says which calls are issued.
-/

namespace GodelScheduler.Binder.Embedded

open Library

def nodeText (node : Option NodeName) : String := (node.map NodeName.val).getD ""

/-- One call of `Bind`; an empty target node is `none`. -/
structure BindCall where
  ns : String
  name : String
  uid : String
  targetNode : Option NodeName
  deriving DecidableEq

structure BindRequest where
  pods : List Pod
  nodeName : Option NodeName := none
  /-- The target node of a pod by its UID; the entry may be empty. -/
  nodeNames : GoMap String (Option NodeName)

namespace BindRequest

def nodeNameFor (r : BindRequest) (uid : String) : Option NodeName :=
  if 0 < r.nodeNames.len then
    match r.nodeNames.lookup uid with
    | some node => node
    | none => r.nodeName
  else r.nodeName

def uniqueNodeNames (o : RangeOrder String) (r : BindRequest) : List (Option NodeName) :=
  if 0 < r.nodeNames.len then
    ((o.list r.nodeNames.keys).filterMap r.nodeNames.lookup).eraseDups
  else if r.nodeName.isSome then [r.nodeName]
  else []

def errInvalidRequest : String := "invalid bind request"

def validate (r : BindRequest) : Except String Unit :=
  if r.pods = [] then .error s!"{errInvalidRequest}: Pods must not be empty"
  else if r.nodeName.isNone && r.nodeNames.len == 0 then
    .error s!"{errInvalidRequest}: NodeName must not be empty"
  else if 0 < r.nodeNames.len then
    match r.pods.find? fun pod => (r.nodeNames.lookup pod.uid).isNone with
    | some pod =>
      .error (s!"{errInvalidRequest}: NodeNames missing entry for pod {pod.ns}/{pod.name} " ++
        s!"(UID {pod.uid})")
    | none => .ok ()
  else .ok ()

end BindRequest

structure NodeValidator where
  schedulerName : String
  /-- A failed lookup, no node, or the node's scheduler-name annotation. -/
  nodeGetter : Option NodeName → Except String (Option String)

def NodeValidator.validate (v : NodeValidator) (node : Option NodeName) : Except String Unit :=
  match v.nodeGetter node with
  | .error err => .error s!"failed to get node \"{nodeText node}\": {err}"
  | .ok none => .error s!"node \"{nodeText node}\" not found (nil)"
  | .ok (some owner) =>
    -- A node without the annotation has not been given to any scheduler.
    if owner = "" then .ok ()
    else if owner ≠ v.schedulerName then
      .error (s!"node \"{nodeText node}\" belongs to scheduler \"{owner}\", " ++
        s!"not \"{v.schedulerName}\"")
    else .ok ()

/-- The answer to one `Bind` call: conflicts, server timeouts and throttling are transient. -/
inductive BindAnswer
  | bound
  | transient (err : String)
  | failed (err : String)

/-- What happens around one `BindUnit`: the pods are numbered as in the request, the attempts for
one pod from zero. -/
structure World where
  /-- The context is done before the pod's turn. -/
  done : ℕ → Bool
  answer : ℕ → ℕ → BindAnswer
  /-- The context gets done while the binder waits for the next attempt. -/
  doneInBackoff : ℕ → ℕ → Bool
  /-- The error of the context. -/
  ctxErr : String

structure EmbeddedBinder where
  running : Bool
  nodeValidator : Option NodeValidator
  maxBindRetries : ℤ

structure BindResult where
  successfulPods : List String := []
  failedPods : GoMap String String := ∅

/-- `maxRetries` of `bindPodToNode`. -/
def EmbeddedBinder.maxRetries (eb : EmbeddedBinder) : ℕ :=
  if eb.maxBindRetries ≤ 0 then 1 else eb.maxBindRetries.toNat

/-- The loop of `bindPodToNode` with the number of attempts left and of those made; it gives the
number of calls and the error. -/
def bindAttempts (w : World) (i : ℕ) (gaveUp : String → String) :
    ℕ → ℕ → String → ℕ × Except String Unit
  | 0, attempt, lastErr => (attempt, .error (gaveUp lastErr))
  | left + 1, attempt, _ =>
    match w.answer i attempt with
    | .bound => (attempt + 1, .ok ())
    | .failed err => (attempt + 1, .error err)
    | .transient err =>
      if w.doneInBackoff i attempt then (attempt + 1, .error w.ctxErr)
      else bindAttempts w i gaveUp left (attempt + 1) err

def binding (pod : Pod) (node : Option NodeName) : BindCall := ⟨pod.ns, pod.name, pod.uid, node⟩

section

variable (eb : EmbeddedBinder) (w : World) (o : RangeOrder String) (r : BindRequest)

def bindPodToNode (i : ℕ) (pod : Pod) (node : Option NodeName) :
    List BindCall × Except String Unit :=
  let gaveUp := fun lastErr =>
    s!"failed to bind pod {pod.ns}/{pod.name} after {eb.maxRetries} attempts: {lastErr}"
  let attempts := bindAttempts w i gaveUp eb.maxRetries 0 ""
  (List.replicate attempts.1 (binding pod node), attempts.2)

def bindNext (out : List BindCall × BindResult) (next : Pod × ℕ) : List BindCall × BindResult :=
  let (pod, i) := next
  if w.done i then
    (out.1, { out.2 with failedPods := out.2.failedPods.insert pod.uid w.ctxErr })
  else
    let (calls, err) := bindPodToNode eb w i pod (r.nodeNameFor pod.uid)
    match err with
    | .error err =>
      (out.1 ++ calls, { out.2 with failedPods := out.2.failedPods.insert pod.uid err })
    | .ok () =>
      (out.1 ++ calls, { out.2 with successfulPods := out.2.successfulPods ++ [pod.uid] })

/-- The first unique node name the validator refuses. -/
def refusedNode : Option String :=
  match eb.nodeValidator with
  | none => none
  | some v => (r.uniqueNodeNames o).findSome? fun node =>
      match v.validate node with
      | .error err => some s!"node validation failed for \"{nodeText node}\": {err}"
      | .ok () => none

def bindUnit : List BindCall × Except String BindResult :=
  if !eb.running then ([], .error "binder is not running")
  else
    match r.validate with
    | .error err => ([], .error err)
    | .ok () =>
      match refusedNode eb o r with
      | some err => ([], .error err)
      | none =>
        let out := r.pods.zipIdx.foldl (bindNext eb w r) ([], {})
        (out.1, .ok out.2)

variable {eb w o r}

theorem le_bindAttempts (i : ℕ) (gaveUp : String → String) (left attempt : ℕ) (err : String) :
    attempt ≤ (bindAttempts w i gaveUp left attempt err).1 := by
  induction left generalizing attempt err with
  | zero => exact le_rfl
  | succ left ih =>
    unfold bindAttempts
    cases w.answer i attempt with
    | bound => exact Nat.le_succ attempt
    | failed err => exact Nat.le_succ attempt
    | transient err =>
      split_ifs
      · exact Nat.le_succ attempt
      · exact (Nat.le_succ attempt).trans (ih (attempt + 1) err)

variable (eb w) in
/-- Whatever the retry limit is set to, a first call is made. -/
theorem bindAttempts_pos (i : ℕ) (gaveUp : String → String) :
    0 < (bindAttempts w i gaveUp eb.maxRetries 0 "").1 := by
  obtain ⟨left, hleft⟩ : ∃ left, eb.maxRetries = left + 1 := by
    apply Nat.exists_eq_succ_of_ne_zero
    unfold EmbeddedBinder.maxRetries
    split_ifs <;> omega
  rw [hleft, bindAttempts]
  cases w.answer i 0 with
  | bound => exact Nat.one_pos
  | failed err => exact Nat.one_pos
  | transient err =>
    split_ifs
    · exact Nat.one_pos
    · exact le_bindAttempts i gaveUp left 1 err

variable {call : BindCall} {out : List BindCall × BindResult}

theorem mem_calls_bindPodToNode {i : ℕ} {pod : Pod} {node : Option NodeName} :
    call ∈ (bindPodToNode eb w i pod node).1 ↔ call = binding pod node := by
  have hpos := bindAttempts_pos eb w i fun lastErr =>
    s!"failed to bind pod {pod.ns}/{pod.name} after {eb.maxRetries} attempts: {lastErr}"
  simp only [bindPodToNode, List.mem_replicate]
  exact ⟨fun h => h.2, fun h => ⟨hpos.ne', h⟩⟩

theorem mem_calls_bindNext {next : Pod × ℕ} :
    call ∈ (bindNext eb w r out next).1 ↔ call ∈ out.1 ∨
      w.done next.2 = false ∧ call = binding next.1 (r.nodeNameFor next.1.uid) := by
  obtain ⟨pod, i⟩ := next
  cases hdone : w.done i with
  | true => simp [bindNext, hdone]
  | false =>
    have hcalls : (bindNext eb w r out (pod, i)).1 =
        out.1 ++ (bindPodToNode eb w i pod (r.nodeNameFor pod.uid)).1 := by
      simp only [bindNext, hdone, Bool.false_eq_true, if_false]
      cases (bindPodToNode eb w i pod (r.nodeNameFor pod.uid)).2 <;> rfl
    rw [hcalls, List.mem_append, mem_calls_bindPodToNode]
    simp

theorem mem_calls_foldl_bindNext {pods : List (Pod × ℕ)} :
    call ∈ (pods.foldl (bindNext eb w r) out).1 ↔ call ∈ out.1 ∨
      ∃ next ∈ pods, w.done next.2 = false ∧ call = binding next.1 (r.nodeNameFor next.1.uid) := by
  refine foldl_iff_or (Q := fun out => call ∈ out.1) (fun out next => ?_) pods out
  exact mem_calls_bindNext

theorem refusedNode_eq_none_iff :
    refusedNode eb o r = none ↔ ∀ v, eb.nodeValidator = some v →
      ∀ node ∈ r.uniqueNodeNames o, v.validate node = .ok () := by
  unfold refusedNode
  cases eb.nodeValidator with
  | none => simp
  | some v =>
    simp only [List.findSome?_eq_none_iff, Option.some.injEq, forall_eq']
    refine forall₂_congr fun node _ => ?_
    cases v.validate node with
    | error err => simp
    | ok _ => simp

/-- Which calls a request leads to: the binder runs, the request is valid and no node of it is
refused; then each pod whose turn comes in time is bound to the node the request names for it. -/
theorem mem_calls_bindUnit :
    call ∈ (bindUnit eb w o r).1 ↔
      eb.running = true ∧ r.validate = .ok () ∧ refusedNode eb o r = none ∧
        ∃ i pod, r.pods[i]? = some pod ∧ w.done i = false ∧
          call = binding pod (r.nodeNameFor pod.uid) := by
  unfold bindUnit
  cases eb.running with
  | false => simp
  | true =>
    cases r.validate with
    | error err => simp
    | ok _ =>
      cases refusedNode eb o r with
      | some err => simp
      | none =>
        simp only [Bool.not_true, Bool.false_eq_true, if_false, mem_calls_foldl_bindNext,
          List.not_mem_nil, false_or, true_and]
        constructor
        · rintro ⟨⟨pod, i⟩, hmem, hcall⟩
          exact ⟨i, pod, List.mem_zipIdx_iff_getElem?.mp hmem, hcall⟩
        · rintro ⟨i, pod, hget, hcall⟩
          exact ⟨(pod, i), List.mem_zipIdx_iff_getElem?.mpr hget, hcall⟩

end

end GodelScheduler.Binder.Embedded
