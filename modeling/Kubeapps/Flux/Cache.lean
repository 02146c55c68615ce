/-
  The resource watcher cache of the flux plugin
  (cmd/kubeapps-apis/plugins/fluxv2/packages/v1alpha1/cache.go).

  `processEvents` starts one goroutine for each Added, Modified or Deleted event and does not
  wait for it. `onAddOrModify` is three steps, `Del`, the computation of the value (a download
  and a parse), and `Set`; `onDelete` is one `Del`. The steps of all handlers interleave freely.
  Redis operations are atomic and succeed.

  What the cache is for: once all handlers have finished, the entry of a key is what the last
  event of that key calls for (`Consistent`). On the code it depends on the schedule
  (`stale_after_delete`). `consistent_of_no_late_write` gives the condition on the steps: once
  the handler of the last event of a key has made its last Redis write, no other handler of
  that key writes anything else.
-/
import Mathlib.Logic.Function.Basic
import Kubeapps.Lib.Steps
import Kubeapps.Flux.Repository

namespace Kubeapps.Flux

open Kubeapps.Lib

variable {β : Type}

/-! ## Events, handlers and the cache -/

/-- `watch.EventType`. Everything but the first three is ignored. -/
inductive EventType where
  | added
  | modified
  | deleted
  | other (type : String)
  deriving DecidableEq, Repr

/-- `watch.Event`. `object` is `none` when it is not an `*unstructured.Unstructured`. -/
structure Event where
  type : EventType
  object : Option Value

/-- `cacheConfig`, with the key function. -/
structure CacheConfig (β : Type) where
  redisKeyFor : Value → Except String String
  onAdd : String → Value → Go (Option β)
  onModify : String → Value → Go (Option β)
  onDelete : String → Value → Except String Bool

/-- The configuration `NewServer` builds. -/
def fluxConfig (env : Env β) : CacheConfig β where
  redisKeyFor := redisKeyFor env "helmrepositories"
  onAdd := onAddOrModifyRepo env
  onModify := onAddOrModifyRepo env
  onDelete := onDeleteRepo

/-- Which handler `processEvents` starts. -/
inductive Task where
  | onAddOrModify (add : Bool)
  | onDelete
  deriving DecidableEq, Repr

/-- Where a handler stands. -/
inductive Pc (β : Type) where
  | entry
  | computing
  | setting (value : β)
  | finished

def Pc.isFinished : Pc β → Bool
  | .finished => true
  | _ => false

theorem Pc.isFinished_iff {p : Pc β} : p.isFinished = true ↔ p = .finished := by
  cases p <;> simp [isFinished]

/-- A handler goroutine with the object it was started on. -/
structure Handler (β : Type) where
  task : Task
  object : Value
  pc : Pc β

/-- The events not yet received, the handlers in the order they were started, the cache, and
    whether a handler has panicked. -/
structure State (β : Type) where
  queue : List Event
  handlers : List (Handler β)
  cache : String → Option β
  crashed : Bool

def init (cache : String → Option β) (events : List Event) : State β :=
  ⟨events, [], cache, false⟩

/-- The next step of `processEvents`, or of handler `i`. -/
inductive Label where
  | receive
  | handler (i : Nat)
  deriving DecidableEq, Repr

/-- The handler `processEvents` starts for an event, if any. -/
def spawn (e : Event) : Option (Handler β) :=
  match e.type, e.object with
  | .added, some obj => some ⟨.onAddOrModify true, obj, .entry⟩
  | .modified, some obj => some ⟨.onAddOrModify false, obj, .entry⟩
  | .deleted, some obj => some ⟨.onDelete, obj, .entry⟩
  | _, _ => none

/-- The value the handler's hook computes for its object. -/
def hook (cfg : CacheConfig β) (add : Bool) (key : String) (obj : Value) : Go (Option β) :=
  if add then cfg.onAdd key obj else cfg.onModify key obj

/-- One step of a handler on the cache: where it stands then, and the cache. `none` in
    place of the program counter is a panic. -/
def handlerStep (cfg : CacheConfig β) (h : Handler β) (cache : String → Option β) :
    Option (Option (Pc β) × (String → Option β)) :=
  match cfg.redisKeyFor h.object with
  | .error _ =>
      match h.pc with
      | .entry => some (some .finished, cache)
      | _ => none
  | .ok key =>
      match h.task, h.pc with
      | .onAddOrModify _, .entry => some (some .computing, Function.update cache key none)
      | .onAddOrModify add, .computing =>
          match hook cfg add key h.object with
          | .error (.error _) => some (some .finished, cache)
          | .error (.panic _) => some (none, cache)
          | .ok none => some (some .finished, cache)
          | .ok (some v) => some (some (.setting v), cache)
      | .onAddOrModify _, .setting v =>
          some (some .finished, Function.update cache key (some v))
      | .onDelete, .entry =>
          match cfg.onDelete key h.object with
          | .ok true => some (some .finished, Function.update cache key none)
          | _ => some (some .finished, cache)
      | _, _ => none

/-- One step of the process. Nothing runs after a panic. -/
def step (cfg : CacheConfig β) (s : State β) (l : Label) : Option (State β) :=
  if s.crashed then none
  else
    match l with
    | .receive =>
        match s.queue with
        | [] => none
        | e :: rest => some { s with queue := rest, handlers := s.handlers ++ (spawn e).toList }
    | .handler i => do
        let h ← s.handlers[i]?
        let (pc, cache) ← handlerStep cfg h s.cache
        match pc with
        | none => some { s with crashed := true }
        | some pc => some { s with handlers := s.handlers.set i { h with pc := pc }, cache := cache }

/-! ## What the cache is for -/

/-- The key of a handler's object, and of the object of an event that starts one. -/
def Handler.key (cfg : CacheConfig β) (h : Handler β) : Option String :=
  (cfg.redisKeyFor h.object).toOption

/-- The entry the handler's event calls for: nothing after a deletion or when the object is
    not ready or does not index, otherwise the value computed for it. -/
def Handler.wanted (cfg : CacheConfig β) (h : Handler β) : Option β :=
  match h.task, cfg.redisKeyFor h.object with
  | .onAddOrModify add, .ok key =>
      match hook cfg add key h.object with
      | .ok v => v
      | .error _ => none
  | _, _ => none

/-- The handlers of the events of key `k`, as they are started. -/
def startedFor (cfg : CacheConfig β) (k : String) (events : List Event) : List (Handler β) :=
  (events.filterMap spawn).filter fun h => h.key cfg = some k

/-- The last event of `k` decides its entry; a key without events keeps the one it had. -/
def Consistent (cfg : CacheConfig β) (cache₀ : String → Option β) (events : List Event)
    (cache : String → Option β) : Prop :=
  ∀ k, cache k =
    match (startedFor cfg k events).getLast? with
    | none => cache₀ k
    | some h => h.wanted cfg

/-- All events received, all handlers done. -/
def State.Done (s : State β) : Prop :=
  s.queue = [] ∧ s.crashed = false ∧ ∀ h ∈ s.handlers, h.pc = .finished

/-! ## The condition -/

/-- What the next step of the handler writes to the entry of its key, if it writes. -/
def Handler.nextWrite (h : Handler β) : Option (Option β) :=
  match h.task, h.pc with
  | .onAddOrModify _, .entry => some none
  | .onAddOrModify _, .setting v => some (some v)
  | .onDelete, .entry => some none
  | _, _ => none

/-- The handler makes no further Redis write. -/
def Handler.Settled (cfg : CacheConfig β) (h : Handler β) : Prop :=
  h.pc = .finished ∨ (h.pc = .computing ∧ h.wanted cfg = none)

/-- Handler `j` is that of the last event of key `k`, received or not. -/
def IsLast (cfg : CacheConfig β) (s : State β) (k : String) (j : Nat) : Prop :=
  (∀ i h, j < i → s.handlers[i]? = some h → h.key cfg ≠ some k) ∧
    ∀ e ∈ s.queue, ∀ h, spawn e = some h → Handler.key cfg (β := β) h ≠ some k

/-- The condition on a step: once the handler of the last event of a key has made its last
    Redis write, another handler of that key writes only what that event calls for. -/
def NoLateWrite (cfg : CacheConfig β) (s : State β) : Label → Prop
  | .receive => True
  | .handler i =>
      ∀ h, s.handlers[i]? = some h → ∀ j h' k, j ≠ i → s.handlers[j]? = some h' →
        h.key cfg = some k → h'.key cfg = some k → IsLast cfg s k j → h'.Settled cfg →
        ∀ w, h.nextWrite = some w → w = h'.wanted cfg

/-! ## What a handler step can do -/

/-- The handler as it was started. -/
def Handler.start (h : Handler β) : Handler β := { h with pc := .entry }

theorem spawn_start {e : Event} {h : Handler β} (hs : spawn e = some h) : h.start = h := by
  unfold spawn at hs
  split at hs <;> cases hs <;> rfl

/-- The value a handler is about to set is the one its event calls for. -/
def Handler.Valid (cfg : CacheConfig β) (h : Handler β) : Prop :=
  ∀ v, h.pc = .setting v → h.wanted cfg = some v

/-- A step writes to the entry of its own key or leaves the cache alone. A write after which
    the handler makes no other leaves what its event calls for. -/
theorem handlerStep_cases {cfg : CacheConfig β} (hdel : ∀ k o, cfg.onDelete k o = .ok true)
    {h : Handler β} {cache cache' : String → Option β} {pc : Option (Pc β)}
    (hv : h.Valid cfg) (hs : handlerStep cfg h cache = some (pc, cache')) :
    (∀ p, pc = some p → Handler.Valid cfg { h with pc := p }) ∧
    ((cache' = cache ∧ ∀ p k, pc = some p → h.key cfg = some k →
        Handler.Settled cfg { h with pc := p } → h.Settled cfg) ∨
      (∃ k w p, h.key cfg = some k ∧ h.nextWrite = some w ∧ pc = some p ∧
        cache' = Function.update cache k w ∧
        (Handler.Settled cfg { h with pc := p } → w = h.wanted cfg))) := by
  obtain ⟨task, obj, hpc⟩ := h
  unfold handlerStep at hs
  cases hkey : cfg.redisKeyFor obj with
  | error e =>
      simp only [hkey] at hs
      split at hs
      · cases hs
        refine ⟨?_, Or.inl ⟨rfl, ?_⟩⟩
        · intro p hp v hset
          cases hp
          cases hset
        · intro p k _ hk
          simp [Handler.key, hkey, Except.toOption] at hk
      · cases hs
  | ok key =>
      have hk : Handler.key cfg (β := β) ⟨task, obj, hpc⟩ = some key := by
        simp [Handler.key, hkey, Except.toOption]
      simp only [hkey] at hs
      split at hs
      · -- `Del` of `onAddOrModify`
        cases hs
        refine ⟨?_, Or.inr ⟨key, none, .computing, hk, rfl, rfl, rfl, ?_⟩⟩
        · intro p hp v hset
          cases hp
          cases hset
        · rintro (h | ⟨_, h⟩)
          · cases h
          · exact h.symm
      · -- the computation of the value
        rename_i add
        split at hs <;> rename_i hhook <;> cases hs
        · refine ⟨?_, Or.inl ⟨rfl, ?_⟩⟩
          · intro p hp v hset
            cases hp
            cases hset
          · intro p k _ _ _
            exact Or.inr ⟨rfl, by simp [Handler.wanted, hkey, hhook]⟩
        · exact ⟨(fun p hp => by cases hp), Or.inl ⟨rfl, fun p k hp => by cases hp⟩⟩
        · refine ⟨?_, Or.inl ⟨rfl, ?_⟩⟩
          · intro p hp v hset
            cases hp
            cases hset
          · intro p k _ _ _
            exact Or.inr ⟨rfl, by simp [Handler.wanted, hkey, hhook]⟩
        · rename_i v
          refine ⟨?_, Or.inl ⟨rfl, ?_⟩⟩
          · intro p hp v' hset
            cases hp
            cases hset
            simp [Handler.wanted, hkey, hhook]
          · rintro p k hp _ (h | ⟨h, _⟩) <;> cases hp <;> cases h
      · -- `Set`
        rename_i add v
        cases hs
        refine ⟨?_, Or.inr ⟨key, some v, .finished, hk, rfl, rfl, rfl, ?_⟩⟩
        · intro p hp v hset
          cases hp
          cases hset
        · intro _
          exact (hv v rfl).symm
      · -- `Del` of `onDelete`
        simp only [hdel] at hs
        cases hs
        refine ⟨?_, Or.inr ⟨key, none, .finished, hk, rfl, rfl, rfl, ?_⟩⟩
        · intro p hp v hset
          cases hp
          cases hset
        · intro _
          simp [Handler.wanted]
      · cases hs

/-! ## The invariant -/

/-- The handlers are those of the events, as far as received. A key without events is
    untouched. Where the handler of the last event of a key makes no further write, the
    entry is what that event calls for. -/
structure Inv (cfg : CacheConfig β) (cache₀ : String → Option β) (events : List Event)
    (s : State β) : Prop where
  valid : ∀ h ∈ s.handlers, h.Valid cfg
  started : s.handlers.map Handler.start ++ s.queue.filterMap spawn = events.filterMap spawn
  untouched : ∀ k, (∀ h ∈ events.filterMap spawn, Handler.key cfg (β := β) h ≠ some k) →
    s.cache k = cache₀ k
  last : ∀ (k : String) (j : Nat) (h : Handler β), s.handlers[j]? = some h →
    h.key cfg = some k → IsLast cfg s k j → h.Settled cfg → s.cache k = h.wanted cfg

theorem inv_init (cfg : CacheConfig β) (cache₀ : String → Option β) (events : List Event) :
    Inv cfg cache₀ events (init cache₀ events) :=
  ⟨by simp [init], by simp [init], fun _ _ => rfl, fun k j h hj => by simp [init] at hj⟩

theorem inv_receive {cfg : CacheConfig β} {cache₀ : String → Option β} {events : List Event}
    {s : State β} (hi : Inv cfg cache₀ events s) {e : Event} {rest : List Event}
    (hq : s.queue = e :: rest) :
    Inv cfg cache₀ events
      { s with queue := rest, handlers := s.handlers ++ (spawn e).toList } := by
  have hentry : ∀ h : Handler β, spawn e = some h → h.pc = .entry := by
    intro h hs
    rw [← spawn_start hs]
    rfl
  refine ⟨?_, ?_, hi.untouched, ?_⟩
  · intro h hh
    rcases List.mem_append.mp hh with hh | hh
    · exact hi.valid h hh
    · intro v hset
      rw [hentry h (by simpa using hh)] at hset
      cases hset
  · have hst := hi.started
    rw [hq, List.filterMap_cons] at hst
    cases hs : (spawn e : Option (Handler β)) with
    | none =>
        rw [hs] at hst
        simpa using hst
    | some h =>
        rw [hs] at hst
        simpa [spawn_start hs] using hst
  · intro k j h hj hk hlast hset
    rcases lt_or_ge j s.handlers.length with hlt | hge
    · rw [List.getElem?_append_left hlt] at hj
      refine hi.last k j h hj hk ⟨?_, ?_⟩ hset
      · intro i h' hlt' hi'
        refine hlast.1 i h' hlt' ?_
        rw [List.getElem?_append_left (List.getElem?_eq_some_iff.mp hi').1]
        exact hi'
      · -- the event just received has another key: its handler would come after `j`
        intro e' he' h' hs'
        rw [hq] at he'
        rcases List.mem_cons.mp he' with rfl | he'
        · refine hlast.1 s.handlers.length h' hlt ?_
          simp [hs']
        · exact hlast.2 e' he' h' hs'
    · -- the handler just started is at its entry
      rw [List.getElem?_append_right hge] at hj
      have hmem : h ∈ (spawn e : Option (Handler β)).toList := List.mem_of_getElem? hj
      rcases hset with hset | ⟨hset, _⟩ <;> rw [hentry h (by simpa using hmem)] at hset <;>
        cases hset

/-- The program counter is no part of a handler's key or of what its event calls for. -/
theorem isLast_set {cfg : CacheConfig β} {s : State β} {i : Nat} {h : Handler β} {p : Pc β}
    {cache : String → Option β} (hi : s.handlers[i]? = some h) {k : String} {j : Nat}
    (hlast : IsLast cfg
      { s with handlers := s.handlers.set i { h with pc := p }, cache := cache } k j) :
    IsLast cfg s k j := by
  refine ⟨?_, hlast.2⟩
  intro i' h' hlt hi'
  by_cases hii : i = i'
  · subst hii
    rw [hi] at hi'
    cases hi'
    exact hlast.1 i { h with pc := p } hlt
      (List.getElem?_set_self (List.getElem?_eq_some_iff.mp hi).1)
  · exact hlast.1 i' h' hlt (by rw [List.getElem?_set_ne hii]; exact hi')

theorem map_start_set {hs : List (Handler β)} {i : Nat} {h : Handler β} (p : Pc β)
    (hi : hs[i]? = some h) :
    (hs.set i { h with pc := p }).map Handler.start = hs.map Handler.start := by
  apply List.ext_getElem?
  intro n
  by_cases hin : i = n
  · subst hin
    rw [List.getElem?_map, List.getElem?_map,
      List.getElem?_set_self (List.getElem?_eq_some_iff.mp hi).1, hi]
    rfl
  · simp [List.getElem?_set_ne hin]

theorem inv_handler {cfg : CacheConfig β} (hdel : ∀ k o, cfg.onDelete k o = .ok true)
    {cache₀ : String → Option β} {events : List Event} {s : State β}
    (hinv : Inv cfg cache₀ events s) {i : Nat} (hok : NoLateWrite cfg s (.handler i))
    {h : Handler β} (hi : s.handlers[i]? = some h) {p : Pc β} {cache' : String → Option β}
    (hs : handlerStep cfg h s.cache = some (some p, cache')) :
    Inv cfg cache₀ events
      { s with handlers := s.handlers.set i { h with pc := p }, cache := cache' } := by
  have hmem : h ∈ s.handlers := List.mem_of_getElem? hi
  obtain ⟨hvalid, hcase⟩ := handlerStep_cases hdel (hinv.valid h hmem) hs
  refine ⟨?_, ?_, ?_, ?_⟩
  · intro h' hh'
    rcases List.mem_or_eq_of_mem_set hh' with hh' | rfl
    · exact hinv.valid h' hh'
    · exact hvalid p rfl
  · simp only [map_start_set p hi]
    exact hinv.started
  · intro k hk
    rcases hcase with ⟨rfl, _⟩ | ⟨k', w, p', hk', _, _, rfl, _⟩
    · exact hinv.untouched k hk
    · have hstart : h.start ∈ events.filterMap spawn := by
        rw [← hinv.started]
        exact List.mem_append_left _ (List.mem_map_of_mem hmem)
      have hne : k ≠ k' := by
        rintro rfl
        exact hk _ hstart hk'
      simp only [Function.update_of_ne hne]
      exact hinv.untouched k hk
  · intro k j h' hj hk hlast hset
    have hlast' : IsLast cfg s k j := isLast_set hi hlast
    by_cases hij : i = j
    · -- the handler of the last event moved itself
      subst hij
      simp only [List.getElem?_set_self (List.getElem?_eq_some_iff.mp hi).1,
        Option.some.injEq] at hj
      subst hj
      rcases hcase with ⟨rfl, hquiet⟩ | ⟨k', w, p', hk', _, hp, rfl, hwrite⟩
      · exact hinv.last k i h hi hk hlast' (hquiet p k rfl hk hset)
      · cases hp
        have hkk : k = k' := Option.some.inj (hk.symm.trans hk')
        subst hkk
        simp only [Function.update_self]
        exact hwrite hset
    · -- another handler moved: a write to this key repeats what the last event calls for
      simp only [List.getElem?_set_ne hij] at hj
      rcases hcase with ⟨rfl, _⟩ | ⟨k', w, p', hk', hw, _, rfl, _⟩
      · exact hinv.last k j h' hj hk hlast' hset
      · by_cases hkk : k = k'
        · subst hkk
          simp only [Function.update_self]
          exact hok h hi j h' k (Ne.symm hij) hj hk' hk hlast' hset w hw
        · simp only [Function.update_of_ne hkk]
          exact hinv.last k j h' hj hk hlast' hset

/-- A step that meets `NoLateWrite` keeps the invariant. -/
theorem inv_step {cfg : CacheConfig β} (hdel : ∀ k o, cfg.onDelete k o = .ok true)
    {cache₀ : String → Option β} {events : List Event} {s s' : State β} {l : Label}
    (hinv : Inv cfg cache₀ events s) (hok : NoLateWrite cfg s l)
    (hs : step cfg s l = some s') : Inv cfg cache₀ events s' := by
  unfold step at hs
  split at hs
  · cases hs
  · cases l with
    | receive =>
        dsimp only at hs
        split at hs
        · cases hs
        · rename_i e rest hq
          cases hs
          exact inv_receive hinv hq
    | handler i =>
        simp only [Option.bind_eq_bind, Option.bind_eq_some_iff] at hs
        obtain ⟨h, hi, ⟨pc, cache'⟩, hstep, hs⟩ := hs
        cases pc with
        | none =>
            cases hs
            exact ⟨hinv.valid, hinv.started, hinv.untouched, hinv.last⟩
        | some p =>
            cases hs
            exact inv_handler hdel hinv hok hi hstep

/-! ## Results -/

/-- The last element a filter keeps stands somewhere, with no such element after it. -/
theorem getLast?_filter_eq_some {α : Type} {l : List α} {q : α → Bool} {x : α}
    (h : (l.filter q).getLast? = some x) :
    ∃ j : Nat, l[j]? = some x ∧ q x = true ∧
      ∀ (i : Nat) (y : α), j < i → l[i]? = some y → q y = false := by
  induction l with
  | nil => simp at h
  | cons a l ih =>
      by_cases hl : l.filter q = []
      · rw [List.filter_cons] at h
        split at h
        · rename_i ha
          rw [hl] at h
          cases h
          refine ⟨0, rfl, ha, ?_⟩
          intro i y hlt hy
          cases i with
          | zero => omega
          | succ i =>
              have := List.filter_eq_nil_iff.mp hl y (List.mem_of_getElem? hy)
              simpa using this
        · rw [hl] at h
          cases h
      · have h' : (l.filter q).getLast? = some x := by
          rw [List.filter_cons] at h
          split at h
          · rwa [List.getLast?_cons_of_ne_nil hl] at h
          · exact h
        obtain ⟨j, hj, hq, hafter⟩ := ih h'
        refine ⟨j + 1, hj, hq, ?_⟩
        intro i y hlt hy
        cases i with
        | zero => omega
        | succ i => exact hafter i y (by omega) hy

/-- The invariant, read when all handlers are done. -/
theorem consistent_of_inv {cfg : CacheConfig β} {cache₀ : String → Option β}
    {events : List Event} {s : State β} (hinv : Inv cfg cache₀ events s) (hd : s.Done) :
    Consistent cfg cache₀ events s.cache := by
  obtain ⟨hq, _, hfin⟩ := hd
  have hstarted : s.handlers.map Handler.start = events.filterMap spawn := by
    have h := hinv.started
    rwa [hq, List.filterMap_nil, List.append_nil] at h
  intro k
  cases hlast : (startedFor cfg k events).getLast? with
  | none =>
      have hnil : startedFor cfg k events = [] := List.getLast?_eq_none_iff.mp hlast
      refine hinv.untouched k ?_
      intro h hh hk
      have := List.filter_eq_nil_iff.mp hnil h hh
      simp [hk] at this
  | some h =>
      unfold startedFor at hlast
      rw [← hstarted] at hlast
      obtain ⟨j, hj, hk, hafter⟩ := getLast?_filter_eq_some hlast
      simp only [List.getElem?_map, Option.map_eq_some_iff] at hj
      obtain ⟨h', hj', rfl⟩ := hj
      have hkey : h'.start.key cfg = some k := by simpa using hk
      refine hinv.last k j h' hj' hkey ⟨?_, ?_⟩ (Or.inl (hfin h' (List.mem_of_getElem? hj')))
      · intro i x hlt hx hxk
        have := hafter i x.start hlt (by simp [hx])
        simp only [decide_eq_false_iff_not] at this
        exact this hxk
      · intro e he
        rw [hq] at he
        cases he

/-! ### The schedule on which a deleted repository stays cached -/

/-- A HelmRepository `default/bitnami` in state `Ready` with its index at `indexUrl`. -/
def readyRepo (indexUrl : String) : Value :=
  .map [
    ("metadata", .map [("name", .string "bitnami"), ("namespace", .string "default"),
      ("generation", .int64 1)]),
    ("spec", .map [("url", .string "https://charts.bitnami.com/bitnami")]),
    ("status", .map [("observedGeneration", .int64 1), ("url", .string indexUrl),
      ("conditions", .slice [.map [("type", .string "Ready"), ("status", .string "True")]])])]

/-- Every index decodes to an index without entries, and is answered by its own URL. -/
def emptyIndexEnv : Env String where
  acc := .nested
  rt := .stable
  lib := ⟨fun _ => .ok ⟨[]⟩, .ok⟩
  get url := .ok url
  marshal packages := .ok (if packages = [] then "no packages" else "packages")
  sprint _ := "object"

/-- A repository is added and deleted. -/
def addThenDelete : List Event :=
  [⟨.added, some (readyRepo "http://source-controller/index.yaml")⟩,
    ⟨.deleted, some (readyRepo "http://source-controller/index.yaml")⟩]

/-- The handler of the deletion runs while the first one still has its `Set` to do. -/
def lateSet : List Label :=
  [.receive, .receive, .handler 0, .handler 0, .handler 1, .handler 0]

/-- The same events, the second handler after the first. -/
def inOrder : List Label :=
  [.receive, .receive, .handler 0, .handler 0, .handler 0, .handler 1]

/-- **The cache follows the last event of every key** on each schedule where, once the
    handler of the last event of a key has made its last Redis write, no other handler of
    the key writes anything else. -/
theorem consistent_of_no_late_write (env : Env β) (cache₀ : String → Option β)
    (events : List Event) (as : List Label) (s : State β)
    (hm : StepsMeet (step (fluxConfig env)) (NoLateWrite (fluxConfig env))
      (init cache₀ events) as)
    (hr : runs (step (fluxConfig env)) (init cache₀ events) as = some s) (hd : s.Done) :
    Consistent (fluxConfig env) cache₀ events s.cache := by
  have hstep : ∀ s l s', Inv (fluxConfig env) cache₀ events s →
      NoLateWrite (fluxConfig env) s l → step (fluxConfig env) s l = some s' →
      Inv (fluxConfig env) cache₀ events s' :=
    fun _ _ _ hi hok h => inv_step (fun _ _ => rfl) hi hok h
  exact consistent_of_inv (runs_invariant_of_meet hstep hm hr (inv_init _ _ _)) hd

/-- The outcome of a schedule on the entry of `default/bitnami`: whether all is done, and
    the entry. -/
def outcome (as : List Label) : Option (Bool × Option String) :=
  (runs (step (fluxConfig emptyIndexEnv)) (init (fun _ => none) addThenDelete) as).map fun s =>
    (s.queue.isEmpty && !s.crashed && s.handlers.all fun h => h.pc.isFinished,
      s.cache "helmrepositories:default:bitnami")

theorem done_of_outcome {as : List Label} {v : Option String} (h : outcome as = some (true, v)) :
    ∃ s, runs (step (fluxConfig emptyIndexEnv)) (init (fun _ => none) addThenDelete) as =
      some s ∧ s.Done ∧ s.cache "helmrepositories:default:bitnami" = v := by
  unfold outcome at h
  obtain ⟨s, hs, he⟩ := Option.map_eq_some_iff.mp h
  simp only [Prod.mk.injEq, Bool.and_eq_true, List.isEmpty_iff, Bool.not_eq_true',
    List.all_eq_true] at he
  exact ⟨s, hs, ⟨he.1.1.1, he.1.1.2, fun h hh => h.pc.isFinished_iff.1 (he.1.2 h hh)⟩, he.2⟩

/-- No handler started after handler `i` has moved yet. -/
def laterIdle (s : State β) : Label → Bool
  | .receive => true
  | .handler i => (s.handlers.drop (i + 1)).all fun h =>
      match h.pc with
      | .entry => true
      | _ => false

/-- Handlers that run in the order of their events meet the condition: one that has settled
    is not that of the last event of the key. -/
theorem noLateWrite_of_laterIdle {cfg : CacheConfig β} {s : State β} {l : Label}
    (h : laterIdle s l = true) : NoLateWrite cfg s l := by
  cases l with
  | receive => trivial
  | handler i =>
      intro x hx j y k hne hy hkx _ hlast hset
      have hlt : i < j := by
        rcases Nat.lt_or_ge j i with hji | hij
        · exact absurd hkx (hlast.1 i x hji hx)
        · omega
      have hmem : y ∈ s.handlers.drop (i + 1) := by
        refine List.mem_of_getElem? (i := j - (i + 1)) ?_
        rw [List.getElem?_drop, show i + 1 + (j - (i + 1)) = j by omega]
        exact hy
      simp only [laterIdle, List.all_eq_true] at h
      have hpc := h y hmem
      rcases hset with hset | ⟨hset, _⟩ <;> simp [hset] at hpc

/-- On the schedule in order the last write is that of the last event. -/
theorem consistent_of_no_late_write_in_order :
    ∃ s, runs (step (fluxConfig emptyIndexEnv)) (init (fun _ => none) addThenDelete) inOrder =
        some s ∧ s.Done ∧
      StepsMeet (step (fluxConfig emptyIndexEnv)) (NoLateWrite (fluxConfig emptyIndexEnv))
        (init (fun _ => none) addThenDelete) inOrder ∧
      Consistent (fluxConfig emptyIndexEnv) (fun _ => none) addThenDelete s.cache := by
  have hout : outcome inOrder = some (true, none) := by decide
  obtain ⟨s, hs, hd, _⟩ := done_of_outcome hout
  have hm : StepsMeet (step (fluxConfig emptyIndexEnv)) (NoLateWrite (fluxConfig emptyIndexEnv))
      (init (fun _ => none) addThenDelete) inOrder :=
    stepsMeet_of_meets (fun _ _ => noLateWrite_of_laterIdle) (by decide)
  exact ⟨s, hs, hd, hm, consistent_of_no_late_write _ _ _ _ _ hm hs hd⟩

/-- The late `Set` brings the deleted repository back for good. -/
theorem stale_after_delete :
    ∃ s, runs (step (fluxConfig emptyIndexEnv)) (init (fun _ => none) addThenDelete) lateSet =
        some s ∧ s.Done ∧
      ¬ Consistent (fluxConfig emptyIndexEnv) (fun _ => none) addThenDelete s.cache := by
  have hout : outcome lateSet = some (true, some "no packages") := by decide
  obtain ⟨s, hs, hd, hv⟩ := done_of_outcome hout
  refine ⟨s, hs, hd, fun hc => ?_⟩
  have hlast : (startedFor (fluxConfig emptyIndexEnv) "helmrepositories:default:bitnami"
      addThenDelete).getLast?.map (fun h => h.wanted (fluxConfig emptyIndexEnv)) = some none := by
    decide
  obtain ⟨h, hh, hw⟩ := Option.map_eq_some_iff.mp hlast
  have hkey := hc "helmrepositories:default:bitnami"
  rw [hh, hv] at hkey
  dsimp only at hkey
  rw [hw] at hkey
  cases hkey

end Kubeapps.Flux
