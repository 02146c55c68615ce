/-
  The packages the flux plugin lists
  (cmd/kubeapps-apis/plugins/fluxv2/packages/v1alpha1: `GetAvailablePackageSummaries` in
  server.go, `fetchCachedObjects` and `fetchForOne` in cache.go, `onGetRepo` in utils.go).

  A request reads the entries of all repositories in at most ten goroutines, while the handlers
  of the watch change the cache: the machine is the pool of the workers (`Readers`) over the
  machine of the handlers (`Flux.step`). Redis reads are atomic and succeed. The protobuf decoder
  is a parameter.

  * `listing_reads`: the listing always gets to its end; each result is the entry of its key at
    some moment of the run.
  * `listing_provenance`: whatever the schedule is, a listed package is in the index of an event
    of a listed repository.
  * `listing_current`: once all handlers are done on a schedule without a late write, the listing
    is the index of the last event of each repository.
-/
import Kubeapps.Flux.Cache
import Kubeapps.Lib.Readers

namespace Kubeapps.Flux

open Kubeapps.Lib Kubeapps.Models Kubeapps.Helm

variable {β : Type}

/-! ## The code -/

/-- `[]*corev1.AvailablePackageSummary`, the value of one repository. -/
abbrev Packages := List AvailablePackageSummary

/-- What `fetchForOne` returns: an error, or a value that is `nil` when there is no entry. -/
abbrev Fetched := Except String (Option Packages)

/-- `proto.Unmarshal`, and the summaries of the message. -/
abbrev Unmarshal (β : Type) := β → Except String Packages

def onGetRepo (unmarshal : Unmarshal β) (_key : String) (value : β) : Except String Packages :=
  unmarshal value

def fetchForOne (unmarshal : Unmarshal β) (cache : String → Option β) (key : String) : Fetched :=
  match cache key with
  | none => .ok none
  | some bytes =>
      match onGetRepo unmarshal key bytes with
      | .ok val => .ok (some val)
      | .error err => .error err

def maxWorkers : Nat := 10

def numWorkers (requestItems : List Value) : Nat := min requestItems.length maxWorkers

/-- The jobs that are sent: an item without a key is skipped. -/
def requestKeys (env : Env β) (requestItems : List Value) : List String :=
  requestItems.filterMap fun item => (redisKeyFor env "helmrepositories" item).toOption

/-- The cache and the goroutines of one `fetchCachedObjects`. -/
abbrev Fetching (β : Type) := Readers (State β) String Fetched

abbrev FetchLabel := ReadersLabel Label Fetched

def startFetch (env : Env β) (s : State β) (requestItems : List Value) : Fetching β :=
  Readers.init s (numWorkers requestItems) (requestKeys env requestItems)

/-- A handler of the watch moves, or a goroutine of the request. -/
def fetchStep (env : Env β) (unmarshal : Unmarshal β) (requestItems : List Value) :
    Fetching β → FetchLabel → Option (Fetching β) :=
  Readers.step (step (fluxConfig env)) (fun s => !s.crashed)
    (fun s key => fetchForOne unmarshal s.cache key) (numWorkers requestItems)

/-- The results that are kept: errors and misses are not. -/
def responseItems (received : List (String × Fetched)) : List Packages :=
  received.filterMap fun
    | (_, .ok (some result)) => some result
    | _ => none

inductive Code where
  | unimplemented
  | failedPrecondition
  | internal
  deriving DecidableEq, Repr

/-- `status.Errorf`. -/
structure Status where
  code : Code
  message : String
  deriving DecidableEq, Repr

/-- `getHelmRepos`, with the answer of the API server. -/
def getHelmRepos (list : Except String (List Value)) : Except Status (List Value) :=
  match list with
  | .ok items => .ok items
  | .error err => .error ⟨.internal, "unable to list fluxv2 helmrepositories: " ++ err⟩

/-- `GetAvailablePackageSummaries` before it reads the cache: the repositories to read. -/
def requestItemsFor (cluster : String) (cacheSet : Bool) (list : Except String (List Value)) :
    Except Status (List Value) :=
  if cluster ≠ "" then
    .error ⟨.unimplemented, "Not supported yet: request.Context.Cluster: [" ++ cluster ++ "]"⟩
  else if cacheSet = false then
    .error ⟨.failedPrecondition, "Server cache has not been properly initialized"⟩
  else getHelmRepos list

/-- `GetAvailablePackageSummaries` after it has read the cache. -/
def responsePackages (t : Fetching β) : Packages := (responseItems t.pool.received).flatten

/-! ## What every reachable cache has -/

/-- The handlers are those of the events, as far as received, and an entry is what the event of
    one of them calls for. -/
structure Stored (cfg : CacheConfig β) (events : List Event) (s : State β) : Prop where
  valid : ∀ h ∈ s.handlers, h.Valid cfg
  started : s.handlers.map Handler.start ++ s.queue.filterMap spawn = events.filterMap spawn
  entry : ∀ k v, s.cache k = some v →
    ∃ h ∈ events.filterMap spawn, h.key cfg = some k ∧ h.wanted cfg = some v

theorem stored_init (cfg : CacheConfig β) (events : List Event) :
    Stored cfg events (init (fun _ => none) events) :=
  ⟨by simp [init], by simp [init], by simp [init]⟩

theorem pc_of_spawn {e : Event} {h : Handler β} (hs : spawn e = some h) : h.pc = .entry := by
  rw [← spawn_start hs]
  rfl

theorem stored_receive {cfg : CacheConfig β} {events : List Event} {s : State β}
    (hi : Stored cfg events s) {e : Event} {rest : List Event} (hq : s.queue = e :: rest) :
    Stored cfg events { s with queue := rest, handlers := s.handlers ++ (spawn e).toList } := by
  refine ⟨?_, ?_, hi.entry⟩
  · intro h hh
    rcases List.mem_append.mp hh with hh | hh
    · exact hi.valid h hh
    · intro v hset
      rw [pc_of_spawn (by simpa using hh)] at hset
      cases hset
  · have hst := hi.started
    rw [hq, List.filterMap_cons] at hst
    cases hs : (spawn e : Option (Handler β)) with
    | none =>
        rw [hs] at hst
        simpa using hst
    | some h =>
        rw [hs] at hst
        simpa [spawn_start hs] using hst

/-- A handler that is about to write a value is at its `Set`. -/
theorem wanted_of_nextWrite {cfg : CacheConfig β} {h : Handler β} (hv : h.Valid cfg) {v : β}
    (hw : h.nextWrite = some (some v)) : h.wanted cfg = some v := by
  unfold Handler.nextWrite at hw
  split at hw
  · cases hw
  · rename_i v' _ hpc
    cases hw
    exact hv v hpc
  · cases hw
  · cases hw

theorem stored_handler {cfg : CacheConfig β} (hdel : ∀ k o, cfg.onDelete k o = .ok true)
    {events : List Event} {s : State β} (hinv : Stored cfg events s) {i : Nat} {h : Handler β}
    (hi : s.handlers[i]? = some h) {p : Pc β} {cache' : String → Option β}
    (hs : handlerStep cfg h s.cache = some (some p, cache')) :
    Stored cfg events
      { s with handlers := s.handlers.set i { h with pc := p }, cache := cache' } := by
  have hmem : h ∈ s.handlers := List.mem_of_getElem? hi
  obtain ⟨hvalid, hcase⟩ := handlerStep_cases hdel (hinv.valid h hmem) hs
  refine ⟨?_, ?_, ?_⟩
  · intro h' hh'
    rcases List.mem_or_eq_of_mem_set hh' with hh' | rfl
    · exact hinv.valid h' hh'
    · exact hvalid p rfl
  · simp only [map_start_set p hi]
    exact hinv.started
  · intro k v hkv
    rcases hcase with ⟨rfl, _⟩ | ⟨k', w, _, hk', hw, _, rfl, _⟩
    · exact hinv.entry k v hkv
    · dsimp only at hkv
      by_cases hkk : k = k'
      · -- the entry the step writes
        subst hkk
        rw [Function.update_self] at hkv
        subst hkv
        have hstart : h.start ∈ events.filterMap spawn := by
          rw [← hinv.started]
          exact List.mem_append_left _ (List.mem_map_of_mem hmem)
        exact ⟨h.start, hstart, hk', wanted_of_nextWrite (hinv.valid h hmem) hw⟩
      · rw [Function.update_of_ne hkk] at hkv
        exact hinv.entry k v hkv

theorem stored_step {cfg : CacheConfig β} (hdel : ∀ k o, cfg.onDelete k o = .ok true)
    {events : List Event} {s s' : State β} {l : Label} (hinv : Stored cfg events s)
    (hs : step cfg s l = some s') : Stored cfg events s' := by
  unfold step at hs
  split at hs
  · cases hs
  · cases l with
    | receive =>
        dsimp only at hs
        split at hs
        · cases hs
        · rename_i e rest hq
          cases hs
          exact stored_receive hinv hq
    | handler i =>
        simp only [Option.bind_eq_bind, Option.bind_eq_some_iff] at hs
        obtain ⟨h, hi, ⟨pc, cache'⟩, hstep, hs⟩ := hs
        cases pc with
        | none =>
            cases hs
            exact ⟨hinv.valid, hinv.started, hinv.entry⟩
        | some p =>
            cases hs
            exact stored_handler hdel hinv hi hstep

/-- Every entry of a reachable cache was computed for an event of its key. -/
theorem stored_runs {env : Env β} {events : List Event} {s : State β} {as : List Label}
    (hr : runs (step (fluxConfig env)) (init (fun _ => none) events) as = some s) :
    Stored (fluxConfig env) events s :=
  runs_invariant (fun _ _ _ hi hs => stored_step (fun _ _ => rfl) hi hs) hr (stored_init _ events)

/-! ## What an entry reads as -/

/-- A stored value is the message of the index of its object. -/
theorem packages_of_wanted {env : Env β} {h : Handler β} {v : β}
    (hw : h.wanted (fluxConfig env) = some v) :
    ∃ add packages, h.task = .onAddOrModify add ∧ indexOneRepo env h.object = .ok packages ∧
      env.marshal packages = .ok v := by
  unfold Handler.wanted at hw
  split at hw
  · rename_i add key htask _
    have hhook : hook (fluxConfig env) add key h.object = onAddOrModifyRepo env key h.object := by
      cases add <;> rfl
    rw [hhook] at hw
    split at hw
    · rename_i v' hok
      subst hw
      unfold onAddOrModifyRepo at hok
      obtain ⟨ready, _, hok⟩ := bind_eq_ok hok
      split at hok
      · obtain ⟨packages, hindex, hok⟩ := bind_eq_ok hok
        obtain ⟨bytes, hbytes, hok⟩ := bind_eq_ok hok
        cases hok
        refine ⟨add, packages, htask, hindex, ?_⟩
        cases hm : env.marshal packages with
        | error e =>
            rw [hm] at hbytes
            cases hbytes
        | ok b =>
            rw [hm] at hbytes
            cases hbytes
            rfl
      · cases hok
    · cases hw
  · cases hw

/-- The converse: only a repository that is ready has an index. -/
theorem wanted_of_packages {env : Env β} {h : Handler β} {key : String} {add : Bool}
    {packages : Packages} {v : β} (hkey : h.key (fluxConfig env) = some key)
    (htask : h.task = .onAddOrModify add) (hindex : indexOneRepo env h.object = .ok packages)
    (hmarshal : env.marshal packages = .ok v) : h.wanted (fluxConfig env) = some v := by
  obtain ⟨task, obj, pc⟩ := h
  cases htask
  have hready : isRepoReady env obj = .ok true := by
    unfold indexOneRepo at hindex
    obtain ⟨repo, _, hindex⟩ := bind_eq_ok hindex
    dsimp only at hindex
    split at hindex
    · cases hindex
    · cases hindex
    · assumption
  have hok : onAddOrModifyRepo env key obj = .ok (some v) := by
    unfold onAddOrModifyRepo
    rw [hready, hindex]
    show (liftErr (env.marshal packages) >>= fun bytes => pure (some bytes)) = Except.ok (some v)
    rw [hmarshal]
    rfl
  unfold Handler.wanted
  cases hk : (fluxConfig env).redisKeyFor obj with
  | error e =>
      simp only [Handler.key, hk] at hkey
      cases hkey
  | ok key' =>
      simp only [Handler.key, hk] at hkey
      cases hkey
      have hhook : hook (fluxConfig env) add key obj = onAddOrModifyRepo env key obj := by
        cases add <;> rfl
      dsimp only
      rw [hhook, hok]

theorem requiredString_msg {env : Env β} {obj : Value} {path : List String} {msg x : String}
    (h : requiredString env obj path msg = .ok x) (msg' : String) :
    requiredString env obj path msg' = .ok x := by
  unfold requiredString at h ⊢
  split at h
  · exact h
  · cases h
  · cases h

theorem liftErr_eq_ok {α : Type} {x : Except String α} {a : α} (h : liftErr x = .ok a) :
    x = .ok a := by
  cases x with
  | error e => cases h
  | ok b =>
      cases h
      rfl

/-- The key of a repository, from the fields `newPackageRepository` reads. -/
theorem key_of_repository {env : Env β} {obj : Value} {repo : Repo}
    (h : newPackageRepository env obj = .ok repo) (resource : String) :
    redisKeyFor env resource obj = .ok (resource ++ ":" ++ repo.ns ++ ":" ++ repo.name) := by
  unfold newPackageRepository at h
  obtain ⟨name, hname, h⟩ := bind_eq_ok h
  obtain ⟨ns, hns, h⟩ := bind_eq_ok h
  obtain ⟨url, _, h⟩ := bind_eq_ok h
  cases h
  unfold redisKeyFor
  rw [requiredString_msg hname, requiredString_msg hns]
  rfl

theorem summary_repo {repo : Repo} {c : Chart} {p : AvailablePackageSummary}
    (h : summary repo c = .ok p) : p.contextNamespace = repo.ns ∧ p.identifier = c.id := by
  unfold summary at h
  obtain ⟨v, _, h⟩ := bind_eq_ok h
  cases h
  exact ⟨rfl, rfl⟩

/-- The key of an object whose index was read has the namespace and the name that are in each of
    its packages. -/
theorem key_of_index {env : Env β} {obj : Value} {packages : Packages}
    (h : indexOneRepo env obj = .ok packages) :
    ∃ ns name, redisKeyFor env "helmrepositories" obj =
        .ok ("helmrepositories" ++ ":" ++ ns ++ ":" ++ name) ∧
      ∀ p ∈ packages, p.contextNamespace = ns ∧ ∃ chart, p.identifier = name ++ "/" ++ chart := by
  unfold indexOneRepo at h
  obtain ⟨repo, hrepo, h⟩ := bind_eq_ok h
  refine ⟨repo.ns, repo.name, key_of_repository (liftErr_eq_ok hrepo) _, fun p hp => ?_⟩
  dsimp only at h
  split at h
  · cases h
  · cases h
  · obtain ⟨url, _, h⟩ := bind_eq_ok h
    obtain ⟨bytes, _, h⟩ := bind_eq_ok h
    obtain ⟨charts, hcharts, h⟩ := bind_eq_ok h
    obtain ⟨c, hc, hsummary⟩ := exists_of_mem_mapM h hp
    obtain ⟨entry, hnew⟩ := mem_chartsFromIndex hcharts hc
    obtain ⟨hns, hid⟩ := summary_repo hsummary
    exact ⟨hns, c.name, hid.trans (newChart_id hnew).2.1⟩

/-- The event that started a handler of `onAddOrModify`. -/
theorem event_of_spawn {e : Event} {h : Handler β} {add : Bool} (hs : spawn e = some h)
    (htask : h.task = .onAddOrModify add) :
    e.object = some h.object ∧ (e.type = .added ∨ e.type = .modified) := by
  unfold spawn at hs
  split at hs
  · rename_i htype hobj
    cases hs
    exact ⟨hobj, .inl htype⟩
  · rename_i htype hobj
    cases hs
    exact ⟨hobj, .inr htype⟩
  · cases hs
    cases htask
  · cases hs

theorem key_of_ok {env : Env β} {h : Handler β} {key key' : String}
    (hkey : redisKeyFor env "helmrepositories" h.object = .ok key)
    (hkey' : h.key (fluxConfig env) = some key') : key = key' := by
  have hsome : h.key (fluxConfig env) = some key := by
    show (redisKeyFor env "helmrepositories" h.object).toOption = some key
    rw [hkey]
    rfl
  exact Option.some.inj (hsome.symm.trans hkey')

/-! ## What a request reads -/

section Request

variable {env : Env β} {unmarshal : Unmarshal β} {requestItems : List Value}

theorem mem_requestKeys {key : String} (h : key ∈ requestKeys env requestItems) :
    ∃ item ∈ requestItems, redisKeyFor env "helmrepositories" item = .ok key := by
  obtain ⟨item, hitem, hkey⟩ := List.mem_filterMap.mp h
  refine ⟨item, hitem, ?_⟩
  cases hr : redisKeyFor env "helmrepositories" item with
  | error e =>
      rw [hr] at hkey
      cases hkey
  | ok k =>
      rw [hr] at hkey
      cases hkey
      rfl

theorem mem_responsePackages {t : Fetching β} {p : AvailablePackageSummary}
    (h : p ∈ responsePackages t) :
    ∃ key packages, (key, Except.ok (some packages)) ∈ t.pool.received ∧ p ∈ packages := by
  obtain ⟨packages, hmem, hp⟩ := List.mem_flatten.mp h
  obtain ⟨⟨key, r⟩, hx, hr⟩ := List.mem_filterMap.mp hmem
  split at hr
  · rename_i heq
    cases heq
    cases hr
    exact ⟨key, packages, hx, hp⟩
  · cases hr

/-- A result that is kept is the message of an entry. -/
theorem entry_of_fetched {cache : String → Option β} {key : String} {packages : Packages}
    (h : fetchForOne unmarshal cache key = .ok (some packages)) :
    ∃ bytes, cache key = some bytes ∧ unmarshal bytes = .ok packages := by
  unfold fetchForOne at h
  split at h
  · cases h
  · rename_i bytes hentry
    split at h
    · rename_i val hval
      cases h
      exact ⟨bytes, hentry, hval⟩
    · cases h

/-- One result for each key of the request, also for a request without items. -/
theorem received_perm {s : State β} {as : List FetchLabel} {t : Fetching β}
    (hr : runs (fetchStep env unmarshal requestItems) (startFetch env s requestItems) as = some t)
    (hret : t.pool.phase = .returned) :
    (t.pool.received.map Prod.fst).Perm (requestKeys env requestItems) := by
  cases requestItems with
  | nil =>
      have hnone : t.pool.received = [] := Readers.received_of_no_workers hr
      rw [hnone]
      exact List.Perm.nil
  | cons item items =>
      have hpos : 0 < numWorkers (item :: items) := by
        simp [numWorkers, maxWorkers]
      exact Readers.perm_of_readers hpos hr hret

/-- The packages a result gives to the response. -/
def kept : Fetched → Packages
  | .ok (some result) => result
  | _ => []

theorem flatten_responseItems (received : List (String × Fetched)) :
    (responseItems received).flatten = received.flatMap fun x => kept x.2 := by
  induction received with
  | nil => rfl
  | cons x received ih =>
      rw [List.flatMap_cons, ← ih]
      obtain ⟨key, r⟩ := x
      rcases r with e | (_ | result) <;> rfl

/-- If the cache stands still, the response is what it has for the keys. -/
theorem responsePackages_perm {s : State β} {t : Fetching β}
    (hperm : (t.pool.received.map Prod.fst).Perm (requestKeys env requestItems))
    (hread : ∀ x ∈ t.pool.received, x.2 = fetchForOne unmarshal s.cache x.1) :
    (responsePackages t).Perm
      ((requestKeys env requestItems).flatMap fun key => kept (fetchForOne unmarshal s.cache key)) := by
  have hresponse : responsePackages t = (t.pool.received.map Prod.fst).flatMap fun key =>
      kept (fetchForOne unmarshal s.cache key) := by
    unfold responsePackages
    rw [flatten_responseItems, List.flatMap_map]
    exact List.flatMap_congr fun x hx => by rw [hread x hx]
  rw [hresponse]
  exact hperm.flatMap_right _

end Request

/-! ## When all handlers are done -/

/-- The packages that the object of an event stores: those of its index, if it can be read and
    encoded. -/
def storable (env : Env β) (obj : Value) : Packages :=
  match indexOneRepo env obj with
  | .ok packages =>
      match env.marshal packages with
      | .ok _ => packages
      | .error _ => []
  | .error _ => []

/-- The packages of the last event of a key: none after a deletion or without an event. -/
def currentPackages (env : Env β) (events : List Event) (key : String) : Packages :=
  match (startedFor (fluxConfig env) key events).getLast? with
  | some ⟨.onAddOrModify _, obj, _⟩ => storable env obj
  | _ => []

/-- The system of the handlers is at its end. -/
theorem step_of_done {cfg : CacheConfig β} {s : State β} (hd : s.Done) (l : Label) :
    step cfg s l = none := by
  obtain ⟨hq, hcrash, hfin⟩ := hd
  unfold step
  rw [hcrash]
  cases l with
  | receive =>
      rw [hq]
      rfl
  | handler i =>
      simp only [Bool.false_eq_true, if_false, Option.bind_eq_bind]
      cases hi : s.handlers[i]? with
      | none => rfl
      | some h =>
          have hpc := hfin h (List.mem_of_getElem? hi)
          have hnone : handlerStep cfg h s.cache = none := by
            obtain ⟨task, obj, pc⟩ := h
            cases hpc
            unfold handlerStep
            cases cfg.redisKeyFor obj with
            | error e => rfl
            | ok key => cases task <;> rfl
          rw [Option.bind_some, hnone]
          rfl

theorem store_of_done {env : Env β} {unmarshal : Unmarshal β} {requestItems : List Value}
    {s : State β} (hd : s.Done) {as : List FetchLabel} {t : Fetching β}
    (hr : runs (fetchStep env unmarshal requestItems) (startFetch env s requestItems) as =
      some t) : t.store = s := by
  obtain ⟨bs, hbs⟩ := Readers.store_runs hr
  cases bs with
  | nil =>
      cases hbs
      rfl
  | cons l bs =>
      obtain ⟨s', hs', _⟩ := runs_cons_eq_some.1 hbs
      have hnone : step (fluxConfig env) s l = none := step_of_done hd l
      cases hs'.symm.trans hnone

/-- What is read of an entry that is what the event of `h` calls for. -/
theorem kept_of_wanted {env : Env β} {unmarshal : Unmarshal β}
    (hround : ∀ packages bytes, env.marshal packages = .ok bytes → unmarshal bytes = .ok packages)
    {h : Handler β} {key : String} {cache : String → Option β} {add : Bool}
    (hkey : h.key (fluxConfig env) = some key) (htask : h.task = .onAddOrModify add)
    (hentry : cache key = h.wanted (fluxConfig env)) :
    kept (fetchForOne unmarshal cache key) = storable env h.object := by
  unfold fetchForOne storable
  rw [hentry]
  cases hw : h.wanted (fluxConfig env) with
  | some v =>
      obtain ⟨_, packages, _, hindex, hmarshal⟩ := packages_of_wanted hw
      simp only [onGetRepo, hround packages v hmarshal, hindex, hmarshal]
      rfl
  | none =>
      cases hindex : indexOneRepo env h.object with
      | error e => rfl
      | ok packages =>
          cases hmarshal : env.marshal packages with
          | error e => simp only [hmarshal]; rfl
          | ok v =>
              have hsome := wanted_of_packages hkey htask hindex hmarshal
              cases hw.symm.trans hsome

/-- What is read of a consistent cache that was empty before the events. -/
theorem kept_of_consistent {env : Env β} {unmarshal : Unmarshal β}
    (hround : ∀ packages bytes, env.marshal packages = .ok bytes → unmarshal bytes = .ok packages)
    {events : List Event} {cache : String → Option β}
    (hc : Consistent (fluxConfig env) (fun _ => none) events cache) (key : String) :
    kept (fetchForOne unmarshal cache key) = currentPackages env events key := by
  have hentry := hc key
  unfold currentPackages
  cases hlast : (startedFor (fluxConfig env) key events).getLast? with
  | none =>
      rw [hlast] at hentry
      unfold fetchForOne
      rw [hentry]
      rfl
  | some h =>
      rw [hlast] at hentry
      have hkey : h.key (fluxConfig env) = some key := by
        simpa using List.of_mem_filter (List.mem_of_getLast? hlast)
      obtain ⟨task, obj, pc⟩ := h
      cases task with
      | onAddOrModify add => exact kept_of_wanted hround hkey rfl hentry
      | onDelete =>
          unfold fetchForOne
          rw [hentry]
          rfl

/-! ## Results -/

/-! ### A repository with one chart -/

/-- Every index is that of `nginx`; a message is its list of packages. -/
def nginxEnv : Env Packages where
  acc := .nested
  rt := .stable
  lib := ⟨fun _ => .ok ⟨[("nginx", [some ⟨some ⟨"nginx", "9.4.2", "NGINX", "", [], [], [],
    "https://bitnami.com/nginx.png", "1.21.1", false, []⟩, [], "", ""⟩])]⟩, .ok⟩
  get _ := .ok []
  marshal := .ok
  sprint _ := "object"

def nginxPackage : AvailablePackageSummary :=
  ⟨"nginx", "9.4.2", "https://bitnami.com/nginx.png", "default", "bitnami/nginx"⟩

def bitnami : Value := readyRepo "http://source-controller/index.yaml"

def bitnamiAdded : List Event := [⟨.added, some bitnami⟩]

/-- The handler of the only event, to its end. -/
def indexed : List Label := [.receive, .handler 0, .handler 0, .handler 0]

/-- The goroutine of a request for one repository, up to where it has its job. -/
def takeJob : List FetchLabel := [.pool .send, .pool .closeJobs, .pool (.take 0)]

/-- It reads `nginxPackage`, and the request returns. -/
def readNginx : List FetchLabel :=
  [.pool (.finish 0 (some (.ok (some [nginxPackage])))), .pool (.put 0), .pool .receive,
    .pool (.exit 0), .pool .closeResults, .pool .ret]

/-- The watch fills the cache while the goroutine has its job. -/
def readAfterIndexed : List FetchLabel :=
  takeJob ++ indexed.map ReadersLabel.store ++ readNginx

/-- Where a request on `bitnami` stands after `as`, and its response so far. -/
def requestOutcome (s : State Packages) (as : List FetchLabel) : Option (PoolPhase × Packages) :=
  (runs (fetchStep nginxEnv .ok [bitnami]) (startFetch nginxEnv s [bitnami]) as).map fun t =>
    (t.pool.phase, responsePackages t)

theorem exists_of_requestOutcome {s : State Packages} {as : List FetchLabel}
    {packages : Packages} (h : requestOutcome s as = some (.returned, packages)) :
    ∃ t, runs (fetchStep nginxEnv .ok [bitnami]) (startFetch nginxEnv s [bitnami]) as = some t ∧
      t.pool.phase = .returned ∧ responsePackages t = packages := by
  obtain ⟨t, ht, he⟩ := Option.map_eq_some_iff.mp h
  simp only [Prod.mk.injEq] at he
  exact ⟨t, ht, he.1, he.2⟩

theorem readAfterIndexed_outcome :
    requestOutcome (init (fun _ => none) bitnamiAdded) readAfterIndexed =
      some (.returned, [nginxPackage]) := by decide +kernel

/-- **A listing gets to its end and reads the cache.** The goroutines of a request make a bounded
    number of moves, and as long as no handler has panicked they get to the response on their own.
    There is one result for each listed repository that has a key, and each is what the cache had
    for the key at some moment of the run. -/
theorem listing_reads (env : Env β) (unmarshal : Unmarshal β) (s : State β)
    (requestItems : List Value) (as : List FetchLabel) (t : Fetching β)
    (hr : runs (fetchStep env unmarshal requestItems) (startFetch env s requestItems) as =
      some t) :
    (Readers.poolLabels as).length ≤ Pool.measure (startFetch env s requestItems).pool ∧
    (t.store.crashed = false → ∃ (bs : List (PoolLabel Fetched)) (pool : Pool String Fetched),
      runs (fetchStep env unmarshal requestItems) t (bs.map ReadersLabel.pool) =
          some { t with pool := pool } ∧ pool.phase = .returned) ∧
    (t.pool.phase = .returned →
      (t.pool.received.map Prod.fst).Perm (requestKeys env requestItems)) ∧
    ∀ x ∈ t.pool.received, ∃ pre u, pre <+: as ∧
      runs (fetchStep env unmarshal requestItems) (startFetch env s requestItems) pre = some u ∧
        x.2 = fetchForOne unmarshal u.store.cache x.1 := by
  obtain ⟨hbound, hend⟩ := Readers.readers_end rfl hr
  refine ⟨hbound, fun hlive => hend ?_, received_perm hr, Readers.received_reads hr⟩
  rw [hlive]
  rfl

/-- The entry is written while the request has its job: the result is the new entry. -/
theorem listing_reads_nginx :
    ∃ t : Fetching Packages, responsePackages t = [nginxPackage] ∧
      (t.pool.received.map Prod.fst).Perm (requestKeys nginxEnv [bitnami]) := by
  obtain ⟨t, ht, hret, hpackages⟩ := exists_of_requestOutcome readAfterIndexed_outcome
  exact ⟨t, hpackages, (listing_reads _ _ _ _ _ _ ht).2.2.1 hret⟩

/-- **Nothing foreign is listed.** However the requests and the handlers interleave, a listed
    package is in the index of an added or modified object that has the key of a listed repository,
    and it has the namespace and the name that are in the key. -/
theorem listing_provenance (env : Env β) (unmarshal : Unmarshal β)
    (hround : ∀ packages bytes, env.marshal packages = .ok bytes → unmarshal bytes = .ok packages)
    (events : List Event) (requestItems : List Value) (as : List FetchLabel) (t : Fetching β)
    (hr : runs (fetchStep env unmarshal requestItems)
      (startFetch env (init (fun _ => none) events) requestItems) as = some t) :
    ∀ p ∈ responsePackages t, ∃ item ∈ requestItems, ∃ e ∈ events, ∃ obj packages ns name chart,
      (e.type = .added ∨ e.type = .modified) ∧ e.object = some obj ∧
      indexOneRepo env obj = .ok packages ∧ p ∈ packages ∧
      redisKeyFor env "helmrepositories" item =
        .ok ("helmrepositories" ++ ":" ++ ns ++ ":" ++ name) ∧
      redisKeyFor env "helmrepositories" obj =
        .ok ("helmrepositories" ++ ":" ++ ns ++ ":" ++ name) ∧
      p.contextNamespace = ns ∧ p.identifier = name ++ "/" ++ chart := by
  intro p hp
  obtain ⟨key, packages, hmem, hpackages⟩ := mem_responsePackages hp
  obtain ⟨item, hitem, hitemKey⟩ := mem_requestKeys (Readers.mem_of_received hr hmem)
  obtain ⟨pre, u, _, hu, hread⟩ := Readers.received_reads hr _ hmem
  obtain ⟨bytes, hentry, hbytes⟩ := entry_of_fetched hread.symm
  obtain ⟨cs, hstore⟩ := Readers.store_runs hu
  obtain ⟨h, hspawn, hkey, hwanted⟩ := (stored_runs hstore).entry key bytes hentry
  obtain ⟨e, he, hspawn⟩ := List.mem_filterMap.mp hspawn
  obtain ⟨add, packages', htask, hindex, hmarshal⟩ := packages_of_wanted hwanted
  have hsame : packages' = packages :=
    Except.ok.inj ((hround packages' bytes hmarshal).symm.trans hbytes)
  subst hsame
  obtain ⟨hobj, htype⟩ := event_of_spawn hspawn htask
  obtain ⟨ns, name, hobjKey, hfields⟩ := key_of_index hindex
  obtain ⟨hns, chart, hid⟩ := hfields p hpackages
  have hkeys : "helmrepositories" ++ ":" ++ ns ++ ":" ++ name = key :=
    key_of_ok hobjKey hkey
  refine ⟨item, hitem, e, he, h.object, packages', ns, name, chart, htype, hobj, hindex, hpackages,
    ?_, hobjKey, hns, hid⟩
  rw [hitemKey, hkeys]

/-- The one package of `bitnami` comes from the event. -/
theorem listing_provenance_nginx :
    ∃ e ∈ bitnamiAdded, ∃ obj packages, e.object = some obj ∧
      indexOneRepo nginxEnv obj = .ok packages ∧ nginxPackage ∈ packages := by
  obtain ⟨t, ht, _, hpackages⟩ := exists_of_requestOutcome readAfterIndexed_outcome
  have hmem : nginxPackage ∈ responsePackages t := by
    rw [hpackages]
    exact List.mem_singleton_self _
  obtain ⟨_, _, e, he, obj, packages, _, _, _, _, hobj, hindex, hp, _⟩ :=
    listing_provenance nginxEnv .ok (fun _ _ h => h.symm) bitnamiAdded [bitnami] readAfterIndexed t ht
      nginxPackage hmem
  exact ⟨e, he, obj, packages, hobj, hindex, hp⟩

/-- **The listing is current.** On a schedule on which, once the handler of the last event of a key
    has made its last Redis write, no other handler of the key writes anything else, a listing made
    when all handlers are done is, up to its order, the packages of the last event of each listed
    repository. -/
theorem listing_current (env : Env β) (unmarshal : Unmarshal β)
    (hround : ∀ packages bytes, env.marshal packages = .ok bytes → unmarshal bytes = .ok packages)
    (events : List Event) (ls : List Label) (s : State β)
    (hm : StepsMeet (step (fluxConfig env)) (NoLateWrite (fluxConfig env))
      (init (fun _ => none) events) ls)
    (hs : runs (step (fluxConfig env)) (init (fun _ => none) events) ls = some s) (hd : s.Done)
    (requestItems : List Value) (as : List FetchLabel) (t : Fetching β)
    (hr : runs (fetchStep env unmarshal requestItems) (startFetch env s requestItems) as = some t)
    (hret : t.pool.phase = .returned) :
    (responsePackages t).Perm
      ((requestKeys env requestItems).flatMap (currentPackages env events)) := by
  have hstep : ∀ s l s', Inv (fluxConfig env) (fun _ => none) events s →
      NoLateWrite (fluxConfig env) s l → step (fluxConfig env) s l = some s' →
      Inv (fluxConfig env) (fun _ => none) events s' :=
    fun _ _ _ hi hok h => inv_step (fun _ _ => rfl) hi hok h
  have hc := consistent_of_inv (runs_invariant_of_meet hstep hm hs (inv_init _ _ _)) hd
  have hread : ∀ x ∈ t.pool.received, x.2 = fetchForOne unmarshal s.cache x.1 := by
    intro x hx
    obtain ⟨pre, u, _, hu, hx⟩ := Readers.received_reads hr x hx
    rw [hx, store_of_done hd hu]
  refine (responsePackages_perm (received_perm hr hret) hread).trans ?_
  rw [List.flatMap_congr fun key _ => kept_of_consistent hround hc key]

/-- The handler of the only event, then the request. -/
theorem listing_current_nginx :
    ∃ t : Fetching Packages, responsePackages t = [nginxPackage] ∧
      (responsePackages t).Perm
        ((requestKeys nginxEnv [bitnami]).flatMap (currentPackages nginxEnv bitnamiAdded)) := by
  have hdone : (runs (step (fluxConfig nginxEnv)) (init (fun _ => none) bitnamiAdded) indexed).map
      (fun s => (s.queue.isEmpty && !s.crashed && s.handlers.all fun h => h.pc.isFinished,
        requestOutcome s (takeJob ++ readNginx))) =
      some (true, some (.returned, [nginxPackage])) := by decide +kernel
  obtain ⟨s, hs, he⟩ := Option.map_eq_some_iff.mp hdone
  simp only [Prod.mk.injEq, Bool.and_eq_true, List.isEmpty_iff, Bool.not_eq_true',
    List.all_eq_true] at he
  obtain ⟨⟨⟨hq, hcrash⟩, hfin⟩, hout⟩ := he
  have hd : s.Done := ⟨hq, hcrash, fun h hh => h.pc.isFinished_iff.1 (hfin h hh)⟩
  have hm : StepsMeet (step (fluxConfig nginxEnv)) (NoLateWrite (fluxConfig nginxEnv))
      (init (fun _ => none) bitnamiAdded) indexed :=
    stepsMeet_of_meets (fun _ _ => noLateWrite_of_laterIdle) (by decide +kernel)
  obtain ⟨t, ht, hret, hpackages⟩ := exists_of_requestOutcome hout
  exact ⟨t, hpackages, listing_current nginxEnv .ok (fun _ _ h => h.symm) bitnamiAdded indexed s
    hm hs hd [bitnami] _ t ht hret⟩

end Kubeapps.Flux
