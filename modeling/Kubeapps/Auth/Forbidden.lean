/-
  `GetForbiddenActions`: the result against what the API server refuses.

  The objects are told apart by namespace, API version and kind joined with slashes. A namespace and
  a kind have no slash, so nothing is lost there (`mem_collectResources`). The actions of an upgrade
  are told apart by namespace, API version and resource, and the name of a resource may have one:
  `v1` and `pods/eviction` against `v1/pods` and `eviction`.
-/
import Kubeapps.Auth.Reduce
import Kubeapps.Lib.Joined

namespace Kubeapps.Auth

open Kubeapps.Lib

/-! ## What it is for -/

/-- The verbs that an action needs. -/
def requiredVerbs (action : String) : List String :=
  if action = "upgrade" then upgradeVerbs else [action]

/-- The group version is one the API server knows. -/
def UserAuth.Registered (u : UserAuth) (groupVersion : String) : Prop :=
  ∃ resources, u.getResourceList groupVersion = .ok resources

/-- A verb that the action needs is refused on an object of the manifest, and `t` is what the
    refusal is about. -/
def Refused (u : UserAuth) (ns action : String) (objs : List Unstructured) (v : String)
    (t : Target) : Prop :=
  v ∈ requiredVerbs action ∧ ∃ obj ∈ objs, ∃ rInfo, u.resolve obj.apiVersion obj.kind = .ok rInfo ∧
    ¬ u.Allows v obj.apiVersion rInfo.name (resourceOf ns obj).ns ∧
    t = (if rInfo.namespaced then (resourceOf ns obj).ns else "", obj.apiVersion, rInfo.name)

/-- Everything that is needed on the objects of registered group versions is allowed. -/
def AllAllowed (u : UserAuth) (ns action : String) (objs : List Unstructured) : Prop :=
  ∀ obj ∈ objs, u.Registered obj.apiVersion →
    ∃ rInfo, u.resolve obj.apiVersion obj.kind = .ok rInfo ∧
      ∀ v ∈ requiredVerbs action, u.Allows v obj.apiVersion rInfo.name (resourceOf ns obj).ns

/-- `res` is empty if everything is allowed, and only then; it has every refusal and no verb that
    is not refused. -/
structure Reports (u : UserAuth) (ns action : String) (objs : List Unstructured)
    (res : List Action) : Prop where
  empty_iff : res = [] ↔ AllAllowed u ns action objs
  covered : ∀ v t, Refused u ns action objs v t → ∃ a ∈ res, a.target = t ∧ v ∈ a.verbs
  genuine : ∀ a ∈ res, ∀ v ∈ a.verbs, Refused u ns action objs v a.target

/-- No two refusals are about different targets that are the same when joined. -/
def RefusalsApart (u : UserAuth) (ns action : String) (objs : List Unstructured) : Prop :=
  ∀ v t v' t', Refused u ns action objs v t → Refused u ns action objs v' t' →
    slashed t.1 t.2.1 t.2.2 = slashed t'.1 t'.2.1 t'.2.2 → t = t'

/-! ## The objects -/

/-- A joined text determines its parts if the first and the last have no slash. -/
theorem slashed_inj {a b c a' b' c' : String} (ha : '/' ∉ a.toList) (ha' : '/' ∉ a'.toList)
    (hc : '/' ∉ c.toList) (hc' : '/' ∉ c'.toList) (h : slashed a b c = slashed a' b' c') :
    a = a' ∧ b = b' ∧ c = c' := by
  have hchars : a.toList ++ '/' :: (b.toList ++ '/' :: c.toList) =
      a'.toList ++ '/' :: (b'.toList ++ '/' :: c'.toList) := by
    have h := congrArg String.toList h
    simpa [slashed, String.toList_append] using h
  obtain ⟨hfirst, hrest⟩ := append_cons_inj ha ha' hchars
  have hrev := congrArg List.reverse hrest
  simp only [List.reverse_append, List.reverse_cons, List.append_assoc, List.singleton_append]
    at hrev
  obtain ⟨hlast, hmiddle⟩ := append_cons_inj (by simpa using hc) (by simpa using hc') hrev
  exact ⟨String.toList_inj.mp hfirst, String.toList_inj.mp (List.reverse_inj.mp hmiddle),
    String.toList_inj.mp (List.reverse_inj.mp hlast)⟩

/-- Namespaces and kinds have no slash. -/
def SlashFree (ns : String) (objs : List Unstructured) : Prop :=
  ∀ obj ∈ objs, '/' ∉ (resourceOf ns obj).ns.toList ∧ '/' ∉ obj.kind.toList

instance (ns : String) (objs : List Unstructured) : Decidable (SlashFree ns objs) :=
  inferInstanceAs (Decidable (∀ obj ∈ objs, _))

section Objects

variable {ns : String} {seen : List String} {objs : List Unstructured} {r : Resource}

theorem exists_of_mem_collectResources (h : r ∈ collectResources ns seen objs) :
    ∃ obj ∈ objs, r = resourceOf ns obj := by
  induction objs generalizing seen with
  | nil => cases h
  | cons obj objs ih =>
      unfold collectResources at h
      dsimp only at h
      rw [List.exists_mem_cons_iff]
      split at h
      · exact .inr (ih h)
      · rcases List.mem_cons.mp h with rfl | h
        · exact .inl rfl
        · exact .inr (ih h)

/-- An object is left out only if its key was there. -/
theorem collected {obj : Unstructured} (hobj : obj ∈ objs) :
    (resourceOf ns obj).toCheck ∈ seen ∨
      ∃ r ∈ collectResources ns seen objs, r.toCheck = (resourceOf ns obj).toCheck := by
  induction objs generalizing seen with
  | nil => cases hobj
  | cons first objs ih =>
      unfold collectResources
      dsimp only
      rcases List.mem_cons.mp hobj with rfl | hobj
      · split
        · rename_i hseen
          exact .inl hseen
        · exact .inr ⟨_, List.mem_cons_self, rfl⟩
      · split
        · exact ih hobj
        · rcases ih hobj with hkey | ⟨r, hr, hkey⟩
          · rcases List.mem_cons.mp hkey with hkey | hkey
            · exact .inr ⟨_, List.mem_cons_self, hkey.symm⟩
            · exact .inl hkey
          · exact .inr ⟨r, List.mem_cons_of_mem _ hr, hkey⟩

theorem mem_collectResources (h : SlashFree ns objs) :
    r ∈ collectResources ns [] objs ↔ ∃ obj ∈ objs, r = resourceOf ns obj := by
  constructor
  · exact exists_of_mem_collectResources
  · rintro ⟨obj, hobj, rfl⟩
    have hcol : (resourceOf ns obj).toCheck ∈ ([] : List String) ∨ _ := collected hobj
    rcases hcol with hseen | ⟨r, hr, hkey⟩
    · cases hseen
    · obtain ⟨obj', hobj', rfl⟩ := exists_of_mem_collectResources hr
      obtain ⟨hns, hapi, hkind⟩ := slashed_inj (h obj' hobj').1 (h obj hobj).1 (h obj' hobj').2
        (h obj hobj).2 hkey
      have hsame : resourceOf ns obj' = resourceOf ns obj := Resource.ext hapi hkind hns
      rwa [hsame] at hr

end Objects

/-! ## The refusals -/

section Refusals

variable {rt : Runtime} {y : YamlUtils} {u : UserAuth} {ns action manifest v : String} {t : Target}
  {objs : List Unstructured} {res : List Action} {a : Action}

/-- The refusals of all the required verbs. -/
def allRefusals (u : UserAuth) (ns action : String) (objs : List Unstructured) : List Action :=
  (requiredVerbs action).flatMap fun v => (collectResources ns [] objs).filterMap (u.refusal v)

theorem refusal_eq_some {i : Resource} : u.refusal v i = some a ↔
    ∃ rInfo, u.resolve i.apiVersion i.kind = .ok rInfo ∧
      ¬ u.Allows v i.apiVersion rInfo.name i.ns ∧ a = rejectedAction v i rInfo := by
  cases hres : u.resolve i.apiVersion i.kind with
  | error err =>
      rw [refusal_of_error u v hres]
      simp
  | ok rInfo =>
      rw [refusal_of_resolve u v hres]
      by_cases hall : u.Allows v i.apiVersion rInfo.name i.ns
      · simp [hall]
      · simp [hall, eq_comm]

theorem exists_refusal_iff (h : SlashFree ns objs) :
    Refused u ns action objs v t ↔
      ∃ a ∈ allRefusals u ns action objs, a.target = t ∧ a.verbs = [v] := by
  unfold allRefusals Refused
  simp only [List.mem_flatMap, List.mem_filterMap, mem_collectResources h, refusal_eq_some]
  constructor
  · rintro ⟨hv, obj, hobj, rInfo, hres, hnot, rfl⟩
    exact ⟨_, ⟨v, hv, _, ⟨obj, hobj, rfl⟩, rInfo, hres, hnot, rfl⟩, rfl, rfl⟩
  · rintro ⟨a, ⟨v', hv', r, ⟨obj, hobj, rfl⟩, rInfo, hres, hnot, rfl⟩, htarget, hverbs⟩
    have hv : v' = v := (List.cons.inj hverbs).1
    subst hv
    exact ⟨hv', obj, hobj, rInfo, hres, hnot, htarget.symm⟩

/-- A refusal is one of a single verb. -/
theorem refused_of_mem (h : SlashFree ns objs) (ha : a ∈ allRefusals u ns action objs) :
    ∃ v, a.verbs = [v] ∧ Refused u ns action objs v a.target := by
  have hverb : ∃ v, a.verbs = [v] := by
    unfold allRefusals at ha
    obtain ⟨v, _, ha⟩ := List.mem_flatMap.mp ha
    obtain ⟨i, _, ha⟩ := List.mem_filterMap.mp ha
    obtain ⟨rInfo, _, _, rfl⟩ := refusal_eq_some.1 ha
    exact ⟨v, rfl⟩
  obtain ⟨v, hv⟩ := hverb
  exact ⟨v, hv, (exists_refusal_iff h).mpr ⟨a, ha, rfl, hv⟩⟩

/-- What a run without an error has learned. -/
theorem getForbiddenActions_eq (hobjs : parseObjects y manifest = .ok objs)
    (h : getForbiddenActions rt y u ns action manifest = .ok res) :
    (∀ i ∈ collectResources ns [] objs, (∃ rInfo, u.resolve i.apiVersion i.kind = .ok rInfo) ∨
      ∃ msg, u.resolve i.apiVersion i.kind = .error (.notFound msg)) ∧
    res = if action = "upgrade" then reduceActionsByVerb rt (allRefusals u ns action objs)
      else allRefusals u ns action objs := by
  have hres : getResourcesToCheck y ns manifest = .ok (collectResources ns [] objs) := by
    unfold getResourcesToCheck
    rw [hobjs]
    rfl
  by_cases hup : action = "upgrade"
  · subst hup
    refine ⟨?_, upgrade_eq_reduce hres h⟩
    unfold getForbiddenActions at h
    rw [hres] at h
    obtain ⟨actions, hactions, _⟩ :=
      bind_eq_ok (x := u.isAllowedAll (collectResources ns [] objs) upgradeVerbs) h
    obtain ⟨first, hfirst, _⟩ := bind_eq_ok hactions
    exact resolves_of_isAllowed u "create" hfirst
  · unfold getForbiddenActions at h
    rw [hres] at h
    have h : u.isAllowed action (collectResources ns [] objs) = .ok res := by
      simpa [bind, Except.bind, hup] using h
    refine ⟨resolves_of_isAllowed u action h, ?_⟩
    rw [if_neg hup, isAllowed_eq u action h]
    simp [allRefusals, requiredVerbs, hup]

theorem allRefusals_eq_nil_iff (h : SlashFree ns objs)
    (hresolve : ∀ i ∈ collectResources ns [] objs,
      (∃ rInfo, u.resolve i.apiVersion i.kind = .ok rInfo) ∨
        ∃ msg, u.resolve i.apiVersion i.kind = .error (.notFound msg)) :
    allRefusals u ns action objs = [] ↔ AllAllowed u ns action objs := by
  constructor
  · intro hnil obj hobj ⟨resources, hreg⟩
    rcases hresolve _ ((mem_collectResources h).mpr ⟨obj, hobj, rfl⟩) with
      ⟨rInfo, hres⟩ | ⟨msg, herr⟩
    · refine ⟨rInfo, hres, fun v hv => ?_⟩
      by_contra hnot
      obtain ⟨a, ha, _⟩ := (exists_refusal_iff h).mp ⟨hv, obj, hobj, rInfo, hres, hnot, rfl⟩
      rw [hnil] at ha
      cases ha
    · have herr : u.resolve obj.apiVersion obj.kind = .error (.notFound msg) := herr
      unfold UserAuth.resolve at herr
      rw [hreg] at herr
      dsimp only at herr
      split at herr <;> cases herr
  · intro hall
    rw [List.eq_nil_iff_forall_not_mem]
    intro a ha
    obtain ⟨v, _, hv, obj, hobj, rInfo, hres, hnot, _⟩ := refused_of_mem h ha
    have hreg : u.Registered obj.apiVersion := by
      unfold UserAuth.resolve at hres
      split at hres
      · cases hres
      · rename_i resources hlist
        exact ⟨resources, hlist⟩
    obtain ⟨rInfo', hres', hallows⟩ := hall obj hobj hreg
    rw [hres] at hres'
    exact hnot (Except.ok.inj hres' ▸ hallows v hv)

theorem reduce_eq_nil_iff {actions : List Action} :
    reduceActionsByVerb rt actions = [] ↔ actions = [] := by
  constructor
  · intro hnil
    rw [List.eq_nil_iff_forall_not_mem]
    intro a ha
    have hmem : a ∈ actions.filter fun b => b.req = a.req := by simp [ha]
    obtain ⟨b, rest, hgroup⟩ := List.exists_cons_of_ne_nil (List.ne_nil_of_mem hmem)
    have hr : rest.foldl Action.merge b ∈ reduceActionsByVerb rt actions :=
      mem_reduceActionsByVerb.2 ⟨a.req, by rw [hgroup]; rfl⟩
    rw [hnil] at hr
    cases hr
  · rintro rfl
    exact reduceActionsByVerb_nil rt

theorem unambiguous_iff (h : SlashFree ns objs) :
    Unambiguous (allRefusals u ns action objs) ↔ RefusalsApart u ns action objs := by
  constructor
  · intro hu v t v' t' ht ht' heq
    obtain ⟨a, ha, rfl, _⟩ := (exists_refusal_iff h).mp ht
    obtain ⟨b, hb, rfl, _⟩ := (exists_refusal_iff h).mp ht'
    exact hu a ha b hb heq
  · intro hapart a ha b hb heq
    obtain ⟨v, _, hv⟩ := refused_of_mem h ha
    obtain ⟨v', _, hv'⟩ := refused_of_mem h hb
    exact hapart v _ v' _ hv hv' heq

/-- The unmerged refusals report what is refused. -/
theorem reports_allRefusals (h : SlashFree ns objs)
    (hempty : allRefusals u ns action objs = [] ↔ AllAllowed u ns action objs) :
    Reports u ns action objs (allRefusals u ns action objs) := by
  refine ⟨hempty, ?_, ?_⟩
  · intro v t ht
    obtain ⟨a, ha, htarget, hverbs⟩ := (exists_refusal_iff h).mp ht
    exact ⟨a, ha, htarget, by rw [hverbs]; exact List.mem_singleton_self v⟩
  · intro a ha v hv
    obtain ⟨v', hverbs, href⟩ := refused_of_mem h ha
    rw [hverbs] at hv
    rwa [List.mem_singleton.mp hv]

/-- The merged refusals do if no two targets are confused, and only then. -/
theorem reports_reduce_iff (h : SlashFree ns objs)
    (hempty : allRefusals u ns action objs = [] ↔ AllAllowed u ns action objs) :
    Reports u ns action objs (reduceActionsByVerb rt (allRefusals u ns action objs)) ↔
      RefusalsApart u ns action objs := by
  rw [← unambiguous_iff h]
  constructor
  · intro hrep a ha b hb heq
    obtain ⟨v, _, hv⟩ := refused_of_mem h ha
    obtain ⟨v', _, hv'⟩ := refused_of_mem h hb
    obtain ⟨r, hr, hrt, _⟩ := hrep.covered v _ hv
    obtain ⟨r', hr', hrt', _⟩ := hrep.covered v' _ hv'
    -- there is one action for a key
    have hreq : r.req = r'.req := by rw [req_congr hrt, req_congr hrt', heq]
    have hone : r = r' := List.inj_on_of_nodup_map nodup_reqs hr hr' hreq
    rw [← hrt, hone, hrt']
  · intro hu
    refine ⟨reduce_eq_nil_iff.trans hempty, ?_, ?_⟩
    · intro v t ht
      obtain ⟨a, ha, rfl, hverbs⟩ := (exists_refusal_iff h).mp ht
      have htargets : a.target ∈ (reduceActionsByVerb rt _).map Action.target :=
        (mem_targets hu).mpr (List.mem_map_of_mem ha)
      obtain ⟨r, hr, hrt⟩ := List.mem_map.mp htargets
      refine ⟨r, hr, hrt, (mem_verbs hu hr v).mpr ⟨a, ha, hrt.symm, ?_⟩⟩
      rw [hverbs]
      exact List.mem_singleton_self v
    · intro r hr v hv
      obtain ⟨a, ha, htarget, hav⟩ := (mem_verbs hu hr v).mp hv
      obtain ⟨v', hverbs, href⟩ := refused_of_mem h ha
      rw [hverbs] at hav
      rwa [List.mem_singleton.mp hav, ← htarget]

/-- What is reported is what is refused, unless an upgrade merges two targets into one. -/
theorem getForbiddenActions_reports_iff (hslash : SlashFree ns objs)
    (hobjs : parseObjects y manifest = .ok objs)
    (h : getForbiddenActions rt y u ns action manifest = .ok res) :
    Reports u ns action objs res ↔ (action = "upgrade" → RefusalsApart u ns action objs) := by
  obtain ⟨hresolve, hres⟩ := getForbiddenActions_eq hobjs h
  have hempty : allRefusals u ns action objs = [] ↔ AllAllowed u ns action objs :=
    allRefusals_eq_nil_iff hslash hresolve
  by_cases hup : action = "upgrade"
  · rw [hres, if_pos hup, reports_reduce_iff hslash hempty]
    exact ⟨fun hapart _ => hapart, fun hapart => hapart hup⟩
  · rw [hres, if_neg hup]
    exact ⟨fun _ hno => absurd hno hup, fun _ => reports_allRefusals hslash hempty⟩

end Refusals

/-- A manifest with an object of `v1` and one of `v1/pods`. -/
def twoEvictions : YamlUtils where
  read _ := [.ok "eviction", .ok "evict"]
  toJSON := .ok
  decode doc := .ok (.unstructured
    (if doc = "eviction" then ⟨"", "v1", "Eviction"⟩ else ⟨"", "v1/pods", "Evict"⟩))

/-- A user who may do nothing. -/
def mayNothing : UserAuth where
  getResourceList groupVersion :=
    if groupVersion = "v1" then .ok [⟨"pods/eviction", "Eviction", true⟩]
    else .ok [⟨"eviction", "Evict", true⟩]
  canI _ _ _ _ := .ok false

/-- Two resources are refused, and the report of the upgrade has only the second. -/
theorem not_reports_twoEvictions :
    SlashFree "default" [⟨"", "v1", "Eviction"⟩, ⟨"", "v1/pods", "Evict"⟩] ∧
      parseObjects twoEvictions "m" = .ok [⟨"", "v1", "Eviction"⟩, ⟨"", "v1/pods", "Evict"⟩] ∧
      getForbiddenActions Runtime.stable twoEvictions mayNothing "default" "upgrade" "m" =
        .ok [⟨"v1/pods", "eviction", "default", false, ["create", "update", "delete"]⟩] ∧
      ¬ Reports mayNothing "default" "upgrade" [⟨"", "v1", "Eviction"⟩, ⟨"", "v1/pods", "Evict"⟩]
        [⟨"v1/pods", "eviction", "default", false, ["create", "update", "delete"]⟩] := by
  refine ⟨by decide, by decide, by decide, fun h => ?_⟩
  obtain ⟨a, ha, htarget, _⟩ := h.covered "create" ("default", "v1", "pods/eviction")
    ⟨by decide, ⟨"", "v1", "Eviction"⟩, by decide, ⟨"pods/eviction", true⟩, rfl, by decide, rfl⟩
  rw [List.mem_singleton.mp ha] at htarget
  exact absurd htarget (by decide)

/-- A manifest with a pod, a deployment of another namespace and a cluster role. -/
def threeObjects : YamlUtils where
  read _ := [.ok "pod", .ok "deployment", .ok "role"]
  toJSON := .ok
  decode doc := .ok (.unstructured
    (if doc = "pod" then ⟨"", "v1", "Pod"⟩
    else if doc = "deployment" then ⟨"team", "apps/v1", "Deployment"⟩
    else ⟨"", "rbac/v1", "ClusterRole"⟩))

/-- A user who may not delete deployments, and may do nothing with cluster roles. -/
def deploys : UserAuth where
  getResourceList groupVersion :=
    if groupVersion = "v1" then .ok [⟨"pods", "Pod", true⟩]
    else if groupVersion = "apps/v1" then .ok [⟨"deployments", "Deployment", true⟩]
    else .ok [⟨"clusterroles", "ClusterRole", false⟩]
  canI verb _ resource _ := .ok (resource = "pods" || resource = "deployments" && verb ≠ "delete")

/-- The report of an upgrade has what is refused on two of the objects. -/
theorem getForbiddenActions_reports_upgrade :
    Reports deploys "default" "upgrade"
      [⟨"", "v1", "Pod"⟩, ⟨"team", "apps/v1", "Deployment"⟩, ⟨"", "rbac/v1", "ClusterRole"⟩]
      [⟨"rbac/v1", "clusterroles", "", false, ["create", "update", "delete"]⟩,
        ⟨"apps/v1", "deployments", "team", false, ["delete"]⟩] := by
  have hobjs : parseObjects threeObjects "m" =
      .ok [⟨"", "v1", "Pod"⟩, ⟨"team", "apps/v1", "Deployment"⟩, ⟨"", "rbac/v1", "ClusterRole"⟩] := by
    decide
  have hres : getForbiddenActions Runtime.stable threeObjects deploys "default" "upgrade" "m" =
      .ok [⟨"rbac/v1", "clusterroles", "", false, ["create", "update", "delete"]⟩,
        ⟨"apps/v1", "deployments", "team", false, ["delete"]⟩] := by decide +kernel
  refine (getForbiddenActions_reports_iff (by decide) hobjs hres).mpr fun _ => ?_
  rw [← unambiguous_iff (by decide)]
  unfold Unambiguous
  decide +kernel

end Kubeapps.Auth
