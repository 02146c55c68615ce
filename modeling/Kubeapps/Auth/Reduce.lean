/-
  `reduceActionsByVerb`: one action for each namespace, API version and resource.

  The actions of one target are folded with `Action.merge`, so the result has the verbs of all
  (`mem_verbs_merged`) and no verb twice if the first action has none twice (`nodup_verbs_merged`),
  but a cluster-wide flag only if there is nothing to merge (`clusterWide_merged`).
-/
import Kubeapps.Auth.Auth

namespace Kubeapps.Auth

open Kubeapps.Lib

/-! ## What it is for -/

/-- What an action is about: the namespace, the API version and the resource. -/
abbrev Target := String × String × String

def Action.target (a : Action) : Target := (a.ns, a.apiVersion, a.resource)

/-- The actions about one target. -/
def group (actions : List Action) (t : Target) : List Action :=
  actions.filter fun a => a.target = t

/-- No two targets are the same text when joined. -/
def Unambiguous (actions : List Action) : Prop :=
  ∀ a ∈ actions, ∀ b ∈ actions, a.req = b.req → a.target = b.target

/-- The actions of a target agree on whether it is cluster-wide. -/
def SameFlag (actions : List Action) : Prop :=
  ∀ a ∈ actions, ∀ b ∈ actions, a.target = b.target → a.clusterWide = b.clusterWide

/-- `res` has one action for each target, with its distinct verbs and its flag. -/
structure Reduced (actions res : List Action) : Prop where
  nodup : (res.map Action.target).Nodup
  targets : ∀ t, t ∈ res.map Action.target ↔ t ∈ actions.map Action.target
  verbs_nodup : ∀ r ∈ res, r.verbs.Nodup
  verbs : ∀ r ∈ res, ∀ v, v ∈ r.verbs ↔ ∃ a ∈ actions, a.target = r.target ∧ v ∈ a.verbs
  clusterWide : ∀ r ∈ res, ∀ a ∈ actions, a.target = r.target → r.clusterWide = a.clusterWide

/-- A target that is refused cluster-wide is reported as cluster-wide. -/
def ClusterWideKept (actions res : List Action) : Prop :=
  ∀ a ∈ actions, a.clusterWide = true → ∃ r ∈ res, r.target = a.target ∧ r.clusterWide = true

/-- Nothing that is lost in the reduction is in `actions`: the first action of a target repeats no
    verb, and a cluster-wide target has no second one. -/
def Plain (actions : List Action) : Prop :=
  ∀ t a rest, group actions t = a :: rest →
    a.verbs.Nodup ∧ (rest = [] ∨ a.clusterWide = false)

/-- Every cluster-wide refusal is the only one of its target. -/
def RefusedOnce (actions : List Action) : Prop :=
  ∀ a ∈ actions, a.clusterWide = true → group actions a.target = [a]

instance (actions : List Action) : Decidable (Unambiguous actions) :=
  inferInstanceAs (Decidable (∀ a ∈ actions, ∀ b ∈ actions, _))

instance (actions : List Action) : Decidable (SameFlag actions) :=
  inferInstanceAs (Decidable (∀ a ∈ actions, ∀ b ∈ actions, _))

instance (actions : List Action) : Decidable (RefusedOnce actions) :=
  inferInstanceAs (Decidable (∀ a ∈ actions, _))

/-! ## Merging the actions of one target -/

section Merged

variable {current new verbs : List String} {v : String} {a b r : Action} {rest : List Action}

theorem mem_uniqVerbs : v ∈ uniqVerbs current new ↔ v ∈ current ∨ v ∈ new := by
  unfold uniqVerbs
  induction new generalizing current with
  | nil => simp
  | cons w new ih =>
      rw [List.foldl_cons, ih]
      split
      · rename_i hw
        constructor
        · rintro (h | h)
          · exact .inl h
          · exact .inr (List.mem_cons_of_mem _ h)
        · rintro (h | h)
          · exact .inl h
          · rcases List.mem_cons.mp h with rfl | h
            · exact .inl hw
            · exact .inr h
      · simp [or_assoc]

theorem nodup_uniqVerbs : (uniqVerbs current new).Nodup ↔ current.Nodup := by
  unfold uniqVerbs
  induction new generalizing current with
  | nil => rfl
  | cons w new ih =>
      rw [List.foldl_cons, ih]
      split
      · rfl
      · rename_i hw
        rw [List.nodup_append]
        constructor
        · exact fun h => h.1
        · exact fun h => ⟨h, List.nodup_singleton _, fun x hx y hy hxy => by
            rw [List.mem_singleton.mp hy] at hxy
            exact hw (hxy ▸ hx)⟩

theorem req_merge : (a.merge b).req = b.req := rfl

theorem target_merge : (a.merge b).target = b.target := rfl

theorem target_merged {t : Target} (h : ∀ b ∈ a :: rest, b.target = t) :
    (rest.foldl Action.merge a).target = t := by
  induction rest generalizing a with
  | nil => exact h a (List.mem_singleton_self a)
  | cons b rest ih =>
      rw [List.forall_mem_cons, List.forall_mem_cons] at h
      rw [List.foldl_cons]
      exact ih (List.forall_mem_cons.mpr ⟨h.2.1, h.2.2⟩)

theorem req_merged {k : String} (h : ∀ b ∈ a :: rest, b.req = k) :
    (rest.foldl Action.merge a).req = k := by
  induction rest generalizing a with
  | nil => exact h a (List.mem_singleton_self a)
  | cons b rest ih =>
      rw [List.forall_mem_cons, List.forall_mem_cons] at h
      rw [List.foldl_cons]
      exact ih (List.forall_mem_cons.mpr ⟨h.2.1, h.2.2⟩)

theorem mem_verbs_merged :
    v ∈ (rest.foldl Action.merge a).verbs ↔ ∃ b ∈ a :: rest, v ∈ b.verbs := by
  induction rest generalizing a with
  | nil => simp
  | cons b rest ih =>
      rw [List.foldl_cons, ih]
      have hmerge : v ∈ (a.merge b).verbs ↔ v ∈ a.verbs ∨ v ∈ b.verbs := mem_uniqVerbs
      simp only [List.exists_mem_cons_iff, hmerge]
      exact or_assoc

theorem nodup_verbs_merged : (rest.foldl Action.merge a).verbs.Nodup ↔ a.verbs.Nodup := by
  induction rest generalizing a with
  | nil => rfl
  | cons b rest ih =>
      rw [List.foldl_cons, ih]
      exact nodup_uniqVerbs

theorem clusterWide_merged :
    (rest.foldl Action.merge a).clusterWide = true ↔ rest = [] ∧ a.clusterWide = true := by
  induction rest generalizing a with
  | nil => simp
  | cons b rest ih =>
      rw [List.foldl_cons, ih]
      simp [Action.merge]

end Merged

/-! ## The reduced list -/

section Reduce

variable {rt : Runtime} {actions : List Action} {a b r : Action} {rest : List Action} {t : Target}

theorem mem_group : a ∈ group actions t ↔ a ∈ actions ∧ a.target = t := by
  simp [group]

theorem exists_group (h : a ∈ actions) : ∃ b rest, group actions a.target = b :: rest := by
  have hmem : a ∈ group actions a.target := mem_group.2 ⟨h, rfl⟩
  exact List.exists_cons_of_ne_nil (List.ne_nil_of_mem hmem)

theorem req_congr (h : a.target = b.target) : a.req = b.req := by
  unfold Action.target at h
  unfold Action.req
  rw [(Prod.mk.inj h).1, (Prod.mk.inj (Prod.mk.inj h).2).1, (Prod.mk.inj (Prod.mk.inj h).2).2]

theorem filter_req (h : Unambiguous actions) (ha : a ∈ actions) :
    actions.filter (fun b => b.req = a.req) = group actions a.target := by
  unfold group
  apply List.filter_congr
  intro b hb
  rw [decide_eq_decide]
  exact ⟨h b hb a ha, req_congr⟩

theorem mem_reduceActionsByVerb : r ∈ reduceActionsByVerb rt actions ↔
    ∃ k, mergeAll Action.merge (actions.filter fun b => b.req = k) = some r := by
  unfold reduceActionsByVerb
  rw [List.mem_map]
  constructor
  · rintro ⟨⟨k, r'⟩, hmem, rfl⟩
    exact ⟨k, (mem_mergeByKey _ _).mp ((rt.range_perm _).mem_iff.mp hmem)⟩
  · rintro ⟨k, h⟩
    exact ⟨(k, r), (rt.range_perm _).mem_iff.mpr ((mem_mergeByKey _ _).mpr h), rfl⟩

theorem mem_reduce_iff_group (h : Unambiguous actions) : r ∈ reduceActionsByVerb rt actions ↔
    ∃ a rest, group actions a.target = a :: rest ∧ r = rest.foldl Action.merge a := by
  rw [mem_reduceActionsByVerb]
  constructor
  · rintro ⟨k, hk⟩
    cases hgroup : actions.filter fun b => b.req = k with
    | nil =>
        rw [hgroup] at hk
        cases hk
    | cons a rest =>
        rw [hgroup] at hk
        have ha := List.mem_filter.mp (hgroup ▸ List.mem_cons_self : a ∈ _)
        have hreq : a.req = k := of_decide_eq_true ha.2
        rw [← hreq, filter_req h ha.1] at hgroup
        exact ⟨a, rest, hgroup, (Option.some.inj hk).symm⟩
  · rintro ⟨a, rest, hgroup, rfl⟩
    have ha := mem_group.1 (hgroup ▸ List.mem_cons_self : a ∈ group actions a.target)
    exact ⟨a.req, by rw [filter_req h ha.1, hgroup]; rfl⟩

/-- The merged action of a target is about it. -/
theorem target_of_group (h : group actions t = a :: rest) :
    (rest.foldl Action.merge a).target = t :=
  target_merged fun _ hb => (mem_group.1 (h ▸ hb)).2

theorem target_head (h : group actions t = a :: rest) : a.target = t :=
  (mem_group.1 (h ▸ List.mem_cons_self : a ∈ group actions t)).2

/-- The reduced action of a target. -/
theorem mem_reduce_of_group (hu : Unambiguous actions) (h : group actions t = a :: rest) :
    rest.foldl Action.merge a ∈ reduceActionsByVerb rt actions := by
  have ht := target_head h
  exact (mem_reduce_iff_group hu).mpr ⟨a, rest, by rw [ht, h], rfl⟩

theorem nodup_reqs : ((reduceActionsByVerb rt actions).map Action.req).Nodup := by
  have hkeys : (reduceActionsByVerb rt actions).map Action.req =
      (rt.range (mergeByKey Action.req Action.merge actions)).map Prod.fst := by
    unfold reduceActionsByVerb
    rw [List.map_map]
    apply List.map_congr_left
    rintro ⟨k, r⟩ hmem
    have hk := (mem_mergeByKey _ _).mp ((rt.range_perm _).mem_iff.mp hmem)
    cases hgroup : actions.filter fun b => b.req = k with
    | nil =>
        rw [hgroup] at hk
        cases hk
    | cons a rest =>
        rw [hgroup] at hk
        show r.req = k
        rw [← Option.some.inj hk]
        exact req_merged fun b hb =>
          of_decide_eq_true (List.mem_filter.mp (hgroup ▸ hb : b ∈ _)).2
  rw [hkeys]
  exact ((rt.range_perm _).map Prod.fst).nodup_iff.mpr (nodup_keys_mergeByKey _ _ _)

theorem nodup_targets : ((reduceActionsByVerb rt actions).map Action.target).Nodup := by
  have hreq : (reduceActionsByVerb rt actions).map Action.req =
      ((reduceActionsByVerb rt actions).map Action.target).map
        fun t => slashed t.1 t.2.1 t.2.2 := by
    rw [List.map_map]
    rfl
  exact List.Nodup.of_map _ (hreq ▸ nodup_reqs)

/-- The targets and the verbs are right whatever the flags are. -/
theorem mem_targets (h : Unambiguous actions) :
    t ∈ (reduceActionsByVerb rt actions).map Action.target ↔ t ∈ actions.map Action.target := by
  rw [List.mem_map, List.mem_map]
  constructor
  · rintro ⟨r, hr, rfl⟩
    obtain ⟨a, rest, hgroup, rfl⟩ := (mem_reduce_iff_group h).mp hr
    have ha := mem_group.1 (hgroup ▸ List.mem_cons_self : a ∈ group actions a.target)
    exact ⟨a, ha.1, (target_of_group hgroup).symm⟩
  · rintro ⟨a, ha, rfl⟩
    obtain ⟨b, rest, hgroup⟩ := exists_group ha
    exact ⟨_, mem_reduce_of_group h hgroup, target_of_group hgroup⟩

theorem mem_verbs (h : Unambiguous actions) (hr : r ∈ reduceActionsByVerb rt actions)
    (v : String) : v ∈ r.verbs ↔ ∃ a ∈ actions, a.target = r.target ∧ v ∈ a.verbs := by
  obtain ⟨a, rest, hgroup, rfl⟩ := (mem_reduce_iff_group h).mp hr
  rw [mem_verbs_merged, ← hgroup, target_of_group hgroup]
  simp only [mem_group, and_assoc]

theorem reduced_iff (h : Unambiguous actions) (hflag : SameFlag actions) :
    Reduced actions (reduceActionsByVerb rt actions) ↔ Plain actions := by
  constructor
  · intro hred t a rest hgroup
    have hmem : rest.foldl Action.merge a ∈ reduceActionsByVerb rt actions :=
      mem_reduce_of_group h hgroup
    have htarget := target_of_group hgroup
    have ha := mem_group.1 (hgroup ▸ List.mem_cons_self : a ∈ group actions t)
    refine ⟨nodup_verbs_merged.1 (hred.verbs_nodup _ hmem), ?_⟩
    have hsame := hred.clusterWide _ hmem a ha.1 (by rw [htarget, ha.2])
    cases hwide : a.clusterWide with
    | false => exact .inr rfl
    | true => exact .inl (clusterWide_merged.1 (hsame.trans hwide)).1
  · intro hplain
    refine ⟨nodup_targets, fun t => mem_targets h, ?_, fun r hr => mem_verbs h hr, ?_⟩
    · intro r hr
      obtain ⟨a, rest, hgroup, rfl⟩ := (mem_reduce_iff_group h).mp hr
      exact nodup_verbs_merged.2 (hplain _ a rest hgroup).1
    · intro r hr b hb hbt
      obtain ⟨a, rest, hgroup, rfl⟩ := (mem_reduce_iff_group h).mp hr
      have ha := mem_group.1 (hgroup ▸ List.mem_cons_self : a ∈ group actions a.target)
      rw [target_of_group hgroup] at hbt
      rw [hflag b hb a ha.1 hbt, Bool.eq_iff_iff, clusterWide_merged]
      rcases (hplain _ a rest hgroup).2 with hrest | hwide
      · simp [hrest]
      · simp [hwide]

theorem clusterWideKept_iff (h : Unambiguous actions) :
    ClusterWideKept actions (reduceActionsByVerb rt actions) ↔ RefusedOnce actions := by
  constructor
  · intro hkept a ha hwide
    obtain ⟨r, hr, htarget, hrwide⟩ := hkept a ha hwide
    obtain ⟨b, rest, hgroup, rfl⟩ := (mem_reduce_iff_group h).mp hr
    rw [target_of_group hgroup] at htarget
    have hrest := (clusterWide_merged.1 hrwide).1
    rw [htarget, hrest] at hgroup
    have hab : a ∈ [b] := hgroup ▸ mem_group.2 ⟨ha, rfl⟩
    rw [hgroup, List.mem_singleton.mp hab]
  · intro honce a ha hwide
    have hgroup := honce a ha hwide
    exact ⟨a, mem_reduce_of_group h hgroup, rfl, hwide⟩

end Reduce

/-! ## The messages and the upgrade check -/

/-- The verbs an upgrade needs. -/
def upgradeVerbs : List String := ["create", "update", "delete"]

/-- The refusals of an upgrade, verb by verb. -/
def upgradeRefusals (u : UserAuth) (resources : List Resource) : List Action :=
  upgradeVerbs.flatMap fun v => resources.filterMap (u.refusal v)

theorem reduceActionsByVerb_nil (rt : Runtime) : reduceActionsByVerb rt [] = [] := by
  unfold reduceActionsByVerb
  rw [List.map_eq_nil_iff, ← List.perm_nil]
  exact rt.range_perm _

/-- An upgrade reports the reduced refusals. -/
theorem upgrade_eq_reduce {rt : Runtime} {y : YamlUtils} {u : UserAuth}
    {ns manifest : String} {resources : List Resource} {res : List Action}
    (hres : getResourcesToCheck y ns manifest = .ok resources)
    (h : getForbiddenActions rt y u ns "upgrade" manifest = .ok res) :
    res = reduceActionsByVerb rt (upgradeRefusals u resources) := by
  unfold getForbiddenActions at h
  rw [hres] at h
  obtain ⟨actions, hactions, h⟩ := bind_eq_ok (x := u.isAllowedAll resources upgradeVerbs) h
  have hrefusals : actions = upgradeRefusals u resources := isAllowedAll_eq u hactions
  rw [← hrefusals, ← Except.ok.inj h]
  by_cases hnil : actions = []
  · rw [if_neg (not_not.mpr hnil), hnil, reduceActionsByVerb_nil]
  · rw [if_pos hnil]

/-- The reduction is right on the lists without a repeated verb in front and without a second
    cluster-wide action; a message or an upgrade keeps what is cluster-wide exactly when every
    cluster-wide target is refused once. -/
theorem reduceActionsByVerb_iff (rt : Runtime) :
    (∀ actions, Unambiguous actions → SameFlag actions →
      (Reduced actions (reduceActionsByVerb rt actions) ↔ Plain actions)) ∧
    (∀ message, Unambiguous (refusals message) →
      (ClusterWideKept (refusals message) (parseForbiddenActions rt message) ↔
        RefusedOnce (refusals message))) ∧
    ∀ y u ns manifest resources res, getResourcesToCheck y ns manifest = .ok resources →
      getForbiddenActions rt y u ns "upgrade" manifest = .ok res →
      Unambiguous (upgradeRefusals u resources) →
      (ClusterWideKept (upgradeRefusals u resources) res ↔
        RefusedOnce (upgradeRefusals u resources)) := by
  refine ⟨fun actions h hflag => reduced_iff h hflag, fun message h => clusterWideKept_iff h, ?_⟩
  intro y u ns manifest resources res hres hok h
  rw [upgrade_eq_reduce hres hok]
  exact clusterWideKept_iff h

/-- An action on the nodes of a cluster. -/
def onNodes (verbs : List String) : Action := ⟨"", "nodes", "", true, verbs⟩

/-- A user who may neither get nor list the nodes. -/
def twoRefusals : String :=
  "User \"u\" cannot get resource \"nodes\" in API group \"\";" ++
    "User \"u\" cannot list resource \"nodes\" in API group \"\""

set_option maxRecDepth 4000 in
theorem refusals_twoRefusals : refusals twoRefusals = [onNodes ["get"], onNodes ["list"]] := by
  decide

/-- Of two refused verbs on the nodes, one action is left, and it is not cluster-wide. -/
theorem not_reduced_onNodes :
    Unambiguous [onNodes ["get"], onNodes ["list"]] ∧
      SameFlag [onNodes ["get"], onNodes ["list"]] ∧
      ¬ Reduced [onNodes ["get"], onNodes ["list"]]
        (reduceActionsByVerb Runtime.stable [onNodes ["get"], onNodes ["list"]]) ∧
      parseForbiddenActions Runtime.stable twoRefusals =
        [⟨"", "nodes", "", false, ["get", "list"]⟩] := by
  refine ⟨by decide, by decide, fun h => ?_, ?_⟩
  · have hwide := h.clusterWide ⟨"", "nodes", "", false, ["get", "list"]⟩ (by decide)
      (onNodes ["get"]) (by decide) rfl
    nomatch hwide
  · unfold parseForbiddenActions
    rw [refusals_twoRefusals]
    decide

/-- A manifest with one object, a cluster role. -/
def oneRole : YamlUtils where
  read _ := [.ok "role"]
  toJSON := .ok
  decode _ := .ok (.unstructured ⟨"", "rbac/v1", "ClusterRole"⟩)

/-- A user who may not delete cluster roles. -/
def keepsRoles : UserAuth where
  getResourceList _ := .ok [⟨"clusterroles", "ClusterRole", false⟩]
  canI verb _ _ _ := .ok (verb ≠ "delete")

theorem reduceActionsByVerb_iff_onNodes :
    Reduced [onNodes ["get"]] (reduceActionsByVerb Runtime.stable [onNodes ["get"]]) ∧
    ¬ ClusterWideKept (refusals twoRefusals) (parseForbiddenActions Runtime.stable twoRefusals) ∧
    ClusterWideKept (upgradeRefusals keepsRoles [⟨"rbac/v1", "ClusterRole", "default"⟩])
      [⟨"rbac/v1", "clusterroles", "", true, ["delete"]⟩] := by
  have h := reduceActionsByVerb_iff Runtime.stable
  refine ⟨(h.1 [onNodes ["get"]] (by decide) (by decide)).mpr ?_, ?_, ?_⟩
  · intro t a rest hgroup
    have ha : a ∈ [onNodes ["get"]] :=
      (mem_group.1 (hgroup ▸ List.mem_cons_self : a ∈ group _ t)).1
    have hrest : rest = [] := by
      have hlen := List.length_filter_le (fun b : Action => decide (b.target = t)) [onNodes ["get"]]
      unfold group at hgroup
      rw [hgroup] at hlen
      exact List.length_eq_zero_iff.mp (by simpa using hlen)
    rw [List.mem_singleton.mp ha]
    exact ⟨by decide, .inl hrest⟩
  · rw [h.2.1 twoRefusals (by rw [refusals_twoRefusals]; decide), refusals_twoRefusals]
    decide
  · exact (h.2.2 oneRole keepsRoles "default" "m" [⟨"rbac/v1", "ClusterRole", "default"⟩] _
      (by decide) (by decide) (by decide)).mpr (by decide)

end Kubeapps.Auth
