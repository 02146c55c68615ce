/-
  The AppRepository requests of the dashboard (src/dashboard/src/shared/AppRepository.ts: update,
  create).

  Both write the fields of the form into an object of their own; they differ in the order of the
  fields and in the name of the filter, `filter` in an update and `filterRule` in a create. The
  server knows the second one only (`parse_create`, `parse_update`).

  `update_as_create_iff`: the two ask for the same spec exactly if there is no filter to lose, or
  the pod template is refused in both.
-/
import Kubeapps.Kube.RepoRequest

namespace Kubeapps.Dashboard

open Kubeapps.Lib Kubeapps.Kube Kubeapps.Controller
open Kubeapps.Syncer (FilterRuleSpec)

/-- `IAppRepositoryFilter`; `vars` are its `variables`. The keys of an object are distinct. -/
structure AppRepositoryFilter where
  jq : String
  vars : Option (List (String × String))
  distinct : ∀ entries, vars = some entries → (entries.map Prod.fst).Nodup

def AppRepositoryFilter.json (filter : AppRepositoryFilter) : Json :=
  .object [("jq", some (.str filter.jq)), ("variables", filter.vars.map Json.stringMap)]

/-- The rule that the server stores for a filter. -/
def AppRepositoryFilter.rule (filter : AppRepositoryFilter) : FilterRuleSpec :=
  ⟨filter.jq, filter.vars.getD []⟩

/-- The arguments of both functions. The pod template is any value, or undefined. -/
structure RepositoryForm where
  name : String
  repoURL : String
  type : String
  description : String
  authHeader : String
  authRegCreds : String
  customCA : String
  syncJobPodTemplate : Option Json
  registrySecrets : List String
  ociRepositories : List String
  skipTLS : Bool
  passCredentials : Bool
  filter : Option AppRepositoryFilter

/-- The body that `update` sends. -/
def update (form : RepositoryForm) : Json :=
  .object [("appRepository", some (.object [
    ("name", some (.str form.name)),
    ("repoURL", some (.str form.repoURL)),
    ("type", some (.str form.type)),
    ("description", some (.str form.description)),
    ("authHeader", some (.str form.authHeader)),
    ("authRegCreds", some (.str form.authRegCreds)),
    ("customCA", some (.str form.customCA)),
    ("syncJobPodTemplate", form.syncJobPodTemplate),
    ("registrySecrets", some (.strings form.registrySecrets)),
    ("ociRepositories", some (.strings form.ociRepositories)),
    ("tlsInsecureSkipVerify", some (.bool form.skipTLS)),
    ("passCredentials", some (.bool form.passCredentials)),
    ("filter", form.filter.map AppRepositoryFilter.json)]))]

/-- The body that `create` sends. -/
def create (form : RepositoryForm) : Json :=
  .object [("appRepository", some (.object [
    ("name", some (.str form.name)),
    ("repoURL", some (.str form.repoURL)),
    ("authHeader", some (.str form.authHeader)),
    ("authRegCreds", some (.str form.authRegCreds)),
    ("type", some (.str form.type)),
    ("description", some (.str form.description)),
    ("customCA", some (.str form.customCA)),
    ("syncJobPodTemplate", form.syncJobPodTemplate),
    ("registrySecrets", some (.strings form.registrySecrets)),
    ("ociRepositories", some (.strings form.ociRepositories)),
    ("tlsInsecureSkipVerify", some (.bool form.skipTLS)),
    ("passCredentials", some (.bool form.passCredentials)),
    ("filterRule", form.filter.map AppRepositoryFilter.json)]))]

/-! ## What the server reads -/

/-- The pod template of a form. -/
def RepositoryForm.podTemplate (dec : PodTemplateDecoder) (form : RepositoryForm) :
    Except String PodTemplateSpec :=
  match form.syncJobPodTemplate with
  | none => .ok .zero
  | some v => dec .zero v

/-- The request of a form with this pod template and this rule. -/
def RepositoryForm.request (form : RepositoryForm) (template : PodTemplateSpec)
    (rule : FilterRuleSpec) : AppRepositoryRequest where
  name := form.name
  type := form.type
  repoURL := form.repoURL
  authHeader := form.authHeader
  customCA := form.customCA
  authRegCreds := form.authRegCreds
  registrySecrets := form.registrySecrets
  syncJobPodTemplate := template
  resyncRequests := 0
  ociRepositories := form.ociRepositories
  tlsInsecureSkipVerify := form.skipTLS
  filterRule := rule
  description := form.description
  passCredentials := form.passCredentials

theorem unmarshal_filter (filter : AppRepositoryFilter) :
    unmarshalFilterRule ⟨"", []⟩ filter.json = .ok filter.rule := by
  have hjq : Json.setOptional filterRuleFields ⟨"", []⟩ ("jq", some (.str filter.jq)) =
      .ok ⟨filter.jq, []⟩ :=
    Json.setOptional_tag filterRuleFields_distinct (show 0 < filterRuleFields.length by decide) _ _
  show Json.unmarshalStruct filterRuleFields ⟨"", []⟩ (List.filterMap _ _) = _
  rw [Json.unmarshalStruct_object, List.foldlM_cons, hjq]
  show (Json.setOptional filterRuleFields (FilterRuleSpec.mk filter.jq [])
    ("variables", filter.vars.map Json.stringMap) >>= Except.ok) = _
  unfold AppRepositoryFilter.rule
  cases hvars : filter.vars with
  | none => rfl
  | some entries =>
      have hmap := Json.unmarshalStringMap_stringMap
        "FilterRuleSpec.appRepository.filterRule.variables" [] (filter.distinct entries hvars)
      have hset := Json.setOptional_tag filterRuleFields_distinct
        (show 1 < filterRuleFields.length by decide) (FilterRuleSpec.mk filter.jq [])
        (Json.stringMap entries)
      refine (congrArg (· >>= Except.ok) (hset.trans (congrArg (Except.map _) hmap))).trans ?_
      rfl

/-- The fields that both bodies have at the end, after those in `d`. -/
theorem unmarshal_tail (dec : PodTemplateDecoder) (form : RepositoryForm)
    (d : AppRepositoryRequest) (hd : d.syncJobPodTemplate = .zero) (last : String × Option Json) :
    [("syncJobPodTemplate", form.syncJobPodTemplate),
      ("registrySecrets", some (.strings form.registrySecrets)),
      ("ociRepositories", some (.strings form.ociRepositories)),
      ("tlsInsecureSkipVerify", some (.bool form.skipTLS)),
      ("passCredentials", some (.bool form.passCredentials)), last].foldlM
        (Json.setOptional (detailsFields dec)) d =
      (form.podTemplate dec).bind fun template =>
        Json.setOptional (detailsFields dec) { d with
          syncJobPodTemplate := template
          registrySecrets := form.registrySecrets
          ociRepositories := form.ociRepositories
          tlsInsecureSkipVerify := form.skipTLS
          passCredentials := form.passCredentials } last := by
  have htemplate : Json.setOptional (detailsFields dec) d
      ("syncJobPodTemplate", form.syncJobPodTemplate) =
        (form.podTemplate dec).map fun template => { d with syncJobPodTemplate := template } := by
    unfold RepositoryForm.podTemplate
    cases form.syncJobPodTemplate with
    | none =>
        show Except.ok d = Except.ok { d with syncJobPodTemplate := .zero }
        rw [← hd]
    | some v =>
        have hset := Json.setOptional_tag (detailsFields_distinct dec)
          (show 7 < 14 by decide) d v
        rw [← hd]
        exact hset
  rw [List.foldlM_cons, htemplate]
  cases form.podTemplate dec with
  | error err => rfl
  | ok template =>
      refine (set_detail dec 6 (show 6 < 14 by decide)
        (congrArg (Except.map _) (Json.unmarshalStrings_strings _ form.registrySecrets)) _).trans ?_
      refine (set_detail dec 9 (show 9 < 14 by decide)
        (congrArg (Except.map _) (Json.unmarshalStrings_strings _ form.ociRepositories)) _).trans ?_
      refine (set_detail dec 10 (show 10 < 14 by decide) rfl _).trans ?_
      refine (set_detail dec 13 (show 13 < 14 by decide) rfl _).trans ?_
      exact bind_pure _

/-- An update is read without the filter. -/
theorem parse_update (dec : PodTemplateDecoder) (form : RepositoryForm) :
    parseRepoRequest dec (update form) =
      (form.podTemplate dec).map fun template => form.request template ⟨"", []⟩ := by
  refine (parseRepoRequest_details dec _).trans ?_
  refine (Json.unmarshalStruct_object _ _ _).trans ?_
  refine (set_detail dec 0 (show 0 < 14 by decide) rfl _).trans ?_
  refine (set_detail dec 2 (show 2 < 14 by decide) rfl _).trans ?_
  refine (set_detail dec 1 (show 1 < 14 by decide) rfl _).trans ?_
  refine (set_detail dec 12 (show 12 < 14 by decide) rfl _).trans ?_
  refine (set_detail dec 3 (show 3 < 14 by decide) rfl _).trans ?_
  refine (set_detail dec 5 (show 5 < 14 by decide) rfl _).trans ?_
  refine (set_detail dec 4 (show 4 < 14 by decide) rfl _).trans ?_
  rw [unmarshal_tail dec form _ rfl]
  cases form.podTemplate dec with
  | error err => rfl
  | ok template =>
      have hunknown : ∀ tag ∈ (detailsFields dec).map Json.Field.tag,
          Json.names "filter" tag = false := by
        rw [detailsFields_tags]
        decide
      exact Json.setOptional_unknown hunknown _ _

/-- A create is read with it. -/
theorem parse_create (dec : PodTemplateDecoder) (form : RepositoryForm) :
    parseRepoRequest dec (create form) =
      (form.podTemplate dec).map fun template =>
        form.request template ((form.filter.map AppRepositoryFilter.rule).getD ⟨"", []⟩) := by
  refine (parseRepoRequest_details dec _).trans ?_
  refine (Json.unmarshalStruct_object _ _ _).trans ?_
  refine (set_detail dec 0 (show 0 < 14 by decide) rfl _).trans ?_
  refine (set_detail dec 2 (show 2 < 14 by decide) rfl _).trans ?_
  refine (set_detail dec 3 (show 3 < 14 by decide) rfl _).trans ?_
  refine (set_detail dec 5 (show 5 < 14 by decide) rfl _).trans ?_
  refine (set_detail dec 1 (show 1 < 14 by decide) rfl _).trans ?_
  refine (set_detail dec 12 (show 12 < 14 by decide) rfl _).trans ?_
  refine (set_detail dec 4 (show 4 < 14 by decide) rfl _).trans ?_
  rw [unmarshal_tail dec form _ rfl]
  cases form.podTemplate dec with
  | error err => rfl
  | ok template =>
      cases form.filter with
      | none => rfl
      | some filter =>
          refine (Json.setOptional_tag (detailsFields_distinct dec)
            (show 11 < 14 by decide) _ _).trans ?_
          exact congrArg (Except.map _) (unmarshal_filter filter)

/-! ## The specs -/

/-- An update asks for the spec of the create without its filter rule. -/
theorem spec_update (dec : PodTemplateDecoder) (form : RepositoryForm) :
    specForBody dec (update form) =
      (specForBody dec (create form)).map fun spec => { spec with filterRule := ⟨"", []⟩ } := by
  unfold specForBody
  rw [parse_update, parse_create]
  cases form.podTemplate dec with
  | error err => rfl
  | ok template => rfl

/-- Editing a repository asks for what creating it would exactly if the form has no filter, or one
    without a query and variables, or has a pod template that the server refuses. -/
theorem update_as_create_iff (dec : PodTemplateDecoder) (form : RepositoryForm) :
    specForBody dec (update form) = specForBody dec (create form) ↔
      (∀ filter, form.filter = some filter → filter.rule = ⟨"", []⟩) ∨
        ∃ err, form.podTemplate dec = .error err := by
  unfold specForBody
  rw [parse_update, parse_create]
  cases htemplate : form.podTemplate dec with
  | error err => exact ⟨fun _ => Or.inr ⟨err, rfl⟩, fun _ => rfl⟩
  | ok template =>
      constructor
      · intro h
        left
        intro filter hfilter
        have hspec := congrArg AppRepositorySpec.filterRule (Except.ok.inj h)
        rw [hfilter] at hspec
        exact hspec.symm
      · intro h
        have hrule := h.resolve_right (by simp)
        cases hfilter : form.filter with
        | none => rfl
        | some filter =>
            rw [Option.map_some, Option.getD_some, hrule filter hfilter]

/-- The form of a repository of which `nginx` is wanted only. -/
def nginxForm : RepositoryForm where
  name := "bitnami"
  repoURL := "https://charts.bitnami.com/bitnami"
  type := "helm"
  description := ""
  authHeader := ""
  authRegCreds := ""
  customCA := ""
  syncJobPodTemplate := some (.obj [])
  registrySecrets := []
  ociRepositories := []
  skipTLS := false
  passCredentials := false
  filter := some ⟨".name == $var0", some [("$var0", "nginx")], by simp⟩

/-- Creating the repository sets the filter rule; saving the same form once more removes it. -/
theorem update_loses_filter :
    (specForBody (fun old _ => .ok old) (create nginxForm)).map AppRepositorySpec.filterRule =
        .ok ⟨".name == $var0", [("$var0", "nginx")]⟩ ∧
      (specForBody (fun old _ => .ok old) (update nginxForm)).map AppRepositorySpec.filterRule =
        .ok ⟨"", []⟩ ∧
      specForBody (fun old _ => .ok old) (update nginxForm) ≠
        specForBody (fun old _ => .ok old) (create nginxForm) := by
  have hcreate : (specForBody (fun old _ => .ok old) (create nginxForm)).map
      AppRepositorySpec.filterRule = .ok ⟨".name == $var0", [("$var0", "nginx")]⟩ := by
    decide
  have hupdate : (specForBody (fun old _ => .ok old) (update nginxForm)).map
      AppRepositorySpec.filterRule = .ok ⟨"", []⟩ := by
    decide
  refine ⟨hcreate, hupdate, ?_⟩
  intro heq
  rw [heq, hcreate] at hupdate
  exact absurd hupdate (by decide)

end Kubeapps.Dashboard
