/-
  The body of an AppRepository request (pkg/kube/kube_handler.go: parseRepoRequest,
  appRepositoryRequestDetails).

  A field is set by the keys that name it, in the order of the body; a key that names no field is
  ignored. Decoding a pod template is a parameter (`PodTemplateDecoder`): it is given the template
  so far and the value.
-/
import Kubeapps.Kube.AppRepositories
import Kubeapps.Lib.Json

namespace Kubeapps.Kube

open Kubeapps.Lib Kubeapps.Controller
open Kubeapps.Syncer (FilterRuleSpec)

abbrev PodTemplateDecoder := PodTemplateSpec → Json → Except String PodTemplateSpec

/-- The zero value of `appRepositoryRequestDetails`. -/
def AppRepositoryRequest.zero : AppRepositoryRequest where
  name := ""
  type := ""
  repoURL := ""
  authHeader := ""
  customCA := ""
  authRegCreds := ""
  registrySecrets := []
  syncJobPodTemplate := .zero
  resyncRequests := 0
  ociRepositories := []
  tlsInsecureSkipVerify := false
  filterRule := ⟨"", []⟩
  description := ""
  passCredentials := false

/-- The path of a field in the errors of the decoder. -/
def fieldPath (tag : String) : String := "appRepositoryRequestDetails.appRepository." ++ tag

/-- A field of one of the types that are decoded here, with the function that stores a value. -/
def storeIn {σ α : Type} (tag : String) (get : σ → α) (put : σ → α → σ)
    (unmarshal : α → Json → Except String α) : Json.Field σ :=
  ⟨tag, fun st v => (unmarshal (get st) v).map (put st)⟩

/-- `v1alpha1.FilterRuleSpec`. -/
def filterRuleFields : List (Json.Field FilterRuleSpec) :=
  [storeIn "jq" FilterRuleSpec.jq (fun rule x => { rule with jq := x })
    (Json.unmarshalString "FilterRuleSpec.appRepository.filterRule.jq"),
  storeIn "variables" FilterRuleSpec.vars (fun rule x => { rule with vars := x })
    (Json.unmarshalStringMap "FilterRuleSpec.appRepository.filterRule.variables")]

def unmarshalFilterRule (old : FilterRuleSpec) : Json → Except String FilterRuleSpec
  | .null => .ok old
  | .obj fields => Json.unmarshalStruct filterRuleFields old fields
  | v => .error (Json.typeError v (fieldPath "filterRule") "v1alpha1.FilterRuleSpec")

/-- `appRepositoryRequestDetails`. -/
def detailsFields (dec : PodTemplateDecoder) : List (Json.Field AppRepositoryRequest) :=
  let str (tag : String) := Json.unmarshalString (fieldPath tag)
  let strs (tag : String) (_ : List String) := Json.unmarshalStrings (fieldPath tag)
  let bool (tag : String) := Json.unmarshalBool (fieldPath tag)
  [storeIn "name" (·.name) (fun d x => { d with name := x }) (str "name"),
  storeIn "type" (·.type) (fun d x => { d with type := x }) (str "type"),
  storeIn "repoURL" (·.repoURL) (fun d x => { d with repoURL := x }) (str "repoURL"),
  storeIn "authHeader" (·.authHeader) (fun d x => { d with authHeader := x }) (str "authHeader"),
  storeIn "customCA" (·.customCA) (fun d x => { d with customCA := x }) (str "customCA"),
  storeIn "authRegCreds" (·.authRegCreds) (fun d x => { d with authRegCreds := x })
    (str "authRegCreds"),
  storeIn "registrySecrets" (·.registrySecrets) (fun d x => { d with registrySecrets := x })
    (strs "registrySecrets"),
  storeIn "syncJobPodTemplate" (·.syncJobPodTemplate)
    (fun d x => { d with syncJobPodTemplate := x }) dec,
  storeIn "resyncRequests" (·.resyncRequests) (fun d x => { d with resyncRequests := x })
    (Json.unmarshalUint (fieldPath "resyncRequests")),
  storeIn "ociRepositories" (·.ociRepositories) (fun d x => { d with ociRepositories := x })
    (strs "ociRepositories"),
  storeIn "tlsInsecureSkipVerify" (·.tlsInsecureSkipVerify)
    (fun d x => { d with tlsInsecureSkipVerify := x }) (bool "tlsInsecureSkipVerify"),
  storeIn "filterRule" (·.filterRule) (fun d x => { d with filterRule := x }) unmarshalFilterRule,
  storeIn "description" (·.description) (fun d x => { d with description := x })
    (str "description"),
  storeIn "passCredentials" (·.passCredentials) (fun d x => { d with passCredentials := x })
    (bool "passCredentials")]

def unmarshalDetails (dec : PodTemplateDecoder) (old : AppRepositoryRequest) :
    Json → Except String AppRepositoryRequest
  | .null => .ok old
  | .obj fields => Json.unmarshalStruct (detailsFields dec) old fields
  | v => .error (Json.typeError v "appRepositoryRequest.appRepository"
      "kube.appRepositoryRequestDetails")

/-- `parseRepoRequest`: an `appRepositoryRequest` is its details. -/
def parseRepoRequest (dec : PodTemplateDecoder) : Json → Except String AppRepositoryRequest
  | .null => .ok .zero
  | .obj fields => Json.unmarshalStruct [⟨"appRepository", unmarshalDetails dec⟩] .zero fields
  | v => .error (Json.typeError v "" "kube.appRepositoryRequest")

/-- The spec of the AppRepository that a body asks for. -/
def specForBody (dec : PodTemplateDecoder) (body : Json) : Except String AppRepositorySpec :=
  (parseRepoRequest dec body).map appRepositoryForRequest

/-! ## One field -/

def detailsTags : List String :=
  ["name", "type", "repoURL", "authHeader", "customCA", "authRegCreds", "registrySecrets",
    "syncJobPodTemplate", "resyncRequests", "ociRepositories", "tlsInsecureSkipVerify", "filterRule",
    "description", "passCredentials"]

theorem detailsFields_tags (dec : PodTemplateDecoder) :
    (detailsFields dec).map Json.Field.tag = detailsTags := rfl

theorem detailsFields_distinct (dec : PodTemplateDecoder) : Json.DistinctTags (detailsFields dec) := by
  unfold Json.DistinctTags
  rw [detailsFields_tags]
  decide

theorem filterRuleFields_distinct : Json.DistinctTags filterRuleFields := by
  show ["jq", "variables"].Pairwise _
  decide

/-- A key with the tag of the field `i` stores its value there. -/
theorem set_detail (dec : PodTemplateDecoder) (i : Nat) (hi : i < (detailsFields dec).length)
    {d d' : AppRepositoryRequest} {v : Json} (hset : (detailsFields dec)[i].set d v = .ok d')
    (rest : List (String × Option Json)) :
    (((detailsFields dec)[i].tag, some v) :: rest).foldlM (Json.setOptional (detailsFields dec)) d =
      rest.foldlM (Json.setOptional (detailsFields dec)) d' := by
  rw [List.foldlM_cons, Json.setOptional_tag (detailsFields_distinct dec) hi, hset]
  rfl

theorem parseRepoRequest_details (dec : PodTemplateDecoder) (v : Json) :
    parseRepoRequest dec (.obj [("appRepository", v)]) = unmarshalDetails dec .zero v := by
  have hone : Json.DistinctTags [Json.Field.mk "appRepository" (unmarshalDetails dec)] :=
    List.pairwise_singleton _ _
  exact Json.setOptional_tag hone (show 0 < 1 by decide) .zero v

end Kubeapps.Kube
