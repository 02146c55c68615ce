/-
  The proxy that exchanges the token of a request for a client certificate
  (cmd/pinniped-proxy/src/service.rs, https.rs, pinniped.rs).

  What the crates do is a parameter (`Env`): parsing of URLs, certificates and keys, the API server
  that takes the credential request, and the server to which the request goes on. A run is what the
  proxy has sent and what it answers. Of an error there is the text that `to_string` gives, which is
  that of the outermost context, and what the proxy asks about it; the logs are left out.

  The proxy only talks to the server that the request names, trusts the CA that the request has for
  it, and forwards at most once, in the end, with the identity that this server has given for the
  token of the request (`proxy_sends`).
-/
import Kubeapps.Lib.Base64
import Mathlib.Data.List.Find

namespace Kubeapps.PinnipedProxy

open Kubeapps.Lib

/-! ## Headers -/

/-- `HeaderMap`: the values of a name are in the order in which they came. -/
abbrev Headers := List (String × Bytes)

/-- Names are the same in lower and upper case. -/
def sameName (name name' : String) : Bool :=
  name.toList.map Char.toLower = name'.toList.map Char.toLower

/-- `get`: the first value. -/
def Headers.get (headers : Headers) (name : String) : Option Bytes :=
  (headers.find? fun h => sameName name h.1).map (·.2)

/-- `insert`: the value replaces all others. -/
def Headers.insert (headers : Headers) (name : String) (value : Bytes) : Headers :=
  (headers.filter fun h => !sameName name h.1) ++ [(name, value)]

/-- `HeaderValue::to_str`: visible ASCII characters, blanks and tabs. -/
def toStr (value : Bytes) : Except String String :=
  if value.all fun b => b = 9 || (32 ≤ b && b < 127) then .ok (binaryString value)
  else .error "failed to convert header to a str"

/-- `HeaderValue::from_str`: no control character but the tab. -/
def fromStr (s : String) : Except String Bytes :=
  if (bytes s).all fun b => b = 9 || (32 ≤ b && b ≠ 127) then .ok (bytes s)
  else .error "failed to parse header value"

/-! ## Messages -/

/-- `Request<Body>`, as it comes in. -/
structure Request where
  method : String
  pathAndQuery : Option String
  headers : Headers
  body : Bytes
  deriving DecidableEq, Repr

structure Response where
  status : Nat
  headers : Headers
  body : Bytes
  deriving DecidableEq, Repr

/-- The request after `rewrite_request`. -/
structure Rewritten where
  method : String
  uri : String
  headers : Headers
  body : Bytes
  deriving DecidableEq, Repr

/-- `Uri::authority`. -/
structure Authority where
  host : String
  port : Option String
  deriving DecidableEq, Repr

/-- `ClusterCredential`. -/
structure ClusterCredential where
  expirationTimestamp : String
  token : Option String
  clientCertificateData : String
  clientKeyData : String
  deriving DecidableEq, Repr

/-- `TokenCredentialRequestStatus`. -/
structure TokenCredentialRequestStatus where
  credential : Option ClusterCredential
  message : Option String
  deriving DecidableEq, Repr

/-- `TypedLocalObjectReference`. -/
structure ObjectReference where
  apiGroup : Option String
  kind : String
  name : String
  deriving DecidableEq, Repr

/-- `TokenCredentialRequest`; the `spec` has the token and the authenticator. -/
structure TokenCredentialRequest where
  token : Option String
  authenticator : ObjectReference
  status : Option TokenCredentialRequestStatus
  deriving DecidableEq, Repr

/-- A `create` of a credential request: where it goes, which CA is trusted, the namespace of the
    path if the resource is namespaced, and the object. -/
structure Exchange where
  url : String
  caCert : Bytes
  pathNamespace : Option String
  group : String
  version : String
  kind : String
  namespace_ : String
  data : TokenCredentialRequest
  deriving DecidableEq, Repr

/-- `Identity`, made from a certificate and its key. -/
structure Identity where
  certificate : String
  key : String
  deriving DecidableEq, Repr

/-- A request that goes on, with the CA and the identity of its connector. -/
structure Forward where
  request : Rewritten
  caCert : Bytes
  identity : Option Identity
  deriving DecidableEq, Repr

inductive Sent where
  | exchange (e : Exchange)
  | forward (f : Forward)
  deriving DecidableEq, Repr

/-- `kube::Error`, with the reason of an answer of the API server. -/
inductive KubeError where
  | api (reason : String)
  | other
  deriving DecidableEq, Repr

/-- An error of the exchange, by what `e.is` tells of it, with its text. -/
inductive ExchangeError where
  | var (text : String)
  | unsuccessfulAuthentication (text : String)
  | other (text : String)
  deriving DecidableEq, Repr

structure Env where
  /-- `env::var`. -/
  var : String → Option String
  /-- `Url::parse`, and the scheme of the URL. -/
  parseUrl : String → Except String String
  /-- `parse::<Uri>`, and the authority of the URI. -/
  parseUri : String → Except String (Option Authority)
  /-- `base64::decode`. -/
  decode : Bytes → Except String Bytes
  /-- The error of `Certificate::from_pem`, if there is one. -/
  certificateError : Bytes → Option String
  /-- `get_client_config` returns an error. -/
  clientConfigFails : String → Bytes → Bool
  /-- `create`; no value if the object in the answer is no credential request. -/
  create : Exchange → Except KubeError (Option TokenCredentialRequest)
  /-- The error of `identity_for_exchange`, if there is one. -/
  identityError : ClusterCredential → Option String
  /-- The error of `make_https_client`, if there is one. -/
  clientError : Bytes → Option Identity → Option String
  send : Forward → Except String Response
  /-- `{:#?}`. -/
  debugStatus : TokenCredentialRequestStatus → String
  debugRequest : TokenCredentialRequest → String

/-! ## `https.rs` -/

def defaultK8sApiServerUrl : String := "https://kubernetes.default"

def headerK8sApiServerUrl : String := "PINNIPED_PROXY_API_SERVER_URL"

def headerK8sApiServerCaCert : String := "PINNIPED_PROXY_API_SERVER_CERT"

def invalidSchemeError : String := "invalid scheme, https required"

/-- `validate_url`. -/
def validateUrl (env : Env) (u : String) : Except String String :=
  match env.parseUrl u with
  | .ok scheme => if scheme = "https" then .ok u else .error invalidSchemeError
  | .error e => .error e

/-- `get_api_server_url`. -/
def getApiServerUrl (env : Env) (requestHeaders : Headers) : Except String String :=
  match requestHeaders.get headerK8sApiServerUrl with
  | some hv =>
      match toStr hv with
      | .ok hv => validateUrl env hv
      | .error e => .error e
  | none => .ok defaultK8sApiServerUrl

/-- The `Host` of an authority. -/
def Authority.hostHeader (auth : Authority) : String :=
  match auth.port with
  | some p => auth.host ++ ":" ++ p
  | none => auth.host

/-- `rewrite_request`. -/
def rewriteRequest (env : Env) (req : Request) (k8sApiServerUrl : String) :
    Except String Rewritten :=
  let uriString := k8sApiServerUrl ++ req.pathAndQuery.getD ""
  match env.parseUri uriString with
  | .error e => .error e
  | .ok none => .ok ⟨req.method, uriString, req.headers, req.body⟩
  | .ok (some auth) =>
      match fromStr auth.hostHeader with
      | .error e => .error e
      | .ok h => .ok ⟨req.method, uriString, req.headers.insert "Host" h, req.body⟩

/-- The CA data for the server: `get_api_server_cert_auth_data` of the header, or the default for the
    default server. -/
def certAuthData (env : Env) (headers : Headers) (k8sApiServerUrl : String) (defaultCaData : Bytes) :
    Except String Bytes :=
  match headers.get headerK8sApiServerCaCert with
  | some headerValueB64 => env.decode headerValueB64
  | none =>
      if k8sApiServerUrl = defaultK8sApiServerUrl then .ok defaultCaData
      else .error ("header " ++ headerK8sApiServerCaCert ++ " required but not present")

/-! ## `pinniped.rs` -/

/-- The group of an API of pinniped, with the suffix that is set. -/
def apiGroup (env : Env) (api : String) : String :=
  api ++ "." ++ (env.var "DEFAULT_PINNIPED_API_SUFFIX").getD "pinniped.dev"

/-- The token of an authorization header: `strip_prefix`. -/
def authToken (authorization : String) : String :=
  if "Bearer ".toList <+: authorization.toList then String.ofList (authorization.toList.drop 7)
  else authorization

/-- The text of every error of `call_pinniped_exchange`. -/
def exchangeContext : String := "Failed to exchange credentials"

/-- `call_pinniped_exchange`: an old version of pinniped has a namespaced resource. -/
def callPinnipedExchange (env : Env) (authorization k8sApiServerUrl : String) (caCert : Bytes) :
    List Exchange × Except ExchangeError TokenCredentialRequest :=
  match env.var "DEFAULT_PINNIPED_NAMESPACE", env.var "DEFAULT_PINNIPED_AUTHENTICATOR_TYPE",
      env.var "DEFAULT_PINNIPED_AUTHENTICATOR_NAME" with
  | some pinnipedNamespace, some pinnipedAuthType, some pinnipedAuthName =>
      if env.clientConfigFails k8sApiServerUrl caCert then ([], .error (.other exchangeContext))
      else
        let credData : TokenCredentialRequest := {
          token := some (authToken authorization)
          authenticator := ⟨some (apiGroup env "authentication.concierge"), pinnipedAuthType,
            pinnipedAuthName⟩
          status := none }
        let call (pathNamespace : Option String) : Exchange := {
          url := k8sApiServerUrl, caCert, pathNamespace
          group := apiGroup env "login.concierge", version := "v1alpha1"
          kind := "TokenCredentialRequest", namespace_ := pinnipedNamespace, data := credData }
        match env.create (call none) with
        | .ok (some o) => ([call none], .ok o)
        | .ok none => ([call none], .error (.other exchangeContext))
        | .error (.api reason) =>
            if reason = "NotFound" then
              match env.create (call (some pinnipedNamespace)) with
              | .ok (some o) => ([call none, call (some pinnipedNamespace)], .ok o)
              | .ok none => ([call none, call (some pinnipedNamespace)],
                  .error (.other exchangeContext))
              | .error _ => ([call none, call (some pinnipedNamespace)],
                  .error (.other exchangeContext))
            else ([call none], .error (.other exchangeContext))
        | .error .other => ([call none], .error (.other exchangeContext))
  | _, _, _ => ([], .error (.var exchangeContext))

/-- The identity in the answer of an exchange. -/
def identityOf (env : Env) (o : TokenCredentialRequest) : Except ExchangeError Identity :=
  match o.status with
  | some s =>
      match s.credential with
      | some c =>
          match env.identityError c with
          | some e => .error (.other e)
          | none => .ok ⟨c.clientCertificateData, c.clientKeyData⟩
      | none =>
          match s.message with
          | some m => .error (.unsuccessfulAuthentication ("Unauthorized by pinniped: " ++ m))
          | none => .error (.other
              ("response status neither an error msg or a credential: " ++ env.debugStatus s))
  | none => .error (.other
      ("pinniped credential request did not include status: " ++ env.debugRequest o))

/-- `exchange_token_for_identity`. -/
def exchangeTokenForIdentity (env : Env) (authorization k8sApiServerUrl : String) (caCert : Bytes) :
    List Exchange × Except ExchangeError Identity :=
  let (exchanges, answer) := callPinnipedExchange env authorization k8sApiServerUrl caCert
  (exchanges, answer.bind (identityOf env))

/-- `include_client_identity_for_headers`. -/
def includeClientIdentity (env : Env) (requestHeaders : Headers) (k8sApiServerUrl : String)
    (caCert : Bytes) : List Exchange × Except ExchangeError (Option Identity) :=
  match requestHeaders.get "Authorization" with
  | some value =>
      match toStr value with
      | .error e => ([], .error (.other e))
      | .ok authorization =>
          let (exchanges, answer) :=
            exchangeTokenForIdentity env authorization k8sApiServerUrl caCert
          (exchanges, answer.map some)
  | none => ([], .ok none)

/-! ## `service.rs` -/

/-- `handle_error`. -/
def handleError (e : String) (status : Nat) : Response := ⟨status, [], bytes e⟩

/-- The answer for an error of the exchange. -/
def ExchangeError.response : ExchangeError → Response
  | .var e => handleError e 400
  | .unsuccessfulAuthentication e => handleError e 401
  | .other e => handleError e 500

/-- The answer for what comes back. -/
def answerOf : Except String Response → Response
  | .ok r =>
      if r.status = 101 then ⟨501, [], bytes "pinniped-proxy does not support websockets yet"⟩
      else r
  | .error e => handleError e 500

/-- `proxy`: what is sent, and the answer. -/
def proxy (env : Env) (req : Request) (defaultCaData : Bytes) : List Sent × Response :=
  match getApiServerUrl env req.headers with
  | .error e => ([], handleError e 400)
  | .ok k8sApiServerUrl =>
      match rewriteRequest env req k8sApiServerUrl with
      | .error e => ([], handleError e 400)
      | .ok req =>
          match certAuthData env req.headers k8sApiServerUrl defaultCaData with
          | .error e => ([], handleError e 400)
          | .ok caCert =>
              match env.certificateError caCert with
              | some e => ([], handleError e 400)
              | none =>
                  match includeClientIdentity env req.headers k8sApiServerUrl caCert with
                  | (exchanges, .error e) => (exchanges.map .exchange, e.response)
                  | (exchanges, .ok identity) =>
                      match env.clientError caCert identity with
                      | some e => (exchanges.map .exchange, handleError e 500)
                      | none =>
                          let forward : Forward := ⟨req, caCert, identity⟩
                          (exchanges.map .exchange ++ [.forward forward],
                            answerOf (env.send forward))

/-! ## What is sent -/

/-- The server that a request names and the CA that it has for the server; the default CA is only for
    the default server. -/
structure Destined (env : Env) (req : Request) (defaultCaData : Bytes) (url : String)
    (caCert : Bytes) : Prop where
  server : getApiServerUrl env req.headers = .ok url
  ca : certAuthData env req.headers url defaultCaData = .ok caCert

/-- An exchange of the token of the request, with its server. -/
structure ExchangeFor (env : Env) (req : Request) (defaultCaData : Bytes) (e : Exchange) : Prop where
  destined : Destined env req defaultCaData e.url e.caCert
  token : ∃ value authorization, req.headers.get "Authorization" = some value ∧
    toStr value = .ok authorization ∧ e.data.token = some (authToken authorization)

/-- The identity of a request that goes on: none without a token, otherwise what the server has given
    in one of the exchanges. -/
def IdentityFrom (env : Env) (req : Request) (exchanges : List Exchange) (identity : Option Identity) :
    Prop :=
  match req.headers.get "Authorization" with
  | none => exchanges = [] ∧ identity = none
  | some _ => ∃ e ∈ exchanges, ∃ o i, env.create e = .ok (some o) ∧ identityOf env o = .ok i ∧
      identity = some i

/-- The request goes on to its server as it is, but for the host. -/
structure ForwardFor (env : Env) (req : Request) (defaultCaData : Bytes) (exchanges : List Exchange)
    (f : Forward) : Prop where
  destined : ∃ url, Destined env req defaultCaData url f.caCert ∧
    f.request.uri = url ++ req.pathAndQuery.getD ""
  method : f.request.method = req.method
  body : f.request.body = req.body
  headers : ∀ name, sameName "Host" name = false → f.request.headers.get name = req.headers.get name
  identity : IdentityFrom env req exchanges f.identity

section Sends

variable {env : Env} {req : Request} {headers : Headers} {defaultCaData caCert : Bytes}
  {url authorization name name' : String}

theorem sameName_comm : sameName name name' = sameName name' name := by
  unfold sameName
  rw [decide_eq_decide]
  exact eq_comm

/-- The other names keep their values. -/
theorem get_insert_of_not_sameName {value : Bytes} (h : sameName name name' = false) :
    (headers.insert name value).get name' = headers.get name' := by
  have hne : name.toList.map Char.toLower ≠ name'.toList.map Char.toLower := by
    simpa [sameName] using h
  have hkept : ∀ h' : String × Bytes, sameName name' h'.1 = true → sameName name h'.1 = false := by
    intro h' hsame
    have heq : name'.toList.map Char.toLower = h'.1.toList.map Char.toLower := by
      simpa [sameName] using hsame
    simpa [sameName, ← heq] using hne
  unfold Headers.insert Headers.get
  congr 1
  rw [List.find?_append, List.find?_filter]
  have hlast : [(name, value)].find? (fun h => sameName name' h.1) = none := by
    rw [sameName_comm] at h
    simpa using h
  rw [hlast, Option.or_none]
  refine List.find?_congr fun h' _ => ?_
  cases hsame : sameName name' h'.1 with
  | false => simp
  | true => simp [hkept h' hsame]

theorem rewriteRequest_ok {r : Rewritten} (h : rewriteRequest env req url = .ok r) :
    r.uri = url ++ req.pathAndQuery.getD "" ∧ r.method = req.method ∧ r.body = req.body ∧
      ∀ name, sameName "Host" name = false → r.headers.get name = req.headers.get name := by
  unfold rewriteRequest at h
  dsimp only at h
  split at h
  · cases h
  · obtain rfl := Except.ok.inj h
    exact ⟨rfl, rfl, rfl, fun _ _ => rfl⟩
  · split at h
    · cases h
    · obtain rfl := Except.ok.inj h
      exact ⟨rfl, rfl, rfl, fun _ hname => get_insert_of_not_sameName hname⟩

/-- The exchanges have the token and go to the server; an answer is that to one of them. -/
theorem callPinnipedExchange_spec (env : Env) (authorization url : String) (caCert : Bytes) :
    (∀ e ∈ (callPinnipedExchange env authorization url caCert).1,
      e.url = url ∧ e.caCert = caCert ∧ e.data.token = some (authToken authorization)) ∧
    ∀ o, (callPinnipedExchange env authorization url caCert).2 = .ok o →
      ∃ e ∈ (callPinnipedExchange env authorization url caCert).1, env.create e = .ok (some o) := by
  unfold callPinnipedExchange
  split
  · split
    · simp
    · dsimp only
      split
      · rename_i o hcreate
        refine ⟨by simp, fun o' ho => ?_⟩
        obtain rfl := Except.ok.inj ho
        exact ⟨_, List.mem_singleton_self _, hcreate⟩
      · simp
      · split
        · split
          · rename_i o hcreate
            refine ⟨by simp, fun o' ho => ?_⟩
            obtain rfl := Except.ok.inj ho
            exact ⟨_, List.mem_cons_of_mem _ (List.mem_singleton_self _), hcreate⟩
          · simp
          · simp
        · simp
      · simp
  · simp

/-- With an authorization header the token is exchanged, and without one there is no identity. -/
theorem includeClientIdentity_spec (env : Env) (headers : Headers) (url : String) (caCert : Bytes) :
    (∀ e ∈ (includeClientIdentity env headers url caCert).1, e.url = url ∧ e.caCert = caCert ∧
      ∃ value authorization, headers.get "Authorization" = some value ∧
        toStr value = .ok authorization ∧ e.data.token = some (authToken authorization)) ∧
    ∀ identity, (includeClientIdentity env headers url caCert).2 = .ok identity →
      match headers.get "Authorization" with
      | none => (includeClientIdentity env headers url caCert).1 = [] ∧ identity = none
      | some _ => ∃ e ∈ (includeClientIdentity env headers url caCert).1, ∃ o i,
          env.create e = .ok (some o) ∧ identityOf env o = .ok i ∧ identity = some i := by
  unfold includeClientIdentity
  cases hvalue : headers.get "Authorization" with
  | none => simp
  | some value =>
      cases hstr : toStr value with
      | error e => simp [hstr]
      | ok authorization =>
          obtain ⟨hsent, hanswer⟩ := callPinnipedExchange_spec env authorization url caCert
          simp only [hstr, exchangeTokenForIdentity]
          refine ⟨fun e he => ?_, fun identity hidentity => ?_⟩
          · obtain ⟨hurl, hca, htoken⟩ := hsent e he
            exact ⟨hurl, hca, value, authorization, rfl, hstr, htoken⟩
          · cases ho : (callPinnipedExchange env authorization url caCert).2 with
            | error e =>
                rw [ho] at hidentity
                cases hidentity
            | ok o =>
                obtain ⟨e, he, hcreate⟩ := hanswer o ho
                rw [ho] at hidentity
                cases hi : identityOf env o with
                | error e =>
                    simp only [Except.bind, hi, Except.map] at hidentity
                    cases hidentity
                | ok i =>
                    simp only [Except.bind, hi, Except.map] at hidentity
                    exact ⟨e, he, o, i, hcreate, hi, (Except.ok.inj hidentity).symm⟩

theorem authorization_not_host : sameName "Host" "Authorization" = false := by decide

theorem caHeader_not_host : sameName "Host" headerK8sApiServerCaCert = false := by decide

/-- The CA is that of the request, also after its host is rewritten. -/
theorem destined_of_rewritten {r : Rewritten} (hurl : getApiServerUrl env req.headers = .ok url)
    (hr : rewriteRequest env req url = .ok r)
    (hca : certAuthData env r.headers url defaultCaData = .ok caCert) :
    Destined env req defaultCaData url caCert := by
  refine ⟨hurl, ?_⟩
  unfold certAuthData at hca ⊢
  rwa [(rewriteRequest_ok hr).2.2.2 _ caHeader_not_host] at hca

theorem status_of_error (e : ExchangeError) : e.response.status ∈ [400, 401, 500] := by
  cases e <;> simp [ExchangeError.response, handleError]

end Sends

/-- Whatever a request is and whatever the other servers do: the proxy sends exchanges of the token of
    the request to the server of the request, and then it answers with an error, or sends the request
    on with the identity from the exchange and answers with what comes back. -/
theorem proxy_sends (env : Env) (req : Request) (defaultCaData : Bytes) :
    ∃ exchanges : List Exchange, (∀ e ∈ exchanges, ExchangeFor env req defaultCaData e) ∧
      (((proxy env req defaultCaData).1 = exchanges.map .exchange ∧
          (proxy env req defaultCaData).2.status ∈ [400, 401, 500]) ∨
        ∃ f, ForwardFor env req defaultCaData exchanges f ∧
          (proxy env req defaultCaData).1 = exchanges.map .exchange ++ [.forward f] ∧
          (proxy env req defaultCaData).2 = answerOf (env.send f)) := by
  unfold proxy
  cases hurl : getApiServerUrl env req.headers with
  | error e => exact ⟨[], by simp, .inl ⟨rfl, by simp [handleError]⟩⟩
  | ok url =>
      cases hr : rewriteRequest env req url with
      | error e => exact ⟨[], by simp, .inl ⟨by simp [hr], by simp [hr, handleError]⟩⟩
      | ok r =>
          obtain ⟨huri, hmethod, hbody, hheaders⟩ := rewriteRequest_ok hr
          have hauth := hheaders _ authorization_not_host
          cases hca : certAuthData env r.headers url defaultCaData with
          | error e => exact ⟨[], by simp, .inl ⟨by simp [hr, hca], by simp [hr, hca, handleError]⟩⟩
          | ok caCert =>
              have hdestined := destined_of_rewritten hurl hr hca
              cases hcert : env.certificateError caCert with
              | some e =>
                  exact ⟨[], by simp, .inl ⟨by simp [hr, hca, hcert],
                    by simp [hr, hca, hcert, handleError]⟩⟩
              | none =>
                  obtain ⟨hsent, hidentity⟩ := includeClientIdentity_spec env r.headers url caCert
                  have hexchanges : ∀ e ∈ (includeClientIdentity env r.headers url caCert).1,
                      ExchangeFor env req defaultCaData e := by
                    intro e he
                    obtain ⟨rfl, rfl, htoken⟩ := hsent e he
                    rw [hauth] at htoken
                    exact ⟨hdestined, htoken⟩
                  cases hinclude : includeClientIdentity env r.headers url caCert with
                  | mk exchanges answer =>
                      rw [hinclude] at hexchanges hidentity
                      refine ⟨exchanges, hexchanges, ?_⟩
                      cases answer with
                      | error e =>
                          exact .inl ⟨by simp [hr, hca, hcert, hinclude],
                            by simpa [hr, hca, hcert, hinclude] using status_of_error e⟩
                      | ok identity =>
                          cases hclient : env.clientError caCert identity with
                          | some e =>
                              exact .inl ⟨by simp [hr, hca, hcert, hinclude, hclient],
                                by simp [hr, hca, hcert, hinclude, hclient, handleError]⟩
                          | none =>
                              refine .inr ⟨⟨r, caCert, identity⟩, ⟨⟨url, hdestined, huri⟩, hmethod,
                                hbody, hheaders, ?_⟩, by simp [hr, hca, hcert, hinclude, hclient],
                                by simp [hr, hca, hcert, hinclude, hclient]⟩
                              have hfrom := hidentity identity rfl
                              unfold IdentityFrom
                              rw [hauth] at hfrom
                              exact hfrom

end Kubeapps.PinnipedProxy
