/-
  The services as clients of the proxy (pkg/kube/pinniped_proxy_roundtripper.go), with the config of
  a user on a cluster that is configured for pinniped (`newClusterConfig`).

  The headers of a request go through the wrappers of the config, on the wire and into the proxy.
  Header names are the same to the proxy in any case, so `Header.Add` only has to keep the order of
  the values. On the wire there are no control characters, and the blanks around a value are lost.

  On a cluster other than that of Kubeapps the proxy sends the requests of users to the server that
  the service reaches directly, and trusts the CA that the service trusts (`pinniped_same_server`).
-/
import Kubeapps.PinnipedProxy.Proxy
import Kubeapps.Kube.ClustersFile

namespace Kubeapps.PinnipedProxy

open Kubeapps.Lib Kubeapps.Kube.Clusters

/-! ## Requests of a client -/

/-- The token of the config, for a request without authorization. -/
def bearerRoundTrip (bearerToken : String) (headers : Headers) : Headers :=
  if bearerToken ≠ "" ∧ (headers.get "Authorization").getD [] = [] then
    headers.insert "Authorization" (bytes ("Bearer " ++ bearerToken))
  else headers

/-- `RoundTrip` of a `pinnipedProxyRoundTripper`: `Header.Add` for each of its headers. -/
def pinnipedRoundTrip (added : List (String × String)) (headers : Headers) : Headers :=
  headers ++ added.map fun h => (h.1, bytes h.2)

/-- One wrapper of the transport; `existing` is what the others do. -/
def wrapperRoundTrip (existing : String → Headers → Headers) : Wrapper → Headers → Headers
  | .existing name, headers => existing name headers
  | .pinnipedProxy added, headers => pinnipedRoundTrip added headers

/-- The headers of a request with a config. The last wrapper is the first one to see them. -/
def clientHeaders (existing : String → Headers → Headers) (config : RestConfig) (headers : Headers) :
    Headers :=
  config.wrapTransport.foldr (wrapperRoundTrip existing) (bearerRoundTrip config.bearerToken headers)

/-! ## The wire -/

def isBlank (b : UInt8) : Bool := b = 32 || b = 9

/-- A value of a header can be sent. -/
def validFieldValue (value : Bytes) : Bool := value.all fun b => b = 9 || (32 ≤ b && b ≠ 127)

/-- The blanks around a value are lost. -/
def trimBlanks (value : Bytes) : Bytes :=
  ((value.dropWhile isBlank).reverse.dropWhile isBlank).reverse

/-- The headers as they arrive. A request with another value is not sent at all. -/
def deliver (headers : Headers) : Option Headers :=
  if headers.all fun h => validFieldValue h.2 then
    some (headers.map fun h => (h.1, trimBlanks h.2))
  else none

/-- A request that a client makes with its config: what the proxy sends and answers. -/
def sentByClient (env : Env) (existing : String → Headers → Headers) (config : RestConfig)
    (req : Request) (defaultCaData : Bytes) : Option (List Sent × Response) :=
  (deliver (clientHeaders existing config req.headers)).map fun headers =>
    proxy env { req with headers } defaultCaData

/-! ## Values that arrive as they are -/

/-- ASCII characters, without blanks and control characters. -/
def VisibleText (s : String) : Prop := ∀ c ∈ s.toList, 32 < c.toNat ∧ c.toNat < 127

instance (s : String) : Decidable (VisibleText s) :=
  List.decidableBAll (fun c : Char => 32 < c.toNat ∧ c.toNat < 127) s.toList

section Values

variable {s : String} {value : Bytes} {headers headers' : Headers} {name : String}

theorem bytes_of_ascii (h : ∀ c ∈ s.toList, c.toNat < 0x80) : bytes s = s.toList.map ascii := by
  rw [bytes_eq, List.map_eq_flatMap]
  refine List.flatMap_congr fun c hc => ?_
  exact utf8EncodeChar_ascii (h c hc)

theorem toNat_ascii {c : Char} (h : c.toNat < 0x80) : (ascii c).toNat = c.toNat := by
  unfold ascii
  rw [UInt8.toNat_ofNat', Nat.mod_eq_of_lt (by omega)]

theorem binaryString_bytes (h : ∀ c ∈ s.toList, c.toNat < 0x80) : binaryString (bytes s) = s := by
  unfold binaryString
  rw [bytes_of_ascii h, List.map_map]
  have hid : s.toList.map ((fun b => Char.ofNat b.toNat) ∘ ascii) = s.toList.map id :=
    List.map_congr_left fun c hc => by
      rw [Function.comp_apply, toNat_ascii (h c hc), Char.ofNat_toNat, id]
  rw [hid, List.map_id, String.ofList_toList]

/-- Visible characters and blanks are read back. -/
theorem toStr_bytes (h : ∀ c ∈ s.toList, 32 ≤ c.toNat ∧ c.toNat < 127) :
    toStr (bytes s) = .ok s := by
  have hascii : ∀ c ∈ s.toList, c.toNat < 0x80 := fun c hc => by
    have := h c hc
    omega
  unfold toStr
  rw [if_pos, binaryString_bytes hascii]
  rw [List.all_eq_true, bytes_of_ascii hascii]
  intro b hb
  obtain ⟨c, hc, rfl⟩ := List.mem_map.mp hb
  have hlow : (32 : UInt8) ≤ ascii c := by
    rw [UInt8.le_iff_toNat_le, toNat_ascii (hascii c hc)]
    exact (h c hc).1
  have hhigh : ascii c < 127 := by
    rw [UInt8.lt_iff_toNat_lt, toNat_ascii (hascii c hc)]
    exact (h c hc).2
  simp [hlow, hhigh]

theorem isBlank_ascii {c : Char} (h : 32 < c.toNat ∧ c.toNat < 127) : isBlank (ascii c) = false := by
  have hnat := toNat_ascii (c := c) (by omega)
  have hblank : ascii c ≠ 32 := fun heq => by
    rw [heq] at hnat
    have : (32 : UInt8).toNat = 32 := rfl
    omega
  have htab : ascii c ≠ 9 := fun heq => by
    rw [heq] at hnat
    have : (9 : UInt8).toNat = 9 := rfl
    omega
  simp [isBlank, hblank, htab]

theorem dropBlanks_eq (h : ∀ b, value.head? = some b → isBlank b = false) :
    value.dropWhile isBlank = value := by
  cases value with
  | nil => rfl
  | cons b value => exact List.dropWhile_cons_of_neg (by simp [h b rfl])

/-- Nothing is lost of a value without blanks at its ends. -/
theorem trimBlanks_eq (hhead : ∀ b, value.head? = some b → isBlank b = false)
    (hlast : ∀ b, value.getLast? = some b → isBlank b = false) : trimBlanks value = value := by
  unfold trimBlanks
  rw [dropBlanks_eq hhead, dropBlanks_eq fun b hb => hlast b (by rwa [← List.head?_reverse]),
    List.reverse_reverse]

theorem isBlank_of_mem (h : VisibleText s) {b : UInt8} (hb : b ∈ bytes s) : isBlank b = false := by
  rw [bytes_of_ascii fun c hc => by have := h c hc; omega] at hb
  obtain ⟨c, hc, rfl⟩ := List.mem_map.mp hb
  exact isBlank_ascii (h c hc)

theorem trimBlanks_visible (h : VisibleText s) : trimBlanks (bytes s) = bytes s :=
  trimBlanks_eq (fun _ hb => isBlank_of_mem h (List.mem_of_head? hb))
    fun _ hb => isBlank_of_mem h (List.mem_of_getLast? hb)

theorem toStr_visible (h : VisibleText s) : toStr (bytes s) = .ok s :=
  toStr_bytes fun c hc => ⟨(h c hc).1.le, (h c hc).2⟩

/-- The authorization of a token arrives as it is, and the proxy takes the token out of it. -/
theorem bearer_arrives (h : VisibleText s) (hne : s ≠ "") :
    trimBlanks (bytes ("Bearer " ++ s)) = bytes ("Bearer " ++ s) ∧
      toStr (bytes ("Bearer " ++ s)) = .ok ("Bearer " ++ s) ∧ authToken ("Bearer " ++ s) = s := by
  refine ⟨trimBlanks_eq ?_ ?_, toStr_bytes ?_, ?_⟩
  · intro b hb
    have hhead : (bytes ("Bearer " ++ s)).head? = some (ascii 'B') := by
      rw [bytes_append]
      rfl
    rw [hhead] at hb
    rw [← Option.some.inj hb]
    decide
  · intro b hb
    have hbytes : bytes s ≠ [] := fun hnil => hne (bytes_injective (hnil.trans rfl))
    rw [bytes_append, List.getLast?_append_of_ne_nil _ hbytes] at hb
    exact isBlank_of_mem h (List.mem_of_getLast? hb)
  · intro c hc
    rw [String.toList_append] at hc
    have hbearer : ∀ c ∈ "Bearer ".toList, 32 ≤ c.toNat ∧ c.toNat < 127 := by simp
    rcases List.mem_append.mp hc with hc | hc
    · exact hbearer c hc
    · exact ⟨(h c hc).1.le, (h c hc).2⟩
  · unfold authToken
    rw [String.toList_append, if_pos (List.prefix_append _ _)]
    exact String.ofList_toList

/-! ## Headers that arrive -/

theorem get_deliver (hdeliver : deliver headers = some headers') :
    headers'.get name = (headers.get name).map trimBlanks := by
  unfold deliver at hdeliver
  split at hdeliver
  · rw [← Option.some.inj hdeliver]
    unfold Headers.get
    rw [List.find?_map, Option.map_map, Option.map_map]
    rfl
  · cases hdeliver

theorem get_append : (headers ++ headers' : Headers).get name =
    (headers.get name).or (Headers.get headers' name) := by
  unfold Headers.get
  rw [List.find?_append]
  cases headers.find? fun h => sameName name h.1 <;> rfl

theorem get_insert_self : (headers.insert name value).get name = some value := by
  have hself : sameName name name = true := by simp [sameName]
  have hnone : Headers.get (headers.filter fun h => !sameName name h.1) name = none := by
    unfold Headers.get
    rw [Option.map_eq_none_iff, List.find?_eq_none]
    intro h hh
    simpa using (List.mem_filter.mp hh).2
  have hlast : Headers.get [(name, value)] name = some value := by
    simp [Headers.get, hself]
  unfold Headers.insert
  rw [get_append, hnone, hlast, Option.none_or]

end Values

/-! ## The requests of a user -/

/-- The server of a cluster, as the proxy knows it. -/
def target (c : ClusterConfig) : String :=
  if c.apiServiceURL = "" then defaultK8sApiServerUrl else c.apiServiceURL

/-- A request has no authorization and none of the headers for the proxy before it gets them from the
    wrappers. -/
structure PlainHeaders (headers : Headers) : Prop where
  authorization : headers.get "Authorization" = none
  url : headers.get headerK8sApiServerUrl = none
  caCert : headers.get headerK8sApiServerCaCert = none

/-- What goes on of a request of a user: to the server of the cluster, with its CA, and with the
    identity that the server has given for the token. -/
structure UserForward (env : Env) (c : ClusterConfig) (token : String) (req : Request)
    (defaultCaData : Bytes) (sent : List Sent) (f : Forward) : Prop where
  uri : f.request.uri = target c ++ req.pathAndQuery.getD ""
  caCert : if c.certificateAuthorityData = ""
    then target c = defaultK8sApiServerUrl ∧ f.caCert = defaultCaData
    else env.decode (trimBlanks (bytes c.certificateAuthorityData)) = .ok f.caCert
  identity : ∃ e o i, .exchange e ∈ sent ∧ e.url = target c ∧ e.caCert = f.caCert ∧
    e.data.token = some token ∧ env.create e = .ok (some o) ∧ identityOf env o = .ok i ∧
    f.identity = some i

section Users

variable {env : Env} {existing : String → Headers → Headers} {inClusterConfig config : RestConfig}
  {clustersConfig : ClustersConfig} {c : ClusterConfig} {token cluster : String} {req : Request}
  {headers : Headers} {defaultCaData : Bytes} {sent : List Sent} {resp : Response}

/-- The config of a user on a cluster with pinniped. -/
theorem newClusterConfig_pinniped (hcluster : cluster ≠ "") (htoken : token ≠ "")
    (hc : clustersConfig.clusters cluster = some c) (hpinniped : c.pinnipedEnable = true) :
    newClusterConfig inClusterConfig token cluster clustersConfig = .ok { inClusterConfig with
      bearerToken := token
      bearerTokenFile := ""
      host := clustersConfig.pinnipedProxyURL
      wrapTransport :=
        inClusterConfig.wrapTransport ++ [.pinnipedProxy (pinnipedHeaders c)] } := by
  unfold newClusterConfig
  simp only [hc]
  rw [if_neg hcluster, if_pos ⟨htoken, hpinniped⟩]

/-- What the wrappers put into the headers of a request. -/
structure WrappedHeaders (c : ClusterConfig) (token : String) (headers : Headers) : Prop where
  authorization : headers.get "Authorization" = some (bytes ("Bearer " ++ token))
  url : headers.get headerK8sApiServerUrl =
    if c.apiServiceURL = "" then none else some (bytes c.apiServiceURL)
  caCert : headers.get headerK8sApiServerCaCert =
    if c.certificateAuthorityData = "" then none else some (bytes c.certificateAuthorityData)

/-- The three names are different. -/
theorem proxyHeaders_not_sameName :
    sameName "Authorization" headerK8sApiServerUrl = false ∧
      sameName "Authorization" headerK8sApiServerCaCert = false ∧
      sameName headerK8sApiServerUrl headerK8sApiServerCaCert = false := by
  decide

/-- The values that `pinnipedHeaders` has for a name. -/
theorem get_pinnipedHeaders (name : String) :
    Headers.get ((pinnipedHeaders c).map fun h => (h.1, bytes h.2)) name =
      (if sameName name headerK8sApiServerUrl ∧ c.apiServiceURL ≠ "" then
        some (bytes c.apiServiceURL) else none).or
      (if sameName name headerK8sApiServerCaCert ∧ c.certificateAuthorityData ≠ "" then
        some (bytes c.certificateAuthorityData) else none) := by
  unfold pinnipedHeaders Headers.get
  by_cases hu : c.apiServiceURL = "" <;> by_cases hd : c.certificateAuthorityData = "" <;>
    cases h₁ : sameName name headerK8sApiServerUrl <;>
    cases h₂ : sameName name headerK8sApiServerCaCert <;>
    simp_all [headerK8sApiServerUrl, headerK8sApiServerCaCert]

theorem sameName_self (name : String) : sameName name name = true := by
  simp [sameName]

/-- The URL of the cluster, if it has one. -/
theorem get_pinnipedHeaders_url :
    Headers.get ((pinnipedHeaders c).map fun h => (h.1, bytes h.2)) headerK8sApiServerUrl =
      if c.apiServiceURL = "" then none else some (bytes c.apiServiceURL) := by
  rw [get_pinnipedHeaders, sameName_self, proxyHeaders_not_sameName.2.2]
  by_cases hu : c.apiServiceURL = "" <;> simp [hu]

/-- The CA data of the cluster, if it has some. -/
theorem get_pinnipedHeaders_caCert :
    Headers.get ((pinnipedHeaders c).map fun h => (h.1, bytes h.2)) headerK8sApiServerCaCert =
      if c.certificateAuthorityData = "" then none else some (bytes c.certificateAuthorityData) := by
  rw [get_pinnipedHeaders, sameName_self, sameName_comm, proxyHeaders_not_sameName.2.2]
  by_cases hd : c.certificateAuthorityData = "" <;> simp [hd]

theorem wrappedHeaders (hplain : PlainHeaders headers) (htoken : token ≠ "") :
    WrappedHeaders c token
      (pinnipedRoundTrip (pinnipedHeaders c) (bearerRoundTrip token headers)) := by
  obtain ⟨hurl, hca, -⟩ := proxyHeaders_not_sameName
  have hbearer : bearerRoundTrip token headers =
      headers.insert "Authorization" (bytes ("Bearer " ++ token)) := by
    unfold bearerRoundTrip
    rw [if_pos ⟨htoken, by rw [hplain.authorization]; rfl⟩]
  unfold pinnipedRoundTrip
  rw [hbearer]
  constructor
  · rw [get_append, get_insert_self, Option.some_or]
  · rw [get_append, get_insert_of_not_sameName hurl, hplain.url, Option.none_or,
      get_pinnipedHeaders_url]
  · rw [get_append, get_insert_of_not_sameName hca, hplain.caCert, Option.none_or,
      get_pinnipedHeaders_caCert]

/-- The server of a request whose headers have arrived. -/
theorem getApiServerUrl_of_wrapped {headers' : Headers} {url : String}
    (hwrapped : WrappedHeaders c token headers) (hdeliver : deliver headers = some headers')
    (hvisible : VisibleText c.apiServiceURL) (hurl : getApiServerUrl env headers' = .ok url) :
    url = target c := by
  unfold getApiServerUrl at hurl
  rw [get_deliver hdeliver, hwrapped.url] at hurl
  unfold target
  by_cases hu : c.apiServiceURL = ""
  · rw [if_pos hu, Option.map_none] at hurl
    rw [if_pos hu]
    exact (Except.ok.inj hurl).symm
  · rw [if_neg hu, Option.map_some, trimBlanks_visible hvisible] at hurl
    dsimp only at hurl
    rw [toStr_visible hvisible] at hurl
    dsimp only [validateUrl] at hurl
    rw [if_neg hu]
    split at hurl
    · split at hurl
      · exact (Except.ok.inj hurl).symm
      · cases hurl
    · cases hurl

/-- The CA of such a request. -/
theorem certAuthData_of_wrapped {headers' : Headers} {caCert : Bytes}
    (hwrapped : WrappedHeaders c token headers) (hdeliver : deliver headers = some headers')
    (hca : certAuthData env headers' (target c) defaultCaData = .ok caCert) :
    if c.certificateAuthorityData = ""
      then target c = defaultK8sApiServerUrl ∧ caCert = defaultCaData
      else env.decode (trimBlanks (bytes c.certificateAuthorityData)) = .ok caCert := by
  unfold certAuthData at hca
  rw [get_deliver hdeliver, hwrapped.caCert] at hca
  by_cases hd : c.certificateAuthorityData = ""
  · rw [if_pos hd, Option.map_none] at hca
    rw [if_pos hd]
    dsimp only at hca
    split at hca
    · rename_i hdefault
      exact ⟨hdefault, (Except.ok.inj hca).symm⟩
    · cases hca
  · rw [if_neg hd, Option.map_some] at hca
    rw [if_neg hd]
    exact hca

/-- Every request that goes on for a user is one to the server of the cluster. -/
theorem user_forward (hcluster : cluster ≠ "") (htoken : token ≠ "")
    (hc : clustersConfig.clusters cluster = some c) (hpinniped : c.pinnipedEnable = true)
    (hwrap : inClusterConfig.wrapTransport = [])
    (hconfig : newClusterConfig inClusterConfig token cluster clustersConfig = .ok config)
    (hplain : PlainHeaders req.headers) (hurl : VisibleText c.apiServiceURL)
    (hvisible : VisibleText token)
    (hsent : sentByClient env existing config req defaultCaData = some (sent, resp))
    {f : Forward} (hf : .forward f ∈ sent) :
    UserForward env c token req defaultCaData sent f := by
  rw [newClusterConfig_pinniped hcluster htoken hc hpinniped] at hconfig
  unfold sentByClient at hsent
  rw [← Except.ok.inj hconfig] at hsent
  obtain ⟨headers', hdeliver, hproxy⟩ := Option.map_eq_some_iff.mp hsent
  have hwrapped : WrappedHeaders c token _ := wrappedHeaders hplain htoken
  have hclient : clientHeaders existing { inClusterConfig with
      bearerToken := token
      bearerTokenFile := ""
      host := clustersConfig.pinnipedProxyURL
      wrapTransport := inClusterConfig.wrapTransport ++ [.pinnipedProxy (pinnipedHeaders c)] }
      req.headers = pinnipedRoundTrip (pinnipedHeaders c) (bearerRoundTrip token req.headers) := by
    unfold clientHeaders
    rw [hwrap]
    rfl
  rw [hclient] at hdeliver
  have hauth : Headers.get headers' "Authorization" = some (bytes ("Bearer " ++ token)) := by
    rw [get_deliver hdeliver, hwrapped.authorization, Option.map_some,
      (bearer_arrives hvisible htoken).1]
  obtain ⟨exchanges, hexchanges, ⟨hnone, -⟩ | ⟨f', hforward, hlist, -⟩⟩ :=
    proxy_sends env { req with headers := headers' } defaultCaData
  · rw [hproxy] at hnone
    dsimp only at hnone
    rw [hnone] at hf
    simp at hf
  · rw [hproxy] at hlist
    dsimp only at hlist
    have hsame : f = f' := by
      rw [hlist] at hf
      simpa using hf
    subst hsame
    obtain ⟨url, hdestined, huri⟩ := hforward.destined
    have htarget := getApiServerUrl_of_wrapped hwrapped hdeliver hurl hdestined.server
    subst htarget
    refine ⟨huri, certAuthData_of_wrapped hwrapped hdeliver hdestined.ca, ?_⟩
    have hidentity := hforward.identity
    unfold IdentityFrom at hidentity
    dsimp only at hidentity
    rw [hauth] at hidentity
    obtain ⟨e, he, o, i, hcreate, hi, hf⟩ := hidentity
    obtain ⟨hdest, value, authorization, hvalue, hstr, hdata⟩ := hexchanges e he
    have hserver := getApiServerUrl_of_wrapped hwrapped hdeliver hurl hdest.server
    have hcaCert : e.caCert = f.caCert := by
      have hca := hdest.ca
      rw [hserver] at hca
      exact Except.ok.inj (hca.symm.trans hdestined.ca)
    rw [← Option.some.inj (hauth.symm.trans hvalue), (bearer_arrives hvisible htoken).2.1] at hstr
    rw [← Except.ok.inj hstr, (bearer_arrives hvisible htoken).2.2] at hdata
    refine ⟨e, o, i, ?_, hserver, hcaCert, hdata, hcreate, hi, hf⟩
    rw [hlist]
    exact List.mem_append_left _ (List.mem_map_of_mem he)

/-- The config of the service on a cluster other than that of Kubeapps. -/
theorem newClusterConfig_service (hcluster : cluster ≠ "")
    (hadditional : cluster ≠ clustersConfig.kubeappsClusterName)
    (hc : clustersConfig.clusters cluster = some c) :
    newClusterConfig inClusterConfig "" cluster clustersConfig = .ok { inClusterConfig with
      bearerToken := ""
      bearerTokenFile := ""
      host := c.apiServiceURL
      tlsClientConfig := clusterTLS c } := by
  unfold newClusterConfig
  simp only [hc]
  rw [if_neg hcluster, if_neg (fun h => h.1 rfl), if_neg hadditional]

theorem base64Char_visible : ∀ n < 64, 32 < (base64Char n).toNat ∧ (base64Char n).toNat < 127 := by
  decide +kernel

theorem visible_encodeBase64 (bs : Bytes) : VisibleText (encodeBase64 bs) := by
  intro c hc
  unfold encodeBase64 at hc
  rw [String.toList_ofList] at hc
  rcases List.mem_append.mp hc with hc | hc
  · obtain ⟨n, hn, rfl⟩ := List.mem_map.mp hc
    exact base64Char_visible n (lt_of_mem_sextets hn)
  · rw [List.eq_of_mem_replicate hc]
    decide

/-- The CA of a cluster whose data are the encoding of some bytes. -/
theorem clusterTLS_caData {data : Bytes} (hdata : data ≠ [])
    (hdecoded : c.certificateAuthorityDataDecoded = binaryString data) :
    (clusterTLS c).caData = binaryString data := by
  have hne : binaryString data ≠ "" := fun hempty => by
    have hlen := congrArg (fun s : String => s.toList.length) hempty
    simp only [binaryString, String.toList_ofList, List.length_map] at hlen
    exact hdata (List.length_eq_zero_iff.mp hlen)
  unfold clusterTLS
  rw [hdecoded, if_pos hne]

end Users

/-- For a cluster other than that of Kubeapps whose file was accepted, what goes on of the requests of
    a user goes to the server that the service reaches directly. The proxy trusts the CA that the
    service trusts, and the identity is that which the server has given for the token. Without CA
    data only requests to the default server go on. -/
theorem pinniped_same_server (os : ConfigOS) (configPath caFilesPrefix proxyURL : String) (p : Parse)
    (cleanup : Cleanup)
    (hparse : parseClusterConfig os configPath caFilesPrefix proxyURL = (.ok p, cleanup))
    (cluster token : String) (c : ClusterConfig) (inClusterConfig config direct : RestConfig)
    (hcluster : cluster ≠ "") (hadditional : cluster ≠ p.configs.kubeappsClusterName)
    (hc : p.configs.clusters cluster = some c) (hpinniped : c.pinnipedEnable = true)
    (htoken : token ≠ "") (hvisible : VisibleText token) (hurl : VisibleText c.apiServiceURL)
    (hwrap : inClusterConfig.wrapTransport = [])
    (hconfig : newClusterConfig inClusterConfig token cluster p.configs = .ok config)
    (hdirect : newClusterConfig inClusterConfig "" cluster p.configs = .ok direct)
    (env : Env) (hdecode : ∀ bs, env.decode (bytes (encodeBase64 bs)) = .ok bs)
    (existing : String → Headers → Headers) (req : Request) (hplain : PlainHeaders req.headers)
    (defaultCaData : Bytes) (sent : List Sent) (resp : Response)
    (hsent : sentByClient env existing config req defaultCaData = some (sent, resp)) :
    config.host = proxyURL ∧ ∀ f, .forward f ∈ sent →
      f.request.uri = direct.host ++ req.pathAndQuery.getD "" ∧
      (∀ data, data ≠ [] → c.certificateAuthorityData = encodeBase64 data →
        binaryString f.caCert = direct.tlsClientConfig.caData) ∧
      (c.certificateAuthorityData = "" → direct.host = defaultK8sApiServerUrl) ∧
      ∃ e o i, .exchange e ∈ sent ∧ e.url = direct.host ∧ e.data.token = some token ∧
        env.create e = .ok (some o) ∧ identityOf env o = .ok i ∧ f.identity = some i := by
  obtain ⟨dir, content, entries, -, -, -, haccepted, rfl, -⟩ :=
    (parseClusterConfig_ok_iff os configPath caFilesPrefix proxyURL p cleanup).mp hparse
  have htarget : target c = c.apiServiceURL := if_neg (url_ne_empty haccepted hcluster hadditional hc)
  rw [newClusterConfig_service hcluster hadditional hc] at hdirect
  obtain rfl := Except.ok.inj hdirect
  refine ⟨?_, fun f hf => ?_⟩
  · rw [newClusterConfig_pinniped hcluster htoken hc hpinniped] at hconfig
    rw [← Except.ok.inj hconfig]
    rfl
  · obtain ⟨huri, hca, e, o, i, he, hserver, -, hdata, hcreate, hi, hf⟩ := user_forward hcluster htoken
      hc hpinniped hwrap hconfig hplain hurl hvisible hsent hf
    rw [htarget] at huri hserver hca
    refine ⟨huri, fun data hne hencoded => ?_, fun hempty => ?_, e, o, i, he, hserver, hdata, hcreate,
      hi, hf⟩
    · have hpresent : c.certificateAuthorityData ≠ "" := fun hempty =>
        hne (encodeBase64_eq_empty.mp (hencoded ▸ hempty))
      rw [if_neg hpresent, hencoded, trimBlanks_visible (visible_encodeBase64 data), hdecode] at hca
      obtain ⟨data', hdecoded, hbinary⟩ := decoded_of_parsed haccepted hc hpresent
      rw [hencoded, decodeString_encodeBase64] at hdecoded
      obtain rfl := Option.some.inj hdecoded
      rw [← Except.ok.inj hca]
      exact (clusterTLS_caData hne hbinary).symm
    · rw [if_pos hempty] at hca
      exact hca.1

/-- Servers that take every request and give a certificate for every token. -/
def acceptingEnv : Env where
  var := fun _ => some "pinniped"
  parseUrl := fun _ => .ok "https"
  parseUri := fun _ => .ok none
  decode := fun b =>
    match (ofBytes? b).bind decodeString with
    | some data => .ok data
    | none => .error "invalid"
  certificateError := fun _ => none
  clientConfigFails := fun _ _ => false
  create := fun e => .ok (some { e.data with
    status := some ⟨some ⟨"2021-08-01T00:00:00Z", none, "certificate", "key"⟩, none⟩ })
  identityError := fun _ => none
  clientError := fun _ _ => none
  send := fun _ => .ok ⟨200, [], []⟩
  debugStatus := fun _ => ""
  debugRequest := fun _ => ""

/-- The cluster of Kubeapps, and one with pinniped. -/
def pinnipedEntries : List ClusterEntry :=
  [⟨⟨"", "", "", "", "", false, false⟩, "default", false⟩,
    ⟨⟨"https://second:6443", "Q0E=", "", "", "", false, true⟩, "second", false⟩]

def podConfig : RestConfig := ⟨"https://10.0.0.1", "pod-token", "", .zero, []⟩

def podsRequest : Request := ⟨"GET", some "/api/v1/pods", [], []⟩

/-- The config of a user on the second cluster. -/
def secondConfig : RestConfig := { podConfig with
  bearerToken := "token"
  host := "http://proxy"
  wrapTransport := [.pinnipedProxy [("PINNIPED_PROXY_API_SERVER_URL", "https://second:6443"),
    ("PINNIPED_PROXY_API_SERVER_CERT", "Q0E=")]] }

/-- The request as it arrives at the second cluster. -/
def podsForward : Forward where
  request := {
    method := "GET"
    uri := "https://second:6443/api/v1/pods"
    headers := [("Authorization", bytes "Bearer token"),
      ("PINNIPED_PROXY_API_SERVER_URL", bytes "https://second:6443"),
      ("PINNIPED_PROXY_API_SERVER_CERT", bytes "Q0E=")]
    body := [] }
  caCert := [67, 65]
  identity := some ⟨"certificate", "key"⟩

theorem pinniped_same_server_second : ∃ sent resp,
    sentByClient acceptingEnv (fun _ headers => headers) secondConfig podsRequest [] =
      some (sent, resp) ∧
    .forward podsForward ∈ sent ∧
    podsForward.request.uri = "https://second:6443" ++ podsRequest.pathAndQuery.getD "" ∧
    binaryString podsForward.caCert = "CA" := by
  have haccepted : Accepted (configOS pinnipedEntries) "/1" pinnipedEntries :=
    accepted_configOS (by unfold OneNamed; decide) (by decide +kernel)
  have hparse := (parseClusterConfig_ok_iff (configOS pinnipedEntries) "" "" "http://proxy" _ _).mpr
    ⟨"/1", [], pinnipedEntries, rfl, rfl, rfl, haccepted, rfl, rfl⟩
  have hsome : ∃ r, sentByClient acceptingEnv (fun _ headers => headers) secondConfig podsRequest [] =
      some r := Option.isSome_iff_exists.mp (by decide +kernel)
  obtain ⟨⟨sent, resp⟩, hsent⟩ := hsome
  have hdecode : ∀ bs, acceptingEnv.decode (bytes (encodeBase64 bs)) = .ok bs := by
    intro bs
    simp [acceptingEnv, decodeString_encodeBase64]
  have hmem : .forward podsForward ∈ sent := by
    have hlist : (sentByClient acceptingEnv (fun _ headers => headers) secondConfig podsRequest []).map
        (fun r => decide (Sent.forward podsForward ∈ r.1)) = some true := by decide +kernel
    rw [hsent] at hlist
    simpa using hlist
  obtain ⟨-, hforwards⟩ := pinniped_same_server (configOS pinnipedEntries) "" "" "http://proxy" _ _
    hparse "second" "token" ⟨"https://second:6443", "Q0E=", "CA", "/1/second", "", false, true⟩
    podConfig secondConfig _ (by decide) (by decide) (by decide +kernel) rfl (by decide +kernel)
    (by decide +kernel) (by decide +kernel) rfl (by decide +kernel) rfl acceptingEnv hdecode
    (fun _ headers => headers) podsRequest ⟨rfl, rfl, rfl⟩ [] sent resp hsent
  obtain ⟨huri, hca, -⟩ := hforwards podsForward hmem
  exact ⟨sent, resp, hsent, hmem, huri, hca [67, 65] (by decide) (by decide +kernel)⟩

end Kubeapps.PinnipedProxy
