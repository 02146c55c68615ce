/-
  The pull secret of each registry domain: `RegistrySecretsPerDomain` (pkg/chart/chart.go) makes the
  map from the servers of the docker configs to the secrets, and `NewDockerSecretsPostRenderer`
  (pkg/agent/docker_secrets_postrenderer.go) the one from domains to secrets.

  Both loop over maps. The order in which `auths` is visited makes no difference, since one secret is
  written for all its servers (`registrySecretsPerDomainIn_eq`). The order of the servers does if
  two of them with different secrets have one domain.
-/
import Kubeapps.Kubeops.Chart
import Kubeapps.Lib.NetUrl
import Kubeapps.Lib.Writes

namespace Kubeapps.Kubeops

open Kubeapps.Controller Kubeapps.Kube.Clusters
open Kubeapps.Lib hiding pathJoin trimSpace
open Kubeapps.Lib.Net

/-! ## The servers -/

/-- One secret of the loop of `RegistrySecretsPerDomain`, whose `auths` are visited in this order. -/
def addRegistrySecretIn (env : Env) (config : RestConfig) (ns : String)
    (order : List String → List String) (secretsPerDomain : StringMap) (secretName : String) :
    Except String StringMap :=
  addRegistrySecret { env with dockerAuths := fun b => order <$> env.dockerAuths b } config ns
    secretsPerDomain secretName

/-- `RegistrySecretsPerDomain`, with an order of its own for the `auths` of each secret. -/
def registrySecretsPerDomainIn (env : Env) (orders : Nat → List String → List String)
    (appRepoSecrets : List String) (cluster ns token : String) (authHandler : KubeHandler) :
    Except String StringMap := do
  let client ← (authHandler.asUser token cluster).mapError clusterErrorText
  appRepoSecrets.zipIdx.foldlM
    (fun m s => addRegistrySecretIn env client.clientset.config ns (orders s.2) m s.1) ∅

/-! ## The domains -/

def indexDockerIO : Bytes := bytes "index.docker.io"

def dockerIO : Bytes := bytes "docker.io"

/-- The domain-to-secret map; a domain is its bytes. -/
abbrev DomainMap := Finmap fun _ : Bytes => String

/-- A protocol must be present for net/url. -/
def withProtocol (registryServer : Bytes) : Bytes :=
  if !(bytes "https://").isPrefixOf registryServer && !(bytes "http://").isPrefixOf registryServer
  then bytes "https://" ++ registryServer else registryServer

/-- One server of the loop of `NewDockerSecretsPostRenderer`. -/
def addServer (m : DomainMap) (server : (_ : String) × String) : Option DomainMap := do
  let u ← parseURL (withProtocol (bytes server.1))
  let m := m.insert u.host server.2
  return if u.host = indexDockerIO then m.insert dockerIO server.2 else m

/-- `NewDockerSecretsPostRenderer`, for the entries of the map in some order: the `secrets` of the
    renderer. There are none if a server does not parse. -/
def newDockerSecretsPostRenderer (secrets : List ((_ : String) × String)) : Option DomainMap :=
  secrets.foldlM addServer ∅

/-- `m` is what the two functions can compute, for some order in which the maps are visited; it is
    `none` if one of them returns an error. -/
def Computes (env : Env) (appRepoSecrets : List String) (cluster ns token : String)
    (authHandler : KubeHandler) (m : Option DomainMap) : Prop :=
  ∃ orders : Nat → List String → List String, (∀ i keys, (orders i keys).Perm keys) ∧
    match registrySecretsPerDomainIn env orders appRepoSecrets cluster ns token authHandler with
    | .error _ => m = none
    | .ok secretsPerDomain => ∃ servers : List ((_ : String) × String),
        (servers : Multiset _) = secretsPerDomain.entries ∧
          m = newDockerSecretsPostRenderer servers

/-! ## What decides the map -/

/-- The domains that a server stands for, if it parses. -/
def serverDomains (server : String) : Option (List Bytes) :=
  (parseURL (withProtocol (bytes server))).map fun u =>
    if u.host = indexDockerIO then [u.host, dockerIO] else [u.host]

/-- The docker config of a secret has the server. -/
def HasServer (env : Env) (config : RestConfig) (ns secretName server : String) : Prop :=
  ∃ secret dockerConfig auths, env.getSecret config secretName ns = .ok secret ∧
    secret.data.lookup ".dockerconfigjson" = some dockerConfig ∧
    env.dockerAuths dockerConfig = .ok auths ∧ server ∈ auths

/-- The secret is the last one of the list that has the server. -/
def LastSecret (env : Env) (config : RestConfig) (ns : String) (appRepoSecrets : List String)
    (server secretName : String) : Prop :=
  ∃ before after, appRepoSecrets = before ++ secretName :: after ∧
    HasServer env config ns secretName server ∧ ∀ s ∈ after, ¬ HasServer env config ns s server

/-- Servers of one domain have one secret. -/
def DomainsAgree (env : Env) (config : RestConfig) (ns : String) (appRepoSecrets : List String) :
    Prop :=
  ∀ server name server' name', LastSecret env config ns appRepoSecrets server name →
    LastSecret env config ns appRepoSecrets server' name' →
    ∀ ds ds', serverDomains server = some ds → serverDomains server' = some ds' →
      ∀ d ∈ ds, d ∈ ds' → name = name'

/-- The secret can be read and is a docker config. -/
def Readable (env : Env) (config : RestConfig) (ns secretName : String) : Prop :=
  ∃ secret dockerConfig auths, env.getSecret config secretName ns = .ok secret ∧
    secret.type = "kubernetes.io/dockerconfigjson" ∧
    secret.data.lookup ".dockerconfigjson" = some dockerConfig ∧
    env.dockerAuths dockerConfig = .ok auths

/-- If there is a map, the servers of one domain have one secret. -/
def OneMap (env : Env) (appRepoSecrets : List String) (cluster ns token : String)
    (authHandler : KubeHandler) : Prop :=
  ∀ client, authHandler.asUser token cluster = .ok client →
    (∀ s ∈ appRepoSecrets, Readable env client.clientset.config ns s) →
    (∀ s ∈ appRepoSecrets, ∀ server, HasServer env client.clientset.config ns s server →
      serverDomains server ≠ none) →
    DomainsAgree env client.clientset.config ns appRepoSecrets

/-! ## `RegistrySecretsPerDomain` -/

section PerServer

variable {env : Env} {config : RestConfig} {ns secretName server : String}
  {order : List String → List String} {orders : Nat → List String → List String}
  {appRepoSecrets : List String} {m m' : StringMap}

/-- The servers of the docker config of a secret. -/
def authsOf (env : Env) (config : RestConfig) (ns secretName : String) : List String :=
  match env.getSecret config secretName ns with
  | .error _ => []
  | .ok secret =>
      match secret.data.lookup ".dockerconfigjson" with
      | none => []
      | some dockerConfig => (env.dockerAuths dockerConfig).toOption.getD []

theorem mem_authsOf : server ∈ authsOf env config ns secretName ↔
    HasServer env config ns secretName server := by
  unfold authsOf HasServer
  cases env.getSecret config secretName ns with
  | error err => simp
  | ok secret =>
      cases hdata : secret.data.lookup ".dockerconfigjson" with
      | none => simp [hdata]
      | some dockerConfig =>
          cases hauths : env.dockerAuths dockerConfig with
          | error err => simp [hdata, hauths, Except.toOption]
          | ok auths => simp [hdata, hauths, Except.toOption]

theorem addRegistrySecret_of_readable (h : Readable env config ns secretName) :
    addRegistrySecret env config ns m secretName =
      .ok (Lib.writeAll (authsOf env config ns secretName) secretName m) := by
  obtain ⟨secret, dockerConfig, auths, hsecret, htype, hdata, hauths⟩ := h
  unfold addRegistrySecret authsOf
  rw [hsecret]
  simp [htype, hdata, hauths, bind, Except.bind, pure, Except.pure, Except.toOption, Lib.writeAll]

theorem readable_of_addRegistrySecret
    (h : addRegistrySecret env config ns m secretName = .ok m') :
    Readable env config ns secretName := by
  obtain ⟨secret, hsecret, h⟩ := Lib.bind_eq_ok h
  by_cases htype : secret.type = "kubernetes.io/dockerconfigjson"
  · rw [if_neg (not_not.mpr htype)] at h
    cases hdata : secret.data.lookup ".dockerconfigjson" with
    | none =>
        simp only [hdata] at h
        cases h
    | some dockerConfig =>
        simp only [hdata] at h
        obtain ⟨auths, hauths, _⟩ := Lib.bind_eq_ok h
        exact ⟨secret, dockerConfig, auths, hsecret, htype, hdata, hauths⟩
  · rw [if_pos htype] at h
    cases h

/-- The order in which `auths` is visited makes no difference. -/
theorem addRegistrySecretIn_eq (horder : ∀ keys, (order keys).Perm keys) :
    addRegistrySecretIn env config ns order m secretName =
      addRegistrySecret env config ns m secretName := by
  unfold addRegistrySecretIn addRegistrySecret
  cases env.getSecret config secretName ns with
  | error err => rfl
  | ok secret =>
      by_cases htype : secret.type = "kubernetes.io/dockerconfigjson"
      · cases hdata : secret.data.lookup ".dockerconfigjson" with
        | none => simp [htype, hdata, bind, Except.bind]
        | some dockerConfig =>
            cases hauths : env.dockerAuths dockerConfig with
            | error err => simp [htype, hdata, hauths, bind, Except.bind]
            | ok auths =>
                have hsame : Lib.writeAll (order auths) secretName m =
                    Lib.writeAll auths secretName m :=
                  Lib.writeAll_congr fun k => (horder auths).mem_iff
                simpa [htype, hdata, hauths, bind, Except.bind, Except.map, Lib.writeAll,
                  pure, Except.pure] using hsame
      · simp [htype, bind, Except.bind, throw, throwThe, MonadExceptOf.throw]

theorem foldlM_zipIdx {α β : Type} {g : α → β × Nat → Except String α} {f : α → β → Except String α}
    (h : ∀ a x, g a x = f a x.1) (xs : List β) (n : Nat) (a : α) :
    (xs.zipIdx n).foldlM g a = xs.foldlM f a := by
  induction xs generalizing n a with
  | nil => rfl
  | cons x xs ih =>
      rw [List.zipIdx_cons, List.foldlM_cons, List.foldlM_cons, h]
      congr 1
      funext b
      exact ih (n + 1) b

theorem registrySecretsPerDomainIn_eq (horders : ∀ i keys, (orders i keys).Perm keys)
    (appRepoSecrets : List String) (cluster ns token : String) (authHandler : KubeHandler) :
    registrySecretsPerDomainIn env orders appRepoSecrets cluster ns token authHandler =
      registrySecretsPerDomain env appRepoSecrets cluster ns token authHandler := by
  unfold registrySecretsPerDomainIn registrySecretsPerDomain
  congr 1
  funext client
  exact foldlM_zipIdx (f := addRegistrySecret env client.clientset.config ns)
    (fun m s => addRegistrySecretIn_eq (horders s.2)) appRepoSecrets 0 ∅

/-- The loop over the secrets that can be read. -/
theorem foldlM_addRegistrySecret (h : ∀ s ∈ appRepoSecrets, Readable env config ns s) :
    appRepoSecrets.foldlM (addRegistrySecret env config ns) m =
      .ok (Lib.fill (authsOf env config ns) id appRepoSecrets m) := by
  induction appRepoSecrets generalizing m with
  | nil => rfl
  | cons s appRepoSecrets ih =>
      rw [List.forall_mem_cons] at h
      rw [List.foldlM_cons, addRegistrySecret_of_readable h.1]
      exact ih h.2

theorem readable_of_foldlM (h : appRepoSecrets.foldlM (addRegistrySecret env config ns) m = .ok m') :
    ∀ s ∈ appRepoSecrets, Readable env config ns s := by
  induction appRepoSecrets generalizing m with
  | nil => exact fun s hs => absurd hs List.not_mem_nil
  | cons s appRepoSecrets ih =>
      rw [List.foldlM_cons] at h
      obtain ⟨m₁, hfirst, hrest⟩ := Lib.bind_eq_ok h
      exact List.forall_mem_cons.mpr ⟨readable_of_addRegistrySecret hfirst, ih hrest⟩

/-- The secret of a server is the last one of the list that has it. -/
theorem lookup_eq_some_iff_lastSecret {name : String} :
    (Lib.fill (authsOf env config ns) id appRepoSecrets (∅ : StringMap)).lookup server = some name ↔
      LastSecret env config ns appRepoSecrets server name := by
  have hfill := Lib.lookup_fill (m := (∅ : StringMap)) (k := server) (authsOf env config ns) id
    appRepoSecrets
  rw [hfill, Finmap.lookup_empty, Option.or_none, Option.map_id_fun, id,
    List.find?_eq_some_iff_append]
  unfold LastSecret
  simp only [decide_eq_true_eq, Bool.not_eq_true', decide_eq_false_iff_not, mem_authsOf]
  constructor
  · rintro ⟨hname, before, after, hlist, hbefore⟩
    refine ⟨after.reverse, before.reverse, ?_, hname, fun s hs => hbefore s (List.mem_reverse.mp hs)⟩
    rw [← List.reverse_reverse appRepoSecrets, hlist]
    simp
  · rintro ⟨before, after, hlist, hname, hafter⟩
    refine ⟨hname, after.reverse, before.reverse, ?_, fun s hs => hafter s (List.mem_reverse.mp hs)⟩
    rw [hlist]
    simp

end PerServer

/-! ## `NewDockerSecretsPostRenderer` -/

section PerDomain

variable {server : (_ : String) × String} {servers : List ((_ : String) × String)} {m : DomainMap}

theorem addServer_eq : addServer m server =
    (serverDomains server.1).map fun ds => Lib.writeAll ds server.2 m := by
  unfold addServer serverDomains
  cases parseURL (withProtocol (bytes server.1)) with
  | none => rfl
  | some u =>
      by_cases hhub : u.host = indexDockerIO
      · simp [hhub, Lib.writeAll]
      · simp [hhub, Lib.writeAll]

/-- The domains of a server of the map. -/
def domainsOf (server : (_ : String) × String) : List Bytes := (serverDomains server.1).getD []

theorem foldlM_addServer (h : ∀ server ∈ servers, serverDomains server.1 ≠ none) :
    servers.foldlM addServer m = some (Lib.fill domainsOf Sigma.snd servers m) := by
  induction servers generalizing m with
  | nil => rfl
  | cons server servers ih =>
      rw [List.forall_mem_cons] at h
      obtain ⟨ds, hds⟩ := Option.ne_none_iff_exists'.mp h.1
      have hdomains : domainsOf server = ds := by simp [domainsOf, hds]
      rw [List.foldlM_cons, addServer_eq, hds]
      show servers.foldlM addServer (Lib.writeAll ds server.2 m) = _
      rw [ih h.2, ← hdomains]
      rfl

theorem foldlM_addServer_none (h : ∃ server ∈ servers, serverDomains server.1 = none) :
    servers.foldlM addServer m = none := by
  induction servers generalizing m with
  | nil => simp at h
  | cons server servers ih =>
      rw [List.foldlM_cons, addServer_eq]
      cases hds : serverDomains server.1 with
      | none => rfl
      | some ds =>
          have hrest : ∃ server ∈ servers, serverDomains server.1 = none := by
            simpa [hds] using h
          exact ih hrest

end PerDomain

/-! ## One map for every order -/

section Orders

variable {env : Env} {appRepoSecrets : List String} {cluster ns token : String}
  {authHandler : KubeHandler}

/-- The orders of the `auths` do not matter, so none has to be named. -/
theorem computes_iff {m : Option DomainMap} :
    Computes env appRepoSecrets cluster ns token authHandler m ↔
      match registrySecretsPerDomain env appRepoSecrets cluster ns token authHandler with
      | .error _ => m = none
      | .ok secretsPerDomain => ∃ servers : List ((_ : String) × String),
          (servers : Multiset _) = secretsPerDomain.entries ∧
            m = newDockerSecretsPostRenderer servers := by
  unfold Computes
  constructor
  · rintro ⟨orders, horders, h⟩
    rwa [registrySecretsPerDomainIn_eq horders] at h
  · intro h
    refine ⟨fun _ keys => keys, fun _ keys => List.Perm.refl keys, ?_⟩
    rwa [registrySecretsPerDomainIn_eq fun _ keys => List.Perm.refl keys]

/-- The domain map of one server map, for every order of its entries. -/
theorem newDockerSecretsPostRenderer_iff (secretsPerDomain : StringMap) :
    (∀ l l' : List ((_ : String) × String), (l : Multiset _) = secretsPerDomain.entries →
      (l' : Multiset _) = secretsPerDomain.entries →
      newDockerSecretsPostRenderer l = newDockerSecretsPostRenderer l') ↔
    ((∀ server ∈ secretsPerDomain.entries, serverDomains server.1 ≠ none) →
      ∀ a ∈ secretsPerDomain.entries, ∀ b ∈ secretsPerDomain.entries,
        ∀ d ∈ domainsOf a, d ∈ domainsOf b → a.2 = b.2) := by
  obtain ⟨servers, hservers⟩ := Quot.exists_rep secretsPerDomain.entries
  have hservers : (servers : Multiset _) = secretsPerDomain.entries := hservers
  simp only [← hservers, Multiset.coe_eq_coe, Multiset.mem_coe]
  by_cases hparse : ∀ server ∈ servers, serverDomains server.1 ≠ none
  · have hmap : ∀ l : List ((_ : String) × String), l.Perm servers →
        newDockerSecretsPostRenderer l = some (Lib.fill domainsOf Sigma.snd l ∅) := fun l hl =>
      foldlM_addServer fun server hserver => hparse server (hl.mem_iff.mp hserver)
    have hiff : (∀ l l' : List ((_ : String) × String), l.Perm servers → l'.Perm servers →
        Lib.fill domainsOf Sigma.snd l (∅ : DomainMap) = Lib.fill domainsOf Sigma.snd l' ∅) ↔
        Lib.Agree domainsOf Sigma.snd servers := Lib.fill_perm_iff
    constructor
    · intro h _
      exact hiff.mp fun l l' hl hl' => by
        have hsame := h l l' hl hl'
        rw [hmap l hl, hmap l' hl'] at hsame
        exact Option.some.inj hsame
    · intro h l l' hl hl'
      rw [hmap l hl, hmap l' hl', hiff.mpr (h hparse) l l' hl hl']
  · have hnone : ∀ l : List ((_ : String) × String), l.Perm servers →
        newDockerSecretsPostRenderer l = none := by
      intro l hl
      apply foldlM_addServer_none
      simp only [not_forall, not_not] at hparse
      obtain ⟨server, hserver, hfail⟩ := hparse
      exact ⟨server, hl.mem_iff.mpr hserver, hfail⟩
    constructor
    · exact fun _ hall => absurd hall hparse
    · intro _ l l' hl hl'
      rw [hnone l hl, hnone l' hl']

/-- A server of a docker config has a secret. -/
theorem exists_lastSecret {config : RestConfig} {server s : String} (hs : s ∈ appRepoSecrets)
    (h : HasServer env config ns s server) :
    ∃ name, LastSecret env config ns appRepoSecrets server name := by
  cases hlookup : (Lib.fill (authsOf env config ns) id appRepoSecrets (∅ : StringMap)).lookup
      server with
  | some name => exact ⟨name, lookup_eq_some_iff_lastSecret.1 hlookup⟩
  | none =>
      rw [Lib.lookup_fill, Finmap.lookup_empty, Option.or_none, Option.map_eq_none_iff,
        List.find?_eq_none] at hlookup
      have hno := hlookup s (List.mem_reverse.mpr hs)
      exact absurd (decide_eq_true (mem_authsOf.2 h)) hno

/-- Either all secrets can be read and every server has the last one, or there is an error. -/
theorem registrySecretsPerDomain_cases (env : Env) (appRepoSecrets : List String)
    (cluster ns token : String) (authHandler : KubeHandler) :
    (∃ client, authHandler.asUser token cluster = .ok client ∧
      (∀ s ∈ appRepoSecrets, Readable env client.clientset.config ns s) ∧
      registrySecretsPerDomain env appRepoSecrets cluster ns token authHandler =
        .ok (Lib.fill (authsOf env client.clientset.config ns) id appRepoSecrets ∅)) ∨
    ((∃ err, registrySecretsPerDomain env appRepoSecrets cluster ns token authHandler = .error err) ∧
      ∀ client, authHandler.asUser token cluster = .ok client →
        ¬ ∀ s ∈ appRepoSecrets, Readable env client.clientset.config ns s) := by
  unfold registrySecretsPerDomain
  cases hclient : authHandler.asUser token cluster with
  | error err => exact .inr ⟨⟨_, rfl⟩, fun client h => nomatch h⟩
  | ok client =>
      have hbind : ∀ {f : UserHandler → Except String StringMap}, ((Except.ok client :
          Except ClusterError UserHandler).mapError clusterErrorText >>= f) = f client := rfl
      rw [hbind]
      by_cases hread : ∀ s ∈ appRepoSecrets, Readable env client.clientset.config ns s
      · exact .inl ⟨client, rfl, hread, foldlM_addRegistrySecret hread⟩
      · cases hfold : appRepoSecrets.foldlM (addRegistrySecret env client.clientset.config ns) ∅ with
        | ok secretsPerDomain => exact absurd (readable_of_foldlM hfold) hread
        | error err =>
            exact .inr ⟨⟨err, rfl⟩, fun client' h => Except.ok.inj h ▸ hread⟩

/-- What is computed is one map, whatever the orders, exactly when the servers of a domain have one
    secret or there is no map at all. -/
theorem computes_one_iff (env : Env) (appRepoSecrets : List String) (cluster ns token : String)
    (authHandler : KubeHandler) :
    (∀ m m', Computes env appRepoSecrets cluster ns token authHandler m →
      Computes env appRepoSecrets cluster ns token authHandler m' → m = m') ↔
    OneMap env appRepoSecrets cluster ns token authHandler := by
  simp only [computes_iff]
  rcases registrySecretsPerDomain_cases env appRepoSecrets cluster ns token authHandler with
    ⟨client, hclient, hread, hmap⟩ | ⟨⟨err, herr⟩, hno⟩
  · have hentry : ∀ e : (_ : String) × String,
        e ∈ (Lib.fill (authsOf env client.clientset.config ns) id appRepoSecrets ∅).entries ↔
          LastSecret env client.clientset.config ns appRepoSecrets e.1 e.2 := fun e => by
      rw [← lookup_eq_some_iff_lastSecret, Finmap.lookup_eq_some_iff]
    have hiff := newDockerSecretsPostRenderer_iff
      (Lib.fill (authsOf env client.clientset.config ns) id appRepoSecrets ∅)
    simp only [hmap]
    constructor
    · intro h client' hclient' _ hparse server name server' name' hname hname' ds ds' hds hds' d hd hd'
      rw [hclient] at hclient'
      have hsame := Except.ok.inj hclient'
      subst hsame
      have hagree := hiff.mp (fun l l' hl hl' => h _ _ ⟨l, hl, rfl⟩ ⟨l', hl', rfl⟩) fun e he => by
        obtain ⟨before, after, hlist, hhas, _⟩ := (hentry e).mp he
        exact hparse e.2 (by rw [hlist]; simp) e.1 hhas
      exact hagree ⟨server, name⟩ ((hentry _).mpr hname) ⟨server', name'⟩ ((hentry _).mpr hname')
        d (by simpa [domainsOf, hds] using hd) (by simpa [domainsOf, hds'] using hd')
    · rintro h m m' ⟨l, hl, rfl⟩ ⟨l', hl', rfl⟩
      refine hiff.mpr (fun hparse a ha b hb d hda hdb => ?_) l l' hl hl'
      have hparse' : ∀ s ∈ appRepoSecrets, ∀ server,
          HasServer env client.clientset.config ns s server → serverDomains server ≠ none := by
        intro s hs server hhas
        obtain ⟨name, hname⟩ := exists_lastSecret hs hhas
        exact hparse ⟨server, name⟩ ((hentry _).mpr hname)
      obtain ⟨ds, hds⟩ := Option.ne_none_iff_exists'.mp (hparse a ha)
      obtain ⟨ds', hds'⟩ := Option.ne_none_iff_exists'.mp (hparse b hb)
      exact h client hclient hread hparse' a.1 a.2 b.1 b.2 ((hentry a).mp ha) ((hentry b).mp hb)
        ds ds' hds hds' d (by simpa [domainsOf, hds] using hda) (by simpa [domainsOf, hds'] using hdb)
  · simp only [herr]
    constructor
    · exact fun _ client hclient hread => absurd hread (hno client hclient)
    · rintro - m m' rfl rfl
      rfl

end Orders

/-- Two secrets for one registry, whose docker configs spell its server in two ways. -/
def twoSpellings : Env where
  getAppRepository _ _ _ := .error "not found"
  getSecret _ name _ := .ok ⟨name, "kubernetes.io/dockerconfigjson",
    (∅ : StringMap).insert ".dockerconfigjson" name⟩
  unmarshalDetails _ := .error "EOF"
  dockerAuths dockerConfig :=
    .ok [if dockerConfig = "old" then "registry.io" else "https://registry.io/v1/"]

theorem servers_twoSpellings :
    registrySecretsPerDomain twoSpellings ["old", "new"] "" "team" "token" (twoClusters "t") =
      .ok (((∅ : StringMap).insert "registry.io" "old").insert "https://registry.io/v1/" "new") := by
  decide

/-- The secret of the registry is the one that is visited last. -/
theorem two_maps_twoSpellings :
    ∃ m m' : DomainMap,
      Computes twoSpellings ["old", "new"] "" "team" "token" (twoClusters "t") (some m) ∧
      Computes twoSpellings ["old", "new"] "" "team" "token" (twoClusters "t") (some m') ∧
      m.lookup (bytes "registry.io") = some "new" ∧ m'.lookup (bytes "registry.io") = some "old" := by
  let host := bytes "registry.io"
  refine ⟨((∅ : DomainMap).insert host "old").insert host "new",
    ((∅ : DomainMap).insert host "new").insert host "old", ?_, ?_, by decide, by decide⟩
  · rw [computes_iff, servers_twoSpellings]
    exact ⟨[⟨"registry.io", "old"⟩, ⟨"https://registry.io/v1/", "new"⟩], by decide, by decide⟩
  · rw [computes_iff, servers_twoSpellings]
    exact ⟨[⟨"https://registry.io/v1/", "new"⟩, ⟨"registry.io", "old"⟩], by decide, by decide⟩

end Kubeapps.Kubeops
