/-
  The session of a user of the dashboard (src/dashboard/src/actions/auth.ts, reducers/auth.ts,
  shared/Auth.ts, shared/AxiosInstance.ts).

  A login with a token waits for its validation and the look for a cookie for its response; any
  other request may fail in between, which can end the session. With OIDC the session is ended by
  leaving the page for the sign-out URI, so that the store stays as it is. What a logout does to the
  namespaces and the clusters is in Clusters.lean.

  * `session_sound`: in every order of the events the page is shown as authenticated only with
    something to authenticate with or on its way out, and no token is kept that no server accepted.
  * `second_expiry`: a second response of this kind ends the OIDC session in the store as well.
-/
import Kubeapps.Lib.Steps
import Kubeapps.Lib.Text

namespace Kubeapps.Dashboard

open Kubeapps.Lib

/-- The two entries of the local storage. -/
structure AuthStorage where
  authToken : Option String
  authTokenOIDC : Option Bool
  deriving DecidableEq, Repr

/-- `IAuthState`. -/
structure AuthState where
  sessionExpired : Bool
  authenticated : Bool
  authenticating : Bool
  oidcAuthenticated : Bool
  authenticationError : Option String
  deriving DecidableEq, Repr

inductive AuthAction where
  | setAuthenticated (authenticated oidc : Bool)
  | authenticating
  | authenticationError (errorMsg : String)
  | setSessionExpired (sessionExpired : Bool)
  deriving DecidableEq, Repr

def authReducer (state : AuthState) : AuthAction → AuthState
  | .setAuthenticated authenticated oidc =>
      { state with
        authenticated := authenticated
        oidcAuthenticated := oidc
        authenticating := false }
  | .authenticating => { state with authenticated := false, authenticating := true }
  | .authenticationError errorMsg =>
      { state with authenticationError := some errorMsg, authenticating := false }
  | .setSessionExpired sessionExpired => { state with sessionExpired := sessionExpired }

/-! ## Responses -/

/-- The body of a response: a text, or an object with its `message`. -/
inductive ResponseData where
  | text (s : String)
  | json (message : Option String)
  deriving DecidableEq, Repr

structure AuthResponse where
  status : Nat
  data : ResponseData
  deriving DecidableEq, Repr

/-- What a request without interceptors ends in. An error may be without a response. -/
inductive LoginAnswer where
  | ok
  | error (response : Option AuthResponse)
  deriving DecidableEq, Repr

/-- An `AxiosError`. -/
structure AuthError where
  code : Option String
  message : String
  response : Option AuthResponse
  deriving DecidableEq, Repr

/-- The `message` of the data, if it is not empty. -/
def ResponseData.message? : ResponseData → Option String
  | .text _ => none
  | .json message => message.filter fun m => m ≠ ""

def is403FromAuthProxy (r : AuthResponse) : Bool :=
  match r.data with
  | .text s =>
      if s ≠ "" ∧ contains s "system:serviceaccount" = true then false else r.status = 403
  | .json _ => r.status = 403 ∧ r.data.message? = none

def isAnonymous (response : AuthResponse) : Bool :=
  match response.data, response.data.message? with
  | _, some m => contains m "system:anonymous"
  | .text s, none => contains s "system:anonymous"
  | .json _, none => false

/-- `none` where it throws, as it does without a response. -/
def isAuthenticatedWithCookie : LoginAnswer → Option Bool
  | .ok => some true
  | .error none => none
  | .error (some response) =>
      if response.status ≠ 403 then some false
      else if is403FromAuthProxy response then some false
      else some (!isAnonymous response)

/-- The text of a template literal. -/
def ResponseData.toText : ResponseData → String
  | .text s => s
  | .json _ => "[object Object]"

/-- The text of the error, if it throws. `typeError` is that of reading a field of `undefined`. -/
def validateToken (typeError : String) : LoginAnswer → Option String
  | .ok => none
  | .error none => some typeError
  | .error (some res) =>
      if res.status = 401 then some "Error: invalid token"
      else if res.status ≠ 403 then some s!"Error: {res.status}: {res.data.toText}"
      else none

/-- The message of an error in `addErrorHandling`. -/
def AuthError.text (err : AuthError) : String :=
  match err.response with
  | none => err.message
  | some response =>
      match response.data with
      | .text s => s
      | .json _ => response.data.message?.getD err.message

/-! ## The page -/

/-- A login with a token or the look for a cookie. `rejected` is one that threw. -/
inductive LoginCall where
  | validating (token : String)
  | checkingCookie
  | rejected
  | returned
  deriving DecidableEq, Repr

/-- `location` is where the page was sent. -/
structure Session where
  storage : AuthStorage
  store : AuthState
  location : Option String
  calls : List LoginCall
  deriving DecidableEq, Repr

/-- `failed` is a failing response to any request with interceptors. -/
inductive SessionEvent where
  | login (token : String)
  | checkCookie
  | answer (i : Nat) (a : LoginAnswer)
  | failed (err : AuthError)
  | logout
  | reload
  deriving DecidableEq, Repr

/-- `getAuthToken() || ""` is not empty. -/
def AuthStorage.HasToken (storage : AuthStorage) : Prop := storage.authToken.getD "" ≠ ""

instance (storage : AuthStorage) : Decidable storage.HasToken :=
  inferInstanceAs (Decidable (_ ≠ _))

def AuthStorage.usingOIDCToken (storage : AuthStorage) : Bool := storage.authTokenOIDC = some true

/-- A page that is loaded: `getInitialState`. -/
def Session.load (storage : AuthStorage) : Session where
  storage := storage
  store := {
    sessionExpired := false
    authenticated := decide storage.HasToken
    authenticating := false
    oidcAuthenticated := storage.usingOIDCToken
    authenticationError := none }
  location := none
  calls := []

namespace Session

def dispatch (s : Session) (action : AuthAction) : Session :=
  { s with store := authReducer s.store action }

def setAuthToken (s : Session) (token : String) (oidc : Bool) : Session :=
  { s with storage := {
      authToken := if token ≠ "" then some token else s.storage.authToken
      authTokenOIDC := some oidc } }

def unsetAuthToken (s : Session) : Session :=
  { s with storage := { s.storage with authToken := none } }

def unsetAuthCookie (oauthLogoutURI : String) (s : Session) : Session :=
  { s with
    storage := { s.storage with authTokenOIDC := none }
    location := some (if oauthLogoutURI ≠ "" then oauthLogoutURI else "/oauth2/sign_out") }

/-- `authenticate` once the token is validated, if it has to be. -/
def authenticated (s : Session) (token : String) (oidc : Bool) : Session :=
  let s := (s.setAuthToken token oidc).dispatch (.setAuthenticated true oidc)
  if oidc then s.dispatch (.setSessionExpired false) else s

section Page

variable (oauthLogoutURI typeError : String)

def logout (s : Session) : Session :=
  if s.storage.usingOIDCToken then s.unsetAuthCookie oauthLogoutURI
  else s.unsetAuthToken.dispatch (.setAuthenticated false false)

def expireSession (s : Session) : Session :=
  logout oauthLogoutURI
    (if s.storage.usingOIDCToken then s.dispatch (.setSessionExpired true) else s)

def dispatchErrorAndLogout (s : Session) (m : String) : Session :=
  expireSession oauthLogoutURI (s.dispatch (.authenticationError m))

/-- The interceptor of `addErrorHandling`, apart from the error that it rejects with. -/
def failed (s : Session) (err : AuthError) : Session :=
  -- without a response the OIDC token is no longer valid
  let s := if err.code = none ∧ err.message = "Network Error" ∧ err.response = none ∧
      s.storage.usingOIDCToken = true then expireSession oauthLogoutURI s else s
  match err.response with
  | none => s
  | some response =>
      if response.status = 401 then dispatchErrorAndLogout oauthLogoutURI s err.text
      else if response.status = 403 then
        if is403FromAuthProxy response ∨ isAnonymous response then
          dispatchErrorAndLogout oauthLogoutURI s err.text
        else s
      else s

/-- The call `i` has got its answer. -/
def answered (s : Session) (i : Nat) (call : LoginCall) : Session :=
  { s with calls := s.calls.set i call }

/-- The rest of `authenticate` for a token. -/
def validated (s : Session) (token : String) (a : LoginAnswer) : Session :=
  match validateToken typeError a with
  | none => s.authenticated token false
  | some errorMsg => s.dispatch (.authenticationError errorMsg)

/-- The rest of `checkCookieAuthentication`. -/
def cookieChecked (s : Session) (isAuthed : Bool) : Session :=
  if isAuthed then (s.dispatch .authenticating).authenticated "" true
  else s.dispatch (.setAuthenticated false false)

def step (s : Session) : SessionEvent → Option Session
  | .login token =>
      -- the form submits no empty token
      if token = "" then none
      else some { s.dispatch .authenticating with calls := s.calls ++ [.validating token] }
  | .checkCookie =>
      some { s.dispatch .authenticating with calls := s.calls ++ [.checkingCookie] }
  | .answer i a =>
      match s.calls[i]? with
      | some (.validating token) => some ((s.answered i .returned).validated typeError token a)
      | some .checkingCookie =>
          match isAuthenticatedWithCookie a with
          | none => some (s.answered i .rejected)
          | some isAuthed => some ((s.answered i .returned).cookieChecked isAuthed)
      | _ => none
  | .failed err => some (s.failed oauthLogoutURI err)
  | .logout => some (s.logout oauthLogoutURI)
  | .reload => some (load s.storage)

/-- A token that the event shows to be accepted by a server. -/
def acceptedToken (s : Session) : SessionEvent → Option String
  | .answer i a =>
      match s.calls[i]? with
      | some (.validating token) => if validateToken typeError a = none then some token else none
      | _ => none
  | _ => none

end Page

end Session

/-! ## What an event does -/

/-- What holds of the page after the events of a run, with the tokens that were accepted in it. -/
structure SessionInv (storage₀ : AuthStorage) (accepted : List String) (s : Session) : Prop where
  credentials : s.store.authenticated = true →
    s.storage.HasToken ∨ s.storage.usingOIDCToken = true ∨ s.location ≠ none
  expired : s.store.sessionExpired = true → s.location ≠ none
  token : ∀ t, s.storage.authToken = some t → storage₀.authToken = some t ∨ t ∈ accepted
  validating : ∀ t, .validating t ∈ s.calls → t ≠ ""
  authenticating : s.store.authenticating = true → ∃ c ∈ s.calls, c ≠ .returned

section Events

variable {oauthLogoutURI typeError : String} {storage₀ : AuthStorage} {accepted : List String}
  {s s' : Session}

open Session

theorem inv_load (storage : AuthStorage)
    (h : ∀ t, storage.authToken = some t → storage₀.authToken = some t ∨ t ∈ accepted) :
    SessionInv storage₀ accepted (load storage) where
  credentials ha := .inl (of_decide_eq_true ha)
  expired h := nomatch h
  token := h
  validating _ ht := absurd ht List.not_mem_nil
  authenticating h := nomatch h

theorem inv_accepted {more : List String} (h : SessionInv storage₀ accepted s) :
    SessionInv storage₀ (accepted ++ more) s :=
  { h with token := fun t ht => (h.token t ht).imp_right (List.mem_append_left more) }

theorem inv_authenticationError (h : SessionInv storage₀ accepted s) (m : String) :
    SessionInv storage₀ accepted (s.dispatch (.authenticationError m)) :=
  { h with authenticating := fun ha => nomatch ha }

/-- With a cookie the page is left, and nothing else in the store changes. -/
theorem inv_logout (h : SessionInv storage₀ accepted s) :
    SessionInv storage₀ accepted (s.logout oauthLogoutURI) := by
  unfold logout
  split
  · exact { h with
      credentials := fun _ => .inr (.inr (by simp [unsetAuthCookie]))
      expired := fun _ => by simp [unsetAuthCookie] }
  · exact { h with
      credentials := fun ha => nomatch ha
      token := fun t ht => nomatch ht
      authenticating := fun ha => nomatch ha }

/-- The session only expires on the way out. -/
theorem inv_expireSession (h : SessionInv storage₀ accepted s) :
    SessionInv storage₀ accepted (s.expireSession oauthLogoutURI) := by
  unfold expireSession
  split
  · rename_i hoidc
    unfold logout
    rw [if_pos (show (s.dispatch (.setSessionExpired true)).storage.usingOIDCToken = true from hoidc)]
    exact { h with
      credentials := fun _ => .inr (.inr (by simp [unsetAuthCookie]))
      expired := fun _ => by simp [unsetAuthCookie] }
  · exact inv_logout h

theorem inv_dispatchErrorAndLogout (h : SessionInv storage₀ accepted s) (m : String) :
    SessionInv storage₀ accepted (s.dispatchErrorAndLogout oauthLogoutURI m) :=
  inv_expireSession (inv_authenticationError h m)

theorem inv_failed (h : SessionInv storage₀ accepted s) (err : AuthError) :
    SessionInv storage₀ accepted (s.failed oauthLogoutURI err) := by
  have hnetwork : SessionInv storage₀ accepted
      (if err.code = none ∧ err.message = "Network Error" ∧ err.response = none ∧
        s.storage.usingOIDCToken = true then expireSession oauthLogoutURI s else s) := by
    split
    · exact inv_expireSession h
    · exact h
  unfold failed
  dsimp only
  split
  · exact hnetwork
  · split
    · exact inv_dispatchErrorAndLogout hnetwork _
    · split
      · split
        · exact inv_dispatchErrorAndLogout hnetwork _
        · exact hnetwork
      · exact hnetwork

/-- A call that begins. -/
theorem inv_called (h : SessionInv storage₀ accepted s) {call : LoginCall}
    (hcall : call ≠ .returned) (htoken : ∀ t, call = .validating t → t ≠ "") :
    SessionInv storage₀ accepted
      { s.dispatch .authenticating with calls := s.calls ++ [call] } where
  credentials ha := nomatch ha
  expired := h.expired
  token := h.token
  validating t ht := by
    rcases List.mem_append.mp ht with ht | ht
    · exact h.validating t ht
    · exact htoken t (List.mem_singleton.mp ht).symm
  authenticating _ := ⟨call, List.mem_append_right _ List.mem_cons_self, hcall⟩

theorem validating_answered {i : Nat} {call : LoginCall} (h : SessionInv storage₀ accepted s)
    (hcall : ∀ t, call ≠ .validating t) :
    ∀ t, .validating t ∈ (s.answered i call).calls → t ≠ "" := by
  intro t ht
  rcases List.mem_or_eq_of_mem_set ht with ht | ht
  · exact h.validating t ht
  · exact absurd ht.symm (hcall t)

/-- A login that failed, or found no cookie. -/
theorem inv_refused {i : Nat} {action : AuthAction} (h : SessionInv storage₀ accepted s)
    (haction : (∃ m, action = .authenticationError m) ∨ action = .setAuthenticated false false) :
    SessionInv storage₀ accepted ((s.answered i .returned).dispatch action) := by
  have hvalidating : ∀ t, .validating t ∈ (s.answered i .returned).calls → t ≠ "" :=
    validating_answered h fun t ht => nomatch ht
  rcases haction with ⟨m, rfl⟩ | rfl
  · exact ⟨h.credentials, h.expired, h.token, hvalidating, (nomatch ·)⟩
  · exact ⟨(nomatch ·), h.expired, h.token, hvalidating, (nomatch ·)⟩

theorem inv_tokenAccepted {i : Nat} {token : String} (h : SessionInv storage₀ accepted s)
    (htoken : token ≠ "") :
    SessionInv storage₀ (accepted ++ [token])
      ((s.answered i .returned).authenticated token false) where
  credentials _ := by
    left
    simp [authenticated, setAuthToken, dispatch, answered, AuthStorage.HasToken, htoken]
  expired := h.expired
  token t ht := by
    simp only [authenticated, setAuthToken, dispatch, answered, if_pos htoken] at ht
    exact .inr (List.mem_append_right _ (by simp [Option.some.inj ht]))
  validating := validating_answered h fun t ht => nomatch ht
  authenticating ha := nomatch ha

theorem inv_cookieFound {i : Nat} (h : SessionInv storage₀ accepted s) :
    SessionInv storage₀ accepted
      (((s.answered i .returned).dispatch .authenticating).authenticated "" true) where
  credentials _ := .inr (.inl rfl)
  expired ha := nomatch ha
  token := h.token
  validating := validating_answered h fun _ ht => nomatch ht
  authenticating ha := nomatch ha

theorem inv_rejected {i : Nat} {call : LoginCall} (h : SessionInv storage₀ accepted s)
    (hi : s.calls[i]? = some call) : SessionInv storage₀ accepted (s.answered i .rejected) where
  credentials := h.credentials
  expired := h.expired
  token := h.token
  validating := validating_answered h fun t ht => nomatch ht
  authenticating _ := by
    obtain ⟨hlt, _⟩ := List.getElem?_eq_some_iff.mp hi
    exact ⟨.rejected, List.mem_set hlt _, fun h => nomatch h⟩

theorem inv_step {e : SessionEvent} (h : SessionInv storage₀ accepted s)
    (hs : s.step oauthLogoutURI typeError e = some s') :
    SessionInv storage₀ (accepted ++ (s.acceptedToken typeError e).toList) s' := by
  cases e with
  | login token =>
      simp only [step] at hs
      split at hs
      · cases hs
      · rename_i htoken
        obtain rfl := Option.some.inj hs
        refine inv_accepted (inv_called h (fun hc => nomatch hc) fun t ht => ?_)
        cases ht
        exact htoken
  | checkCookie =>
      obtain rfl := Option.some.inj hs
      exact inv_accepted (inv_called h (fun hc => nomatch hc) fun t ht => nomatch ht)
  | answer i a =>
      simp only [step] at hs
      split at hs
      · rename_i token hi
        obtain rfl := Option.some.inj hs
        have htoken := h.validating token (List.mem_of_getElem? hi)
        simp only [acceptedToken, hi, validated]
        cases hvalid : validateToken typeError a with
        | none => exact inv_tokenAccepted h htoken
        | some m => exact inv_accepted (inv_refused h (.inl ⟨m, rfl⟩))
      · rename_i hi
        simp only [acceptedToken, hi]
        split at hs
        · obtain rfl := Option.some.inj hs
          exact inv_accepted (inv_rejected h hi)
        · rename_i isAuthed _
          obtain rfl := Option.some.inj hs
          cases isAuthed with
          | true => exact inv_accepted (inv_cookieFound h)
          | false => exact inv_accepted (inv_refused h (.inr rfl))
      · cases hs
  | failed err =>
      obtain rfl := Option.some.inj hs
      exact inv_accepted (inv_failed h err)
  | logout =>
      obtain rfl := Option.some.inj hs
      exact inv_accepted (inv_logout h)
  | reload =>
      obtain rfl := Option.some.inj hs
      exact inv_accepted (inv_load s.storage h.token)

/-- **The session of a page.** In every order of logins, answers, failing responses, logouts and
    reloads: the page is shown as authenticated only with a token or a cookie, or once it has been
    sent to the sign-out URI, and its session has expired only in the latter case. A token that is
    kept was there from the start or accepted by a server in the run. The page shows that a login is
    under way only as long as one is, or after the look for a cookie got no response. -/
theorem session_sound {ls : List SessionEvent}
    (hr : runs (step oauthLogoutURI typeError) (load storage₀) ls = some s) :
    (s.store.authenticated = true →
        s.storage.HasToken ∨ s.storage.usingOIDCToken = true ∨ s.location ≠ none) ∧
      (s.store.sessionExpired = true → s.location ≠ none) ∧
      (∀ t, s.storage.authToken = some t → storage₀.authToken = some t ∨
        t ∈ observed (step oauthLogoutURI typeError) (fun s e _ => s.acceptedToken typeError e)
          (load storage₀) ls) ∧
      (s.store.authenticating = true → ∃ c ∈ s.calls, c ≠ .returned) := by
  have hload : SessionInv storage₀ [] (load storage₀) := inv_load storage₀ fun t ht => .inl ht
  have hstep : ∀ accepted s e s', SessionInv storage₀ accepted s →
      step oauthLogoutURI typeError s e = some s' →
        SessionInv storage₀ (accepted ++ (s.acceptedToken typeError e).toList) s' :=
    fun accepted s e s' h hs => inv_step h hs
  have hrun := runs_observed hstep hr hload
  rw [List.nil_append] at hrun
  exact ⟨hrun.credentials, hrun.expired, hrun.token, hrun.authenticating⟩

/-- A login, a page that is loaded again, and a request that a proxy refuses. -/
theorem session_sound_login :
    ∃ s, runs (step "" "TypeError") (load ⟨none, none⟩)
        [.login "abc", .answer 0 (.error (some ⟨403, .json (some "forbidden")⟩)), .reload,
          .failed ⟨none, "refused", some ⟨401, .text ""⟩⟩, .login "def", .checkCookie,
          .answer 1 .ok, .failed ⟨none, "refused", some ⟨403, .text "<html>"⟩⟩] = some s ∧
      s.storage = ⟨none, none⟩ ∧ s.store.authenticated = true ∧
      (s.storage.HasToken ∨ s.storage.usingOIDCToken = true ∨ s.location ≠ none) := by
  obtain ⟨s, hr, hstorage, hauth⟩ : ∃ s, runs (step "" "TypeError") (load ⟨none, none⟩)
      [.login "abc", .answer 0 (.error (some ⟨403, .json (some "forbidden")⟩)), .reload,
        .failed ⟨none, "refused", some ⟨401, .text ""⟩⟩, .login "def", .checkCookie,
        .answer 1 .ok, .failed ⟨none, "refused", some ⟨403, .text "<html>"⟩⟩] = some s ∧
      s.storage = ⟨none, none⟩ ∧ s.store.authenticated = true := ⟨_, rfl, rfl, rfl⟩
  exact ⟨s, hr, hstorage, hauth, (session_sound hr).1 hauth⟩

end Events

/-! ## The end of an OIDC session -/

section Expiry

variable {oauthLogoutURI : String}

open Session

/-- A response after which `addErrorHandling` logs out. -/
def AuthResponse.Expired (r : AuthResponse) : Prop :=
  r.status = 401 ∨ r.status = 403 ∧ (is403FromAuthProxy r = true ∨ isAnonymous r = true)

theorem failed_of_expired {err : AuthError} {r : AuthResponse} (hr : err.response = some r)
    (hexpired : r.Expired) (s : Session) :
    s.failed oauthLogoutURI err = s.dispatchErrorAndLogout oauthLogoutURI err.text := by
  unfold failed
  simp only [hr, reduceCtorEq, false_and, and_false, if_false]
  rcases hexpired with h401 | ⟨h403, hproxy⟩
  · rw [if_pos h401]
  · have h401 : r.status ≠ 401 := by omega
    rw [if_neg h401, if_pos h403, if_pos hproxy]

/-- The first response of this kind sends the page away and leaves the store as it is, but for the
    error and the expiry. A second one, before the page is gone, takes the branch for tokens and
    ends the session in the store, which `logout` is to avoid for the redirect. -/
theorem second_expiry {s : Session} (hoidc : s.storage.usingOIDCToken = true)
    {err err' : AuthError} {r r' : AuthResponse} (hr : err.response = some r) (hexpired : r.Expired)
    (hr' : err'.response = some r') (hexpired' : r'.Expired) :
    let first := s.failed oauthLogoutURI err
    let second := first.failed oauthLogoutURI err'
    (first.location ≠ none ∧ first.store.authenticated = s.store.authenticated ∧
        first.store.sessionExpired = true) ∧
      second.location = first.location ∧ second.store.authenticated = false ∧
        second.store.oidcAuthenticated = false := by
  intro first second
  have hfirst : first = (((s.dispatch (.authenticationError err.text)).dispatch
      (.setSessionExpired true)).unsetAuthCookie oauthLogoutURI) := by
    have hstorage : (s.dispatch (.authenticationError err.text)).storage.usingOIDCToken = true :=
      hoidc
    simp only [first, failed_of_expired hr hexpired, dispatchErrorAndLogout, expireSession, hstorage,
      if_true, logout]
    exact if_pos hoidc
  have hoff : first.storage.usingOIDCToken = false := by
    rw [hfirst]
    rfl
  have hsecond : second = (first.dispatch (.authenticationError err'.text)).unsetAuthToken.dispatch
      (.setAuthenticated false false) := by
    have hstorage : (first.dispatch (.authenticationError err'.text)).storage.usingOIDCToken =
      false := hoff
    simp only [second, failed_of_expired hr' hexpired', dispatchErrorAndLogout, expireSession,
      hstorage, Bool.false_eq_true, if_false, logout]
  refine ⟨?_, ?_⟩
  · rw [hfirst]
    exact ⟨by simp [unsetAuthCookie], rfl, rfl⟩
  · rw [hsecond]
    exact ⟨rfl, rfl, rfl⟩

end Expiry

end Kubeapps.Dashboard
