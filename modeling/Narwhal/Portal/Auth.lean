import Mathlib.Data.List.Induction
import Narwhal.Lib.DoubleExact
import Narwhal.Lib.JsRecord
import Narwhal.Lib.SingleFlight

open jslib singleflight

namespace narwhal.portal.auth

inductive UserRole where
  | clusterAdmin | developer | viewer | guest
deriving DecidableEq

def UserRole.text : UserRole → Text
  | .clusterAdmin => "cluster-admin".toList
  | .developer => "developer".toList
  | .viewer => "viewer".toList
  | .guest => "guest".toList

inductive GroupClaimStatus where
  | ok | unknownGroups | noGroups
deriving DecidableEq

/-- The environment of the process, as far as the callbacks read it. -/
structure Env where
  /-- `AUTH_MOCK === "true"` -/
  AUTH_MOCK : Bool
  KEYCLOAK_ISSUER : Option Text
  KEYCLOAK_CLIENT_ID : Option Text

structure Account where
  id_token : Option Text
  refresh_token : Option Text
  access_token : Option Text
  expires_at : Option Double

structure RefreshedToken where
  access_token : Option Text
  expires_in : Double
  refresh_token : Option Text
  id_token : Option Text

/-- The token of a session. -/
structure Token where
  idToken : Option Text
  refreshToken : Option Text
  accessToken : Option Text
  expiresAt : Option Double
  error : Option Text
  groups : Option (List UserRole)
  groupClaimStatus : Option GroupClaimStatus
  teams : Option (List Text)

def Token.empty : Token := ⟨none, none, none, none, none, none, none, none⟩

structure Session where
  groups : List UserRole
  teams : List Text
  role : UserRole
  groupClaimStatus : GroupClaimStatus
  idToken : Option Text
  error : Option Text

/-- A call of the `jwt` callback: with a profile at a sign-in, without one at a request. The refresh, where
    there is one, ends at the later time. -/
structure Call where
  profile : Option Json
  user : Option Json
  account : Option Account
  now : Int
  later : Int
  refreshed : Except Text RefreshedToken

inductive RoleError where
  | unauthorized | forbidden
deriving DecidableEq

/-! ### Groups -/

def ALLOWED_GROUPS : List UserRole := [.clusterAdmin, .developer, .viewer, .guest]

/-- The role that a group is the name of. -/
def roleOf (group : Text) : Option UserRole := ALLOWED_GROUPS.find? fun role => role.text = group

/-- The strings of an array. -/
def strings : Option Json → List Text
  | some (.arr items) => items.filterMap Json.string
  | _ => []

def sanitizeGroups (input : Option Json) : List UserRole := (strings input).filterMap roleOf

def unknownGroups (input : Option Json) : List Text := (strings input).filter fun g => (roleOf g).isNone

def classifyGroupClaim (input : Option Json) : GroupClaimStatus :=
  match input with
  | some (.arr items) =>
    if items = [] then .noGroups else if 0 < (unknownGroups input).length then .unknownGroups else .ok
  | _ => .noGroups

/-- `TEAM_GROUP_RE`: `/^[a-zA-Z0-9_-]{1,64}$/` -/
def isTeamGroup (s : Text) : Bool :=
  s.all (fun c => isDigit c || ('a' ≤ c && c ≤ 'z') || ('A' ≤ c && c ≤ 'Z') || c = '_' || c = '-') ∧ 1 ≤ s.length ∧ s.length ≤ 64

def sanitizeTeamGroups (input : Option Json) : List Text :=
  (strings input).filter fun g => isTeamGroup g ∧ (roleOf g).isNone

def getRoleFromGroups (groups : List UserRole) : UserRole :=
  if groups.contains .clusterAdmin then .clusterAdmin
  else if groups.contains .developer then .developer
  else if groups.contains .viewer then .viewer
  else .guest

/-! ### Callbacks -/

def truthy (s : Option Text) : Option Text := s.filter fun s => s ≠ []

def validateIssuerAudience (env : Env) (profile : Json) : Bool :=
  if env.AUTH_MOCK then true
  else
    match truthy env.KEYCLOAK_ISSUER, truthy env.KEYCLOAK_CLIENT_ID with
    | some expectedIssuer, some expectedAudience =>
      if profile.getString "iss".toList ≠ some expectedIssuer then false
      else
        match profile.get "aud".toList with
        | some (.str aud) => aud = expectedAudience
        | aud => (strings aud).contains expectedAudience
    | _, _ => false

/-- What a sign-in leaves in the token. -/
def storeAccount (token : Token) (account : Option Account) : Token :=
  match account with
  | none => token
  | some account =>
    let token := match truthy account.id_token with
      | some id_token => { token with idToken := some id_token }
      | none => token
    match truthy account.refresh_token with
    | some refresh_token =>
      { token with refreshToken := some refresh_token, accessToken := account.access_token, expiresAt := account.expires_at }
    | none => token

/-- `Date.now() >= expiresAt * 1000 - 60_000` -/
def isDue (expiresAt : Double) (now : Int) : Bool :=
  (Double.finite now).ge ((expiresAt.mul (.finite 1000)).sub (.finite 60000))

/-- The access token is refreshed a minute before it expires. -/
def keepAlive (env : Env) (call : Call) (token : Token) : Token :=
  if ¬ env.AUTH_MOCK ∧ (truthy token.refreshToken).isSome ∧ token.expiresAt.any (isDue · call.now) then
    match call.refreshed with
    | .ok r =>
      { token with
        accessToken := r.access_token
        expiresAt := some ((Double.finite ⌊roundDouble (call.later / 1000)⌋).add r.expires_in)
        refreshToken := (truthy r.refresh_token).or token.refreshToken
        idToken := (truthy r.id_token).or token.idToken
        error := none }
    | .error _ => { token with error := some "RefreshTokenError".toList }
  else token

def Call.isRejected (env : Env) (call : Call) : Bool :=
  call.profile.any fun p => ¬ env.AUTH_MOCK ∧ ¬ validateIssuerAudience env p

/-- The groups claim: that of the profile, else that of the user. -/
def Call.rawGroups (call : Call) : Option Json :=
  (call.profile.bind (·.get "groups".toList)).or (call.user.bind (·.get "groups".toList))

def storeGroups (call : Call) (token : Token) : Token :=
  match call.rawGroups with
  | some rawGroups =>
    { token with groups := some (sanitizeGroups rawGroups), groupClaimStatus := some (classifyGroupClaim rawGroups) }
  | none => token

def storeTeams (call : Call) (token : Token) : Token :=
  let token := match call.profile.bind (·.get "groups".toList) with
    | some groups => { token with teams := some (sanitizeTeamGroups groups) }
    | none => token
  match call.user.bind (·.get "teams".toList) with
  | some teams => { token with teams := some (sanitizeTeamGroups teams) }
  | none => token

/-- A token without a group is a guest's. -/
def defaultToGuest (token : Token) : Token :=
  if token.groups.getD [] = [] then
    { token with groups := some [.guest], groupClaimStatus := token.groupClaimStatus.or (some .noGroups) }
  else token

def jwt (env : Env) (token : Token) (call : Call) : Token :=
  let token := keepAlive env call (storeAccount token call.account)
  if call.isRejected env then { token with groups := some [.guest] }
  else defaultToGuest (storeTeams call (storeGroups call token))

def session (token : Token) : Session :=
  let groups := token.groups.getD []
  let safeGroups := if groups = [] then [.guest] else groups
  { groups := safeGroups
    teams := token.teams.getD []
    role := getRoleFromGroups safeGroups
    groupClaimStatus := token.groupClaimStatus.getD .noGroups
    idToken := token.idToken
    error := truthy token.error }

def requireRole (roles : List UserRole) (session : Option Session) : Except RoleError Session :=
  match session with
  | none => .error .unauthorized
  | some session => if roles.contains session.role then .ok session else .error .forbidden

/-- The token of a session after these calls. -/
def run (env : Env) (calls : List Call) : Token := calls.foldl (jwt env) Token.empty

/-! ### What was claimed -/

/-- The groups that a call claims, where it claims any: a profile that is rejected claims none of them. -/
def Call.claims (env : Env) (call : Call) : Option (List Text) :=
  if call.isRejected env then some [] else call.rawGroups.map fun groups => strings (some groups)

/-- The last claim of a session. -/
def claimed (env : Env) (calls : List Call) : List Text := (calls.reverse.findSome? (Call.claims env)).getD []

/-- The teams that a call may give. -/
def Call.teams (env : Env) (call : Call) : List Text :=
  if call.isRejected env then []
  else strings (call.profile.bind (·.get "groups".toList)) ++ strings (call.user.bind (·.get "teams".toList))

/-- The role is claimed, and no greater one. -/
def IsGreatest (claims : List Text) : UserRole → Prop
  | .clusterAdmin => UserRole.clusterAdmin.text ∈ claims
  | .developer => UserRole.developer.text ∈ claims ∧ UserRole.clusterAdmin.text ∉ claims
  | .viewer => UserRole.viewer.text ∈ claims ∧ UserRole.developer.text ∉ claims ∧ UserRole.clusterAdmin.text ∉ claims
  | .guest => UserRole.viewer.text ∉ claims ∧ UserRole.developer.text ∉ claims ∧ UserRole.clusterAdmin.text ∉ claims

theorem roleOf_eq_some_iff {group : Text} {role : UserRole} : roleOf group = some role ↔ group = role.text := by
  constructor
  · intro h
    unfold roleOf at h
    have htext := List.find?_some h
    exact (of_decide_eq_true htext).symm
  · rintro rfl
    cases role <;> rfl

theorem mem_filterMap_roleOf {claims : List Text} {role : UserRole} : role ∈ claims.filterMap roleOf ↔ role.text ∈ claims := by
  simp [List.mem_filterMap, roleOf_eq_some_iff]

theorem isGreatest_iff (claims : List Text) (role : UserRole) :
    getRoleFromGroups (claims.filterMap roleOf) = role ↔ IsGreatest claims role := by
  unfold getRoleFromGroups
  simp only [List.contains_iff_mem, mem_filterMap_roleOf]
  split_ifs with hadmin hdeveloper hviewer <;> cases role <;> simp_all [IsGreatest]

/-! ### Runs -/

theorem run_append (env : Env) (calls : List Call) (call : Call) : run env (calls ++ [call]) = jwt env (run env calls) call := by
  rw [run, List.foldl_append]
  rfl

theorem claimed_append (env : Env) (calls : List Call) (call : Call) :
    claimed env (calls ++ [call]) = (call.claims env).getD (claimed env calls) := by
  rw [claimed, List.reverse_append, List.reverse_singleton, List.singleton_append, List.findSome?_cons]
  cases call.claims env <;> rfl

/-- The groups of a session that has this token. -/
def Token.safeGroups (token : Token) : List UserRole :=
  if token.groups.getD [] = [] then [.guest] else token.groups.getD []

@[simp] theorem groups_storeAccount (token : Token) (account : Option Account) :
    (storeAccount token account).groups = token.groups := by
  unfold storeAccount
  split
  · rfl
  · dsimp only
    split <;> split <;> rfl

@[simp] theorem teams_storeAccount (token : Token) (account : Option Account) :
    (storeAccount token account).teams = token.teams := by
  unfold storeAccount
  split
  · rfl
  · dsimp only
    split <;> split <;> rfl

@[simp] theorem groups_keepAlive (env : Env) (call : Call) (token : Token) :
    (keepAlive env call token).groups = token.groups := by
  unfold keepAlive
  split_ifs
  · split <;> rfl
  · rfl

@[simp] theorem teams_keepAlive (env : Env) (call : Call) (token : Token) :
    (keepAlive env call token).teams = token.teams := by
  unfold keepAlive
  split_ifs
  · split <;> rfl
  · rfl

@[simp] theorem groups_storeTeams (call : Call) (token : Token) : (storeTeams call token).groups = token.groups := by
  unfold storeTeams
  dsimp only
  split <;> split <;> rfl

@[simp] theorem teams_storeGroups (call : Call) (token : Token) : (storeGroups call token).teams = token.teams := by
  unfold storeGroups
  split <;> rfl

@[simp] theorem teams_defaultToGuest (token : Token) : (defaultToGuest token).teams = token.teams := by
  unfold defaultToGuest
  split_ifs <;> rfl

@[simp] theorem safeGroups_defaultToGuest (token : Token) : (defaultToGuest token).safeGroups = token.safeGroups := by
  unfold defaultToGuest
  split_ifs with hnil
  · simp [Token.safeGroups, hnil]
  · rfl

theorem safeGroups_congr {token token' : Token} (h : token.groups = token'.groups) : token.safeGroups = token'.safeGroups := by
  rw [Token.safeGroups, Token.safeGroups, h]

/-- The groups that a session has by these claims. -/
def groupsOf (claims : List Text) : List UserRole :=
  if claims.filterMap roleOf = [] then [.guest] else claims.filterMap roleOf

theorem getRoleFromGroups_groupsOf (claims : List Text) :
    getRoleFromGroups (groupsOf claims) = getRoleFromGroups (claims.filterMap roleOf) := by
  unfold groupsOf
  split_ifs with hnil
  · rw [hnil]
    rfl
  · rfl

/-- The claims of a call decide its groups, and without claims they stay. -/
theorem safeGroups_jwt (env : Env) (token : Token) (call : Call) :
    (jwt env token call).safeGroups = ((call.claims env).map groupsOf).getD token.safeGroups := by
  unfold jwt Call.claims
  dsimp only
  split_ifs with hrejected
  · rfl
  · rw [safeGroups_defaultToGuest, safeGroups_congr (groups_storeTeams call _)]
    unfold storeGroups
    split
    · rename_i rawGroups hraw
      rw [hraw]
      rfl
    · rename_i hraw
      rw [hraw]
      exact safeGroups_congr (by simp)

theorem safeGroups_run (env : Env) (calls : List Call) : (run env calls).safeGroups = groupsOf (claimed env calls) := by
  induction calls using List.reverseRecOn with
  | nil => rfl
  | append_singleton calls call ih =>
    rw [run_append, safeGroups_jwt, claimed_append, ih]
    cases call.claims env <;> rfl

theorem role_run_iff (env : Env) (calls : List Call) (role : UserRole) :
    (session (run env calls)).role = role ↔ IsGreatest (claimed env calls) role := by
  have hrole : (session (run env calls)).role = getRoleFromGroups (run env calls).safeGroups := rfl
  rw [hrole, safeGroups_run, getRoleFromGroups_groupsOf, isGreatest_iff]

/-- Whatever the sign-ins and requests of a session were, a gate lets it pass exactly for the greatest role
    among the groups that it claimed last, with a profile of the expected issuer and audience. -/
theorem requireRole_iff (env : Env) (calls : List Call) (roles : List UserRole) :
    (∃ s, requireRole roles (some (session (run env calls))) = .ok s) ↔ ∃ role ∈ roles, IsGreatest (claimed env calls) role := by
  have hgate : (∃ s, requireRole roles (some (session (run env calls))) = .ok s) ↔ (session (run env calls)).role ∈ roles := by
    unfold requireRole
    dsimp only
    split_ifs with hrole
    · exact iff_of_true ⟨_, rfl⟩ (List.contains_iff_mem.mp hrole)
    · refine iff_of_false ?_ fun h => hrole (List.contains_iff_mem.mpr h)
      rintro ⟨s, h⟩
      cases h
  rw [hgate]
  constructor
  · exact fun h => ⟨_, h, (role_run_iff env calls _).mp rfl⟩
  · rintro ⟨role, hrole, hgreatest⟩
    rwa [(role_run_iff env calls role).mpr hgreatest]

theorem mem_sanitizeTeamGroups {input : Option Json} {team : Text} :
    team ∈ sanitizeTeamGroups input ↔ team ∈ strings input ∧ isTeamGroup team = true ∧ roleOf team = none := by
  simp [sanitizeTeamGroups]

theorem teams_jwt {env : Env} {token : Token} {call : Call} {team : Text} (h : team ∈ ((jwt env token call).teams).getD []) :
    team ∈ token.teams.getD [] ∨ team ∈ call.teams env ∧ isTeamGroup team = true ∧ roleOf team = none := by
  unfold jwt at h
  dsimp only at h
  unfold Call.teams
  split_ifs at h ⊢ with hrejected
  · left
    simpa using h
  · rw [teams_defaultToGuest, List.mem_append] at *
    unfold storeTeams at h
    dsimp only at h
    split at h
    · rename_i teams hteams
      rw [hteams]
      right
      obtain ⟨hmem, hok⟩ := mem_sanitizeTeamGroups.mp h
      exact ⟨.inr hmem, hok⟩
    · split at h
      · rename_i groups hgroups
        rw [hgroups]
        right
        obtain ⟨hmem, hok⟩ := mem_sanitizeTeamGroups.mp h
        exact ⟨.inl hmem, hok⟩
      · left
        simpa using h

/-- Every team of a session is a group that one of its sign-ins claimed, and never the name of a role. -/
theorem teams_claimed (env : Env) (calls : List Call) :
    ∀ team ∈ (session (run env calls)).teams, isTeamGroup team = true ∧ roleOf team = none ∧
      ∃ call ∈ calls, team ∈ call.teams env := by
  have hteams : (session (run env calls)).teams = (run env calls).teams.getD [] := rfl
  rw [hteams]
  induction calls using List.reverseRecOn with
  | nil => exact List.forall_mem_nil _
  | append_singleton calls call ih =>
    intro team hteam
    rw [run_append] at hteam
    obtain hold | ⟨hnew, hok⟩ := teams_jwt hteam
    · obtain ⟨hgroup, hrole, earlier, hearlier, hclaimed⟩ := ih rfl team hold
      exact ⟨hgroup, hrole, earlier, List.mem_append_left _ hearlier, hclaimed⟩
    · exact ⟨hok.1, hok.2, call, List.mem_append_right _ List.mem_cons_self, hnew⟩

def sampleEnv : Env := ⟨false, some "https://id/realms/narwhal".toList, some "portal".toList⟩

/-- A call with a profile of an issuer and its groups. -/
def profileCall (iss : String) (groups : List String) : Call where
  profile := some (.obj [("iss".toList, .str iss.toList), ("aud".toList, .arr [.str "account".toList, .str "portal".toList]),
    ("groups".toList, .arr (groups.map fun group => .str group.toList))])
  user := none
  account := none
  now := 0
  later := 0
  refreshed := .error []

/-- A request of a session, without a profile. -/
def requestCall : Call := ⟨none, none, none, 0, 0, .error []⟩

/-- A sign-in with a team, a role and a name that is not a team's, a request, and a profile of another issuer. -/
def teamCalls : List Call := [profileCall "https://id/realms/narwhal" ["platform", "viewer", "on call"], requestCall,
  profileCall "https://other/realms/narwhal" ["payments"]]

/-- The team of the sign-in is kept, and that of the rejected profile is not taken. -/
theorem teams_claimed_sample : (session (run sampleEnv teamCalls)).teams = ["platform".toList] ∧
    isTeamGroup "platform".toList = true ∧ roleOf "platform".toList = none ∧
    ∃ call ∈ teamCalls, "platform".toList ∈ call.teams sampleEnv := by
  have hteams : (session (run sampleEnv teamCalls)).teams = ["platform".toList] := by decide +kernel
  have hmem : "platform".toList ∈ (session (run sampleEnv teamCalls)).teams := by
    rw [hteams]
    exact List.mem_cons_self
  exact ⟨hteams, teams_claimed sampleEnv teamCalls "platform".toList hmem⟩

/-! ### Refreshes -/

/-- `refreshKeycloakToken`: the slots are those of `inflightRefresh`, one for each refresh token. The answer is
    `none` where the request fails. -/
def refreshKeycloakToken (ι : Type) : Scheme ι (Option RefreshedToken) RefreshedToken where
  place := .around .run
  looks _ := false
  work answer _ := answer
  accepts _ := true
  keeps _ := false
  live _ _ _ _ := false

section

variable {ι : Type} [DecidableEq ι]

/-- In one process, no refresh token is posted again while its request is in flight, and who asks for a refresh
    is given what a request with its own refresh token was answered, one that had not ended before. -/
theorem refreshes_shared {s : State ι Text (Option RefreshedToken) RefreshedToken}
    (h : Reachable (refreshKeycloakToken ι) s) :
    (∀ r r' run run', s.runs r = some run → s.runs r' = some run' → r ≠ r' → run.process = run'.process →
      Before run run' ∨ Before run' run) ∧
    ∀ c call token, s.calls c = some call → call.result = some token →
      ∃ m ∈ s.made, m.input = some token ∧ Fresh s call m := by
  refine ⟨h.apart, ?_⟩
  intro c call token hcall hresult
  obtain ⟨m, hm, rfl, hfresh⟩ | ⟨entry, time, since, hfound, _⟩ := h.result hcall hresult
  · exact ⟨m, hm.1, hm.2.1, hfresh⟩
  · cases hfound.live

end

def sampleToken : RefreshedToken := ⟨some ['a'], .finite 300, some ['s'], none⟩

/-- Two callers with one refresh token, and one with another. -/
def sampleEvents : List (Event Nat Text (Option RefreshedToken)) := [.call 0 ['r'], .arrive 0, .call 1 ['r'], .arrive 1,
  .call 2 ['q'], .arrive 2, .work 2 none, .work 0 (some sampleToken), .settle 0, .wake 1, .settle 2, .wake 2, .wake 0]

def sampleState : State Nat Text (Option RefreshedToken) RefreshedToken :=
  ((State.initial Nat Text (Option RefreshedToken) RefreshedToken).run (refreshKeycloakToken Nat) sampleEvents).getD
    (State.initial _ _ _ _)

theorem refreshes_shared_sample :
    (∀ r r' run run', sampleState.runs r = some run → sampleState.runs r' = some run' → r ≠ r' →
      run.process = run'.process → Before run run' ∨ Before run' run) ∧
    ∀ c call token, sampleState.calls c = some call → call.result = some token →
      ∃ m ∈ sampleState.made, m.input = some token ∧ Fresh sampleState call m :=
  refreshes_shared ⟨sampleEvents, rfl⟩

end narwhal.portal.auth
