import NodeOs.Noded.Config

/-!
# The authorization middleware

Every request of the management API goes through `authorize`. The middleware
counts requests, writes an audit event, and calls the handler or answers 403.
`Allowed` says in terms of the policy alone which requests go through.
-/

namespace NodeOs.Noded.Authorization

/-- `Iterator::max_by_key`: of several largest elements the last one. -/
def maxByKey {Item : Type} (key : Item → Nat) : List Item → Option Item
  | [] => none
  | item :: items => some (items.foldl (fun best next =>
      if key best ≤ key next then next else best) item)

def roleFor (policy : AuthorizationConfig) (commonName : String) : Option Role :=
  maxByKey Role.level
    ((policy.roles.filter fun binding => binding.subjects.any (· == commonName)).map
      RoleBinding.role)

inductive Method where
  | get
  | put
  | post
  | delete
  | head
  | options
  | connect
  | patch
  | trace
  | extension (name : String)
  deriving DecidableEq, Repr

structure ClientIdentity where
  commonName : Option String
  deriving DecidableEq, Repr

/-- `identity` is the request extension, which may be missing. -/
structure Request where
  method : Method
  path : String
  identity : Option ClientIdentity
  body : List UInt8
  deriving DecidableEq, Repr

structure Response where
  status : Nat
  body : String
  deriving DecidableEq, Repr

structure AuditEvent where
  requestId : Nat
  subject : String
  method : Method
  resource : String
  required : Option Role
  granted : Option Role
  decision : String
  reason : String
  deriving DecidableEq, Repr

/-- `nextRequestId` is the counter `REQUEST_ID`. -/
structure Server (State : Type) where
  nextRequestId : UInt64
  audit : List AuditEvent
  handler : State

abbrev Handler (State : Type) := Request → State → Response × State

/-- Routes without a rule need the most privileged role. -/
def requiredRole (method : Method) (path : String) : Option Role :=
  match method, path with
  | .get, "/v1/healthz" => none
  | .get, "/v1/status" => some .viewer
  | .put, "/v1/config" => some .operator
  | _, _ => some .breakglass

def judge (required granted : Option Role) : Bool × String :=
  match required with
  | none => (true, "no role required")
  | some required =>
      match granted with
      | some role =>
          if role.satisfies required then (true, "authorized") else (false, "insufficient role")
      | none => (false, "no role assigned to subject")

def Request.subject (request : Request) : Option String :=
  (request.identity.getD ⟨none⟩).commonName

def granted (policy : AuthorizationConfig) (request : Request) : Option Role :=
  request.subject.bind (roleFor policy)

def forbidden : Response := ⟨403, "forbidden: insufficient authorization"⟩

def authorize {State : Type} (policy : AuthorizationConfig) (next : Handler State)
    (request : Request) (server : Server State) : Response × Server State :=
  let required := requiredRole request.method request.path
  let (allowed, reason) := judge required (granted policy request)
  let event : AuditEvent :=
    { requestId := server.nextRequestId.toNat
      subject := request.subject.getD "<none>"
      method := request.method
      resource := request.path
      required := required
      granted := granted policy request
      decision := if allowed then "allow" else "deny"
      reason := reason }
  let server := { server with
    nextRequestId := server.nextRequestId + 1
    audit := server.audit ++ [event] }
  if allowed then
    let (response, handler) := next request server.handler
    (response, { server with handler })
  else (forbidden, server)

/-- Some binding gives the role to the name. -/
def Binds (policy : AuthorizationConfig) (role : Role) (name : String) : Prop :=
  ∃ binding ∈ policy.roles, binding.role = role ∧ name ∈ binding.subjects

/-- The role a route asks for, with the exempt route left out. -/
def requirement (method : Method) (path : String) : Role :=
  if method = .get ∧ path = "/v1/status" then .viewer
  else if method = .put ∧ path = "/v1/config" then .operator
  else .breakglass

def Allowed (policy : AuthorizationConfig) (request : Request) : Prop :=
  (request.method = .get ∧ request.path = "/v1/healthz") ∨
    ∃ name role, request.subject = some name ∧ Binds policy role name ∧
      (requirement request.method request.path).level ≤ role.level

/-- The response and the handler's state are those of the handler. -/
def PassesOn (policy : AuthorizationConfig) (request : Request) : Prop :=
  ∀ {State : Type} (next : Handler State) (server : Server State),
    (authorize policy next request server).1 = (next request server.handler).1 ∧
      (authorize policy next request server).2.handler = (next request server.handler).2

/-- The fold keeps an item of the list, and never a smaller one. -/
theorem fold_keeps_largest {Item : Type} (key : Item → Nat) (items : List Item) (start : Item) :
    let best := items.foldl (fun best next => if key best ≤ key next then next else best) start
    best ∈ start :: items ∧ ∀ item ∈ start :: items, key item ≤ key best := by
  induction items generalizing start with
  | nil => simp
  | cons next items ih =>
      simp only [List.foldl_cons]
      by_cases larger : key start ≤ key next
      · obtain ⟨member, above⟩ := ih next
        rw [if_pos larger]
        refine ⟨List.mem_cons_of_mem _ member, ?_⟩
        intro item inside
        rcases List.mem_cons.mp inside with rfl | later
        · exact Nat.le_trans larger (above next (by simp))
        · exact above item later
      · obtain ⟨member, above⟩ := ih start
        rw [if_neg larger]
        refine ⟨?_, ?_⟩
        · rcases List.mem_cons.mp member with same | later
          · rw [same]
            simp
          · exact List.mem_cons_of_mem _ (List.mem_cons_of_mem _ later)
        · intro item inside
          rcases List.mem_cons.mp inside with rfl | later
          · exact above item (by simp)
          rcases List.mem_cons.mp later with rfl | deeper
          · exact Nat.le_trans (Nat.le_of_not_le larger) (above start (by simp))
          · exact above item (List.mem_cons_of_mem _ deeper)

theorem max_by_key_some {Item : Type} (key : Item → Nat) {items : List Item} {best : Item}
    (found : maxByKey key items = some best) :
    best ∈ items ∧ ∀ item ∈ items, key item ≤ key best := by
  cases items with
  | nil => cases found
  | cons item items =>
      rw [← Option.some.inj found]
      exact fold_keeps_largest key items item

theorem max_by_key_of_mem {Item : Type} (key : Item → Nat) {items : List Item} {item : Item}
    (member : item ∈ items) : ∃ best, maxByKey key items = some best := by
  cases items with
  | nil => cases member
  | cons first items => exact ⟨_, rfl⟩

theorem mem_bound_roles (policy : AuthorizationConfig) (name : String) (role : Role) :
    role ∈ (policy.roles.filter fun binding => binding.subjects.any (· == name)).map
      RoleBinding.role ↔ Binds policy role name := by
  simp [Binds, List.mem_map, List.mem_filter, and_assoc, and_comm]

/-- The highest role of a name satisfies a requirement as soon as any of its
roles does. -/
theorem role_for_satisfies_iff (policy : AuthorizationConfig) (name : String) (required : Role) :
    (∃ role, roleFor policy name = some role ∧ role.satisfies required = true) ↔
      ∃ role, Binds policy role name ∧ required.level ≤ role.level := by
  constructor
  · rintro ⟨role, found, enough⟩
    obtain ⟨member, -⟩ := max_by_key_some Role.level found
    exact ⟨role, (mem_bound_roles policy name role).mp member,
      by simpa [Role.satisfies] using enough⟩
  · rintro ⟨role, bound, enough⟩
    have member := (mem_bound_roles policy name role).mpr bound
    obtain ⟨best, found⟩ := max_by_key_of_mem Role.level member
    have above := (max_by_key_some Role.level found).2 role member
    exact ⟨best, found, by simpa [Role.satisfies] using Nat.le_trans enough above⟩

theorem judge_allows_iff (required granted : Option Role) :
    (judge required granted).1 = true ↔
      ∀ role, required = some role → ∃ held, granted = some held ∧ held.satisfies role = true := by
  cases required with
  | none => simp [judge]
  | some role =>
      cases granted with
      | none => simp [judge]
      | some held => cases enough : held.satisfies role <;> simp [judge, enough]

theorem required_role_eq (method : Method) (path : String) :
    requiredRole method path =
      if method = .get ∧ path = "/v1/healthz" then none else some (requirement method path) := by
  unfold requiredRole requirement
  split
  · simp
  · simp
  · simp
  · rename_i noHealth noStatus noConfig
    rw [if_neg (fun both => noHealth both.1 both.2), if_neg (fun both => noStatus both.1 both.2),
      if_neg (fun both => noConfig both.1 both.2)]

/-- The verdict of the four functions is the reference relation. -/
theorem judge_allowed_iff (policy : AuthorizationConfig) (request : Request) :
    (judge (requiredRole request.method request.path) (granted policy request)).1 = true ↔
      Allowed policy request := by
  rw [judge_allows_iff, required_role_eq]
  by_cases exempt : request.method = .get ∧ request.path = "/v1/healthz"
  · simp [Allowed, exempt]
  · have needed : Allowed policy request ↔ ∃ name, request.subject = some name ∧
        ∃ role, Binds policy role name ∧
          (requirement request.method request.path).level ≤ role.level := by
      simp [Allowed, exempt]
    simp only [exempt, if_false, Option.some.injEq, forall_eq', granted, Option.bind_eq_some_iff,
      needed, ← role_for_satisfies_iff]
    constructor
    · rintro ⟨held, ⟨name, subject, found⟩, enough⟩
      exact ⟨name, subject, held, found, enough⟩
    · rintro ⟨name, subject, held, found, enough⟩
      exact ⟨held, ⟨name, subject, found⟩, enough⟩

section Decision

variable {State : Type} (policy : AuthorizationConfig) (request : Request)

theorem authorize_allowed (allowed : Allowed policy request) (next : Handler State)
    (server : Server State) :
    (authorize policy next request server).1 = (next request server.handler).1 ∧
      (authorize policy next request server).2.handler = (next request server.handler).2 := by
  have verdict := (judge_allowed_iff policy request).mpr allowed
  simp [authorize, verdict]

theorem authorize_denied (denied : ¬Allowed policy request) (next : Handler State)
    (server : Server State) :
    (authorize policy next request server).1 = forbidden ∧
      (authorize policy next request server).2.handler = server.handler := by
  have verdict := (judge_allowed_iff policy request).not.mpr denied
  simp [authorize, verdict]

theorem passes_on_iff : PassesOn policy request ↔ Allowed policy request := by
  constructor
  · intro passes
    by_contra denied
    -- A handler that answers 200 shows that a denied request has not reached it.
    have answered := (passes (fun _ state => (⟨200, ""⟩, state) : Handler Unit) ⟨0, [], ()⟩).1
    rw [(authorize_denied policy request denied _ _).1] at answered
    cases answered
  · exact fun allowed _ => authorize_allowed policy request allowed

end Decision

section Policies

variable {policy other : AuthorizationConfig} {request : Request}

/-- A policy is no more than the roles it gives to names. -/
theorem allowed_of_binds (covers : ∀ role name, Binds policy role name → Binds other role name)
    (allowed : Allowed policy request) : Allowed other request := by
  rcases allowed with exempt | ⟨name, role, subject, bound, enough⟩
  · exact Or.inl exempt
  · exact Or.inr ⟨name, role, subject, covers role name bound, enough⟩

theorem binds_insert (front back : List RoleBinding) (binding : RoleBinding) (role : Role)
    (name : String) (bound : Binds ⟨front ++ back⟩ role name) :
    Binds ⟨front ++ binding :: back⟩ role name := by
  obtain ⟨found, member, same, listed⟩ := bound
  refine ⟨found, ?_, same, listed⟩
  rcases List.mem_append.mp member with inFront | inBack
  · exact List.mem_append_left _ inFront
  · exact List.mem_append_right _ (List.mem_cons_of_mem _ inBack)

/-- The same request from another subject. -/
def Request.of (request : Request) (name : String) : Request :=
  { request with identity := some ⟨some name⟩ }

theorem allowed_of_higher {name higher : String}
    (above : ∀ role, Binds policy role name →
      ∃ role', Binds policy role' higher ∧ role.level ≤ role'.level)
    (allowed : Allowed policy (request.of name)) : Allowed policy (request.of higher) := by
  rcases allowed with exempt | ⟨subject, role, same, bound, enough⟩
  · exact Or.inl exempt
  · cases Option.some.inj same
    obtain ⟨role', bound', higherLevel⟩ := above role bound
    exact Or.inr ⟨higher, role', rfl, bound', Nat.le_trans enough higherLevel⟩

end Policies

/-- The middleware decides exactly as the policy says. A denial is a 403 that
leaves the handler alone; what the policy says does not depend on the order or
the number of its bindings and subjects, grows with every binding, and goes up
with the role of the subject. -/
theorem authorize_exact (policy : AuthorizationConfig) (request : Request) :
    (PassesOn policy request ↔ Allowed policy request) ∧
      (¬Allowed policy request → ∀ {State : Type} (next : Handler State) (server : Server State),
        (authorize policy next request server).1.status = 403 ∧
          (authorize policy next request server).2.handler = server.handler) ∧
      (∀ other : AuthorizationConfig,
        (∀ role name, Binds policy role name ↔ Binds other role name) →
          (PassesOn policy request ↔ PassesOn other request)) ∧
      (∀ front back binding, policy.roles = front ++ back → PassesOn policy request →
        PassesOn ⟨front ++ binding :: back⟩ request) ∧
      (∀ name higher, (∀ role, Binds policy role name →
          ∃ role', Binds policy role' higher ∧ role.level ≤ role'.level) →
        PassesOn policy (request.of name) → PassesOn policy (request.of higher)) := by
  refine ⟨passes_on_iff policy request, fun denied _ next server => ?_, fun other same => ?_,
    fun front back binding split => ?_, fun name higher above => ?_⟩
  · obtain ⟨answer, kept⟩ := authorize_denied policy request denied next server
    exact ⟨by rw [answer]; rfl, kept⟩
  · rw [passes_on_iff, passes_on_iff]
    exact ⟨allowed_of_binds fun role name => (same role name).mp,
      allowed_of_binds fun role name => (same role name).mpr⟩
  · obtain rfl : policy = ⟨front ++ back⟩ := by rw [← split]
    rw [passes_on_iff, passes_on_iff]
    exact allowed_of_binds (binds_insert front back binding)
  · rw [passes_on_iff, passes_on_iff]
    exact allowed_of_higher above

end NodeOs.Noded.Authorization
