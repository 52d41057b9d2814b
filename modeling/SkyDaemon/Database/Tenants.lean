import SkyDaemon.Foundation.Noninterference
import SkyDaemon.Database.Acks

/-! Provisioning requests side by side. Every statement is a round trip of its own, so those of
several requests reach the server in any order. Each request keeps to the database and the
account that it names. -/
namespace SkyDaemon.Database
open Program Transition

/-! ## Requests, one statement at a time -/

/-- What is asked of the server over the admin connection. -/
inductive Query where
  | connect
  | run (statement : Statement)
  deriving DecidableEq, Repr

abbrev Session := Program Query fun _ => Except String Unit

namespace Session

def ask (query : Query) : Session Unit := do ofExcept (← perform query)

def provisionUser (name user pass : String) : Session Unit := do
  (ask (.run (.createUser user pass))).withContext "create user"
  (ask (.run (.grantAll name user))).withContext "grant privileges"

def compensate (name user : String) : Session Unit := do
  let _ ← (ask (.run (.dropDatabase name))).attempt
  let _ ← (ask (.run (.dropUser user))).attempt

def createDatabase (name user password : String) : Session Unit := do
  (ofExcept (validateIdent name 64) : Session Unit).withContext "invalid database name"
  (ofExcept (validateIdent user 32) : Session Unit).withContext "invalid database user"
  let pass := escapeSqlString password
  (ask .connect).withContext "connect to MariaDB"
  (ask (.run (.createDatabase name))).withContext "create database"
  let rest ← (provisionUser name user pass).attempt
  match rest with
  | .error e =>
    compensate name user
    fail e
  | .ok () =>
    let _ ← (ask (.run .flushPrivileges)).attempt

def deleteDatabase (name user : String) : Session Unit := do
  (ofExcept (validateIdent name 64) : Session Unit).withContext "invalid database name"
  (ofExcept (validateIdent user 32) : Session Unit).withContext "invalid database user"
  (ask .connect).withContext "connect to MariaDB"
  (ask (.run (.dropDatabase name))).withContext "drop database"
  let _ ← (ask (.run (.dropUser user))).attempt
  let _ ← (ask (.run .flushPrivileges)).attempt

end Session

/-! ## A request that runs alone -/

section Alone
variable {Contents : Type} [EmptyCollection Contents]

/-- The server's answer to one query; the failures may be others at the next one. -/
def react (server : Server Contents) (faults : Faults) : Query → Except String Unit × Server Contents
  | .connect => faults.getConn server
  | .run statement => faults.queryDrop statement server

variable {faults : Faults}

theorem ask_performs (query : Query) :
    Performs react faults (Session.ask query) (fun server : Server Contents => react server faults query) := by
  intro course same
  have answered : course.answer react query = (react course.world faults query).1 := by
    rw [Course.answer, same 0]
  have moved : (course.after react query).world = (react course.world faults query).2 := by
    rw [Course.after, same 0]
  rw [Session.ask, execute_perform_bind, answered]
  rcases (react course.world faults query).1 with message | done
  · exact ⟨rfl, moved, fun n => same (n + 1)⟩
  · exact ⟨rfl, moved, fun n => same (n + 1)⟩

theorem lift_performs (result : Except String α) (message : String) :
    Performs (react : Reaction (Server Contents) Faults Query fun _ => Except String Unit) faults
      ((ofExcept result : Session α).withContext message) ((Effect.lift result).context message) := by
  apply Performs.withContext
  cases result with
  | error text => exact .fail text
  | ok value => exact .pure value

theorem ask_context_performs (query : Query) (message : String) :
    Performs react faults ((Session.ask query).withContext message)
      (Effect.context message fun server : Server Contents => react server faults query) :=
  (ask_performs query).withContext message

theorem ask_attempt_performs (query : Query) :
    Performs react faults (Session.ask query).attempt
      (Effect.attempt fun server : Server Contents => react server faults query) :=
  (ask_performs query).attempt

/-- Left alone, a request has the effect of the whole operation. -/
theorem createDatabase_performs (name user password : String) :
    Performs react faults (Session.createDatabase name user password)
      (createDatabase faults name user password : Effect (Server Contents) Unit) := by
  refine (lift_performs _ _).bind fun _ => (lift_performs _ _).bind fun _ => ?_
  refine (ask_context_performs .connect _).bind fun _ => (ask_context_performs (.run _) _).bind fun _ => ?_
  refine Performs.bind (((ask_context_performs (.run _) _).bind fun _ =>
    ask_context_performs (.run _) _).attempt) fun rest => ?_
  cases rest with
  | error e =>
    exact Performs.bind ((ask_attempt_performs (.run _)).bind fun _ =>
      (ask_attempt_performs (.run _)).bind fun _ => .pure ()) fun _ => .fail e
  | ok _ => exact (ask_attempt_performs (.run _)).bind fun _ => .pure ()

theorem deleteDatabase_performs (name user : String) :
    Performs react faults (Session.deleteDatabase name user)
      (deleteDatabase faults name user : Effect (Server Contents) Unit) := by
  refine (lift_performs _ _).bind fun _ => (lift_performs _ _).bind fun _ => ?_
  refine (ask_context_performs .connect _).bind fun _ => (ask_context_performs (.run _) _).bind fun _ => ?_
  exact (ask_attempt_performs (.run _)).bind fun _ => (ask_attempt_performs (.run _)).bind fun _ => .pure ()

end Alone

/-! ## Requests of several tenants -/

inductive Provisioning where
  | create (name user password : String)
  | delete (name user : String)
  deriving DecidableEq, Repr

namespace Provisioning

def name : Provisioning → String
  | .create name _ _ | .delete name _ => name

def user : Provisioning → String
  | .create _ user _ | .delete _ user => user

def session : Provisioning → Session Unit
  | .create name user password => Session.createDatabase name user password
  | .delete name user => Session.deleteDatabase name user

end Provisioning

/-- The statement is about this database and this account alone. -/
def Statement.About (name user : String) : Statement → Prop
  | .createDatabase database | .dropDatabase database => database = name
  | .createUser account _ | .dropUser account => account = user
  | .grantAll database account => database = name ∧ account = user
  | .flushPrivileges => True

def Query.About (name user : String) : Query → Prop
  | .connect => True
  | .run statement => statement.About name user

section Asks
variable {P : Query → Prop} {query : Query}

theorem ask_all (holds : P query) : (Session.ask query).All P :=
  All.bind ⟨holds, fun _ => trivial⟩ fun _ => all_ofExcept _

theorem ask_context_all (holds : P query) (message : String) : ((Session.ask query).withContext message).All P :=
  (all_withContext _ _).mpr (ask_all holds)

theorem ask_attempt_all (holds : P query) : (Session.ask query).attempt.All P :=
  (all_attempt _).mpr (ask_all holds)

theorem valid_all (result : Except String Unit) (message : String) :
    ((ofExcept result : Session Unit).withContext message).All P :=
  (all_withContext _ _).mpr (all_ofExcept _)

end Asks

/-- The queries that the session of a request can come to. Whatever adds to the server comes only after
both names have passed their checks. -/
inductive Provisioning.Asks : Provisioning → Query → Prop where
  | connect (request : Provisioning) : Asks request .connect
  | createDatabase {name user password : String} (named : validateIdent name 64 = .ok ())
      (owned : validateIdent user 32 = .ok ()) : Asks (.create name user password) (.run (.createDatabase name))
  | createUser {name user password : String} (named : validateIdent name 64 = .ok ())
      (owned : validateIdent user 32 = .ok ()) :
      Asks (.create name user password) (.run (.createUser user (escapeSqlString password)))
  | grantAll {name user password : String} (named : validateIdent name 64 = .ok ())
      (owned : validateIdent user 32 = .ok ()) : Asks (.create name user password) (.run (.grantAll name user))
  | dropDatabase (request : Provisioning) : Asks request (.run (.dropDatabase request.name))
  | dropUser (request : Provisioning) : Asks request (.run (.dropUser request.user))
  | flushPrivileges (request : Provisioning) : Asks request (.run .flushPrivileges)

theorem session_asks (request : Provisioning) : request.session.All request.Asks := by
  cases request with
  | create name user password =>
    change (Session.createDatabase name user password).All _
    unfold Session.createDatabase
    cases named : validateIdent name 64 with
    | error message => trivial
    | ok _ =>
      cases owned : validateIdent user 32 with
      | error message => trivial
      | ok _ =>
        refine (valid_all _ _).bind fun _ => (valid_all _ _).bind fun _ => ?_
        refine (ask_context_all (.connect _) _).bind fun _ => ?_
        refine (ask_context_all (.createDatabase named owned) _).bind fun _ => ?_
        refine All.bind ((all_attempt _).mpr ((ask_context_all (.createUser named owned) _).bind fun _ =>
          ask_context_all (.grantAll named owned) _)) fun rest => ?_
        cases rest with
        | error e =>
          exact All.bind ((ask_attempt_all (.dropDatabase _)).bind fun _ =>
            (ask_attempt_all (.dropUser _)).bind fun _ => trivial) fun _ => trivial
        | ok _ => exact (ask_attempt_all (.flushPrivileges _)).bind fun _ => trivial
  | delete name user =>
    refine (valid_all _ _).bind fun _ => (valid_all _ _).bind fun _ => ?_
    refine (ask_context_all (.connect _) _).bind fun _ => ?_
    refine (ask_context_all (.dropDatabase (.delete name user)) _).bind fun _ => ?_
    refine (ask_attempt_all (.dropUser (.delete name user))).bind fun _ => ?_
    exact (ask_attempt_all (.flushPrivileges _)).bind fun _ => trivial

theorem session_about (request : Provisioning) : request.session.All (Query.About request.name request.user) := by
  refine (session_asks request).mono fun query asks => ?_
  cases asks with
  | connect | flushPrivileges => trivial
  | createDatabase | createUser | dropDatabase | dropUser => rfl
  | grantAll => exact ⟨rfl, rfl⟩

/-- What belongs to a tenant. -/
structure Tenant where
  names : String → Bool
  users : String → Bool

namespace Tenant
variable (tenant : Tenant)

/-- The request is the tenant's. -/
def owns (request : Provisioning) : Bool := tenant.names request.name && tenant.users request.user

/-- The request is the tenant's, or has nothing to do with it. -/
def Clear (request : Provisioning) : Prop := tenant.names request.name = tenant.users request.user

variable {Contents : Type}

/-- The tenant finds the same on both servers. -/
structure Alike (server server' : Server Contents) : Prop where
  databases : ∀ name, tenant.names name = true → server.databases name = server'.databases name
  users : ∀ user, tenant.users user = true → server.users user = server'.users user

end Tenant

section Runs
variable {Contents : Type} [EmptyCollection Contents] {tenant : Tenant}

/-- The same change on both sides keeps agreement on some of the keys. -/
theorem update_agree {β : Type} {mine : String → Bool} {f g : String → β}
    (agree : ∀ key, mine key = true → f key = g key) (changed : String) (value : β) (key : String)
    (own : mine key = true) : Function.update f changed value key = Function.update g changed value key := by
  by_cases same : key = changed
  · rw [same, Function.update_self, Function.update_self]
  · rw [Function.update_of_ne same, Function.update_of_ne same, agree key own]

theorem update_other_agree {β : Type} {mine : String → Bool} {f g : String → β} {changed : String}
    (agree : ∀ key, mine key = true → f key = g key) (foreign : mine changed = false) (value : β) (key : String)
    (own : mine key = true) : Function.update f changed value key = g key := by
  have away : key ≠ changed := by
    rintro rfl
    rw [foreign] at own
    contradiction
  rw [Function.update_of_ne away, agree key own]

/-- Two outcomes of a statement that the tenant cannot tell apart. -/
inductive SameOutcome (tenant : Tenant) : Except String (Server Contents) → Except String (Server Contents) → Prop where
  | ok {next next' : Server Contents} (alike : tenant.Alike next next') : SameOutcome tenant (.ok next) (.ok next')
  | error (message : String) : SameOutcome tenant (.error message) (.error message)

/-- A statement of the tenant does the same where the tenant finds the same. -/
theorem execute_own {server server' : Server Contents} (alike : tenant.Alike server server') {statement : Statement}
    (about : statement.About name user) (mine : tenant.names name = true) (mine' : tenant.users user = true) :
    SameOutcome tenant (statement.execute server) (statement.execute server') := by
  cases statement with
  | createDatabase database =>
    cases about
    rw [Statement.execute, Statement.execute, alike.databases name mine]
    cases server'.databases name with
    | none => exact .ok ⟨update_agree alike.databases name _, alike.users⟩
    | some contents => exact .ok alike
  | createUser account pass =>
    cases about
    rw [Statement.execute, Statement.execute, alike.users user mine']
    cases server'.users user with
    | none => exact .ok ⟨alike.databases, update_agree alike.users user _⟩
    | some known => exact .ok alike
  | grantAll database account =>
    obtain ⟨rfl, rfl⟩ := about
    rw [Statement.execute, Statement.execute, alike.users account mine']
    cases server'.users account with
    | none => exact .error _
    | some known => exact .ok ⟨alike.databases, update_agree alike.users account _⟩
  | dropDatabase database => exact .ok ⟨update_agree alike.databases database none, alike.users⟩
  | dropUser account => exact .ok ⟨alike.databases, update_agree alike.users account none⟩
  | flushPrivileges => exact .ok alike

/-- A statement of somebody else is not noticed. -/
theorem execute_other {server server' next : Server Contents} (alike : tenant.Alike server server')
    {statement : Statement} (about : statement.About name user) (foreign : tenant.names name = false)
    (foreign' : tenant.users user = false)
    (executed : statement.execute server = .ok next) : tenant.Alike next server' := by
  cases statement with
  | createDatabase database =>
    cases about
    rw [Statement.execute] at executed
    split at executed
    · cases executed
      exact alike
    · cases executed
      exact ⟨update_other_agree alike.databases foreign _, alike.users⟩
  | createUser account pass =>
    cases about
    rw [Statement.execute] at executed
    split at executed
    · cases executed
      exact alike
    · cases executed
      exact ⟨alike.databases, update_other_agree alike.users foreign' _⟩
  | grantAll database account =>
    obtain ⟨rfl, rfl⟩ := about
    rw [Statement.execute] at executed
    split at executed
    · contradiction
    · cases executed
      exact ⟨alike.databases, update_other_agree alike.users foreign' _⟩
  | dropDatabase database =>
    cases about
    cases executed
    exact ⟨update_other_agree alike.databases foreign none, alike.users⟩
  | dropUser account =>
    cases about
    cases executed
    exact ⟨alike.databases, update_other_agree alike.users foreign' none⟩
  | flushPrivileges =>
    cases executed
    exact alike

theorem database_unwinding (tenant : Tenant) :
    Pool.Unwinding (react : Reaction (Server Contents) Faults Query fun _ => Except String Unit) tenant.owns
      (fun request query => tenant.Clear request ∧ query.About request.name request.user) tenant.Alike := by
  constructor
  · rintro request query server server' faults own ⟨-, about⟩ alike
    obtain ⟨mine, mine'⟩ := Bool.and_eq_true_iff.mp own
    cases query with
    | connect =>
      rw [react, react, Faults.getConn, Faults.getConn]
      cases faults.connect with
      | none => exact ⟨rfl, alike⟩
      | some message => exact ⟨rfl, alike⟩
    | run statement =>
      rw [react, react, Faults.queryDrop, Faults.queryDrop]
      cases faults.statement statement with
      | some message => exact ⟨rfl, alike⟩
      | none =>
        have same := execute_own alike about mine mine'
        generalize statement.execute server = first at same
        generalize statement.execute server' = second at same
        cases same with
        | ok next => exact ⟨rfl, next⟩
        | error message => exact ⟨rfl, alike⟩
  · rintro request query server server' faults other ⟨clear, about⟩ alike
    have foreign : tenant.names request.name = false ∧ tenant.users request.user = false := by
      rw [Tenant.Clear] at clear
      rw [Tenant.owns, clear, Bool.and_self] at other
      exact ⟨clear.trans other, other⟩
    cases query with
    | connect =>
      rw [react, Faults.getConn]
      cases faults.connect with
      | none => exact alike
      | some message => exact alike
    | run statement =>
      rw [react, Faults.queryDrop]
      cases faults.statement statement with
      | some message => exact alike
      | none =>
        cases executed : statement.execute server with
        | ok next => exact execute_other alike about foreign.1 foreign.2 executed
        | error message => exact alike

abbrev DatabasePool (Contents : Type) := Pool (Server Contents) Provisioning Query (fun _ => Except String Unit) Unit

/-- Provisioning requests in any interleaving of their statements, with any failures. -/
abbrev ProvisioningRun (tenant : Tenant) :
    DatabasePool Contents → List (Pool.Event Provisioning Faults) → DatabasePool Contents → Prop :=
  Run (Pool.Steps react Provisioning.session tenant.Clear)

/-- Without the requests of all other tenants, those of a tenant get the same answers and come to
the same results, and its databases and accounts are the same. -/
theorem tenants_do_not_interfere {server : Server Contents} {events : List (Pool.Event Provisioning Faults)}
    {pool : DatabasePool Contents} (run : ProvisioningRun tenant (.start server) events pool) :
    ∃ alone, ProvisioningRun tenant (.start server) (Pool.purge tenant.owns [] events) alone ∧
      alone.threads = pool.threads.filter (fun thread => tenant.owns thread.origin) ∧
      (∀ name, tenant.names name = true → pool.world.databases name = alone.world.databases name) ∧
      ∀ user, tenant.users user = true → pool.world.users user = alone.world.users user := by
  have keeps (request : Provisioning) (clear : tenant.Clear request) :
      request.session.All fun query => tenant.Clear request ∧ query.About request.name request.user :=
    (session_about request).mono fun _ about => ⟨clear, about⟩
  obtain ⟨alone, purged, sees⟩ := Pool.purge_run (database_unwinding tenant) keeps run
    (Pool.Sees.start ⟨fun _ _ => rfl, fun _ _ => rfl⟩)
  exact ⟨alone, purged, sees.threads, sees.world.databases, sees.world.users⟩

end Runs

/-- A creation that fails after its account was made, between the statements of another one. -/
def rivalEvents : List (Pool.Event Provisioning Faults) :=
  [.receive (.create "shop" "bob" "secret"), .receive (.create "forum" "eve" "other")] ++
    List.replicate 2 (.advance 0 noFaults) ++ List.replicate 3 (.advance 1 noFaults) ++
    [.advance 1 { noFaults with statement := fun _ => some "refused" }] ++ List.replicate 2 (.advance 1 noFaults) ++
    List.replicate 3 (.advance 0 noFaults)

def shopTenant : Tenant := ⟨(· == "shop"), (· == "bob")⟩

theorem rival_rollback_unnoticed :
    ∃ pool : DatabasePool (List String), ProvisioningRun shopTenant (.start leftoverServer) rivalEvents pool ∧
      (pool.world.users "bob").map User.password = some "secret" ∧
      ∃ alone, ProvisioningRun shopTenant (.start leftoverServer)
          (Pool.purge shopTenant.owns [] rivalEvents) alone ∧
        (alone.world.users "bob").map User.password = some "secret" := by
  have run : ∃ pool : DatabasePool (List String), rivalEvents.foldlM (Pool.step react Provisioning.session)
      (Pool.start leftoverServer) = some pool ∧ (pool.world.users "bob").map User.password = some "secret" :=
    ⟨_, rfl, by decide⟩
  obtain ⟨pool, folded, password⟩ := run
  have run : ProvisioningRun shopTenant (.start leftoverServer) rivalEvents pool := by
    refine Pool.run_of_foldlM folded fun request member => ?_
    have known : request = .create "shop" "bob" "secret" ∨ request = .create "forum" "eve" "other" := by
      simpa [rivalEvents] using member
    rcases known with rfl | rfl <;> rfl
  obtain ⟨alone, purged, -, -, users⟩ := tenants_do_not_interfere run
  exact ⟨pool, run, password, alone, purged, by rw [← users "bob" rfl, password]⟩

end SkyDaemon.Database
