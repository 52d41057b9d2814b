import SkyDaemon.Database.Tenants
import SkyDaemon.Database.Rollback

/-! Where the databases, accounts and grants of a server come from, and what one acked request
leaves for the next. -/
namespace SkyDaemon.Database
open Program Transition

/-! ## What a statement can bring -/

section Runs
variable {Contents : Type} [EmptyCollection Contents]

omit [EmptyCollection Contents] in
/-- An entry of an updated map is the new one or was there. -/
theorem update_eq_some {β : Type} {f : String → Option β} {value : Option β} {entry : β}
    (found : Function.update f changed value key = some entry) :
    key = changed ∧ value = some entry ∨ f key = some entry := by
  by_cases same : key = changed
  · subst same
    rw [Function.update_self] at found
    exact .inl ⟨rfl, found⟩
  · rw [Function.update_of_ne same] at found
    exact .inr found

/-- Only its own statement adds a database. -/
theorem execute_databases {server next : Server Contents} {statement : Statement} {contents : Contents}
    (executed : statement.execute server = .ok next) (present : next.databases name = some contents) :
    server.databases name = some contents ∨ statement = .createDatabase name := by
  cases statement with
  | createDatabase other =>
    rw [Statement.execute] at executed
    split at executed <;> cases executed
    · exact .inl present
    · rcases update_eq_some present with ⟨rfl, -⟩ | before
      · exact .inr rfl
      · exact .inl before
  | createUser user pass =>
    rw [Statement.execute] at executed
    split at executed <;> cases executed <;> exact .inl present
  | grantAll other user =>
    rw [Statement.execute] at executed
    split at executed <;> cases executed
    exact .inl present
  | dropDatabase other =>
    cases executed
    rcases update_eq_some present with ⟨-, gone⟩ | before
    · contradiction
    · exact .inl before
  | dropUser user | flushPrivileges =>
    cases executed
    exact .inl present

/-- The account was there, with the same password and all but at most one of the grants. -/
def Grown (old : User) (account : User) (user : String) (statement : Statement) : Prop :=
  account.password = old.password ∧ ∀ name privileges, account.grants name = some privileges →
    old.grants name = some privileges ∨ statement = .grantAll name user ∧ privileges = .all

/-- An account is an old one, with a grant that was just made, or a new one without grants. -/
theorem execute_users {server next : Server Contents} {statement : Statement} {account : User}
    (executed : statement.execute server = .ok next) (known : next.users user = some account) :
    (∃ old, server.users user = some old ∧ Grown old account user statement) ∨
      ∃ pass, statement = .createUser user pass ∧ account = ⟨literalValue pass, fun _ => none⟩ := by
  have unchanged (known : server.users user = some account) :
      ∃ old, server.users user = some old ∧ Grown old account user statement :=
    ⟨account, known, rfl, fun _ _ granted => .inl granted⟩
  cases statement with
  | createDatabase name =>
    rw [Statement.execute] at executed
    split at executed <;> cases executed <;> exact .inl (unchanged known)
  | createUser other pass =>
    rw [Statement.execute] at executed
    split at executed <;> cases executed
    · exact .inl (unchanged known)
    · rcases update_eq_some known with ⟨rfl, new⟩ | before
      · exact .inr ⟨pass, rfl, (Option.some.inj new).symm⟩
      · exact .inl (unchanged before)
  | grantAll name other =>
    rw [Statement.execute] at executed
    split at executed <;> cases executed
    rename_i old present
    rcases update_eq_some known with ⟨rfl, changed⟩ | before
    · cases changed
      refine .inl ⟨old, present, rfl, fun pattern privileges granted => ?_⟩
      rcases update_eq_some granted with ⟨rfl, new⟩ | before
      · exact .inr ⟨rfl, (Option.some.inj new).symm⟩
      · exact .inl before
    · exact .inl (unchanged before)
  | dropUser other =>
    cases executed
    rcases update_eq_some known with ⟨-, gone⟩ | before
    · contradiction
    · exact .inl (unchanged before)
  | dropDatabase name | flushPrivileges =>
    cases executed
    exact .inl (unchanged known)

/-! ## What a request asks for -/

/-- The request is this creation, and its names pass their checks. -/
def Provisioning.Creates (request : Provisioning) (name user password : String) : Prop :=
  request = .create name user password ∧ validateIdent name 64 = .ok () ∧ validateIdent user 32 = .ok ()

/-- What the query would add to the server is what the request asks for. -/
def AddsOwn (request : Provisioning) : Query → Prop
  | .run (.createDatabase name) => ∃ user password, request.Creates name user password
  | .run (.createUser user pass) => ∃ name, request.Creates name user (literalValue pass)
  | .run (.grantAll name user) => ∃ password, request.Creates name user password
  | _ => True

theorem session_adds_own (request : Provisioning) : request.session.All (AddsOwn request) := by
  refine (session_asks request).mono fun query asks => ?_
  cases asks with
  | connect | dropDatabase | dropUser | flushPrivileges => trivial
  | createDatabase named owned => exact ⟨_, _, rfl, named, owned⟩
  | createUser named owned =>
    refine ⟨_, ?_, named, owned⟩
    rw [literalValue_escapeSqlString]
  | grantAll named owned => exact ⟨_, rfl, named, owned⟩

/-! ## Provenance -/

/-- Everything on the server was there at the start or is what some request created: a database by
its name, an account by its name and password, a grant by the database and the account. -/
structure Provenance (start : Server Contents) (requests : List Provisioning) (server : Server Contents) : Prop where
  databases : ∀ name contents, server.databases name = some contents → start.databases name = some contents ∨
    ∃ request ∈ requests, ∃ user password, request.Creates name user password
  accounts : ∀ user account, server.users user = some account →
    (∃ old, start.users user = some old ∧ account.password = old.password) ∨
      ∃ request ∈ requests, ∃ name, request.Creates name user account.password
  grants : ∀ user account name privileges, server.users user = some account → account.grants name = some privileges →
    (∃ old, start.users user = some old ∧ old.grants name = some privileges) ∨
      privileges = .all ∧ ∃ request ∈ requests, ∃ password, request.Creates name user password

omit [EmptyCollection Contents] in
theorem Provenance.refl (start : Server Contents) (requests : List Provisioning) : Provenance start requests start where
  databases _ _ present := .inl present
  accounts _ account known := .inl ⟨account, known, rfl⟩
  grants _ account _ _ known granted := .inl ⟨account, known, granted⟩

omit [EmptyCollection Contents] in
theorem Provenance.mono {start server : Server Contents} {requests more : List Provisioning}
    (provenance : Provenance start requests server) (inside : requests ⊆ more) : Provenance start more server where
  databases name contents present := by
    refine (provenance.databases name contents present).imp_right ?_
    rintro ⟨request, member, asked⟩
    exact ⟨request, inside member, asked⟩
  accounts user account known := by
    refine (provenance.accounts user account known).imp_right ?_
    rintro ⟨request, member, asked⟩
    exact ⟨request, inside member, asked⟩
  grants user account name privileges known granted := by
    refine (provenance.grants user account name privileges known granted).imp_right ?_
    rintro ⟨all, request, member, asked⟩
    exact ⟨all, request, inside member, asked⟩

theorem Provenance.execute {start server next : Server Contents} {requests : List Provisioning}
    (provenance : Provenance start requests server) {request : Provisioning} (member : request ∈ requests)
    {statement : Statement} (own : AddsOwn request (.run statement)) (executed : statement.execute server = .ok next) :
    Provenance start requests next where
  databases name contents present := by
    rcases execute_databases executed present with before | rfl
    · exact provenance.databases name contents before
    · exact .inr ⟨request, member, own⟩
  accounts user account known := by
    rcases execute_users executed known with ⟨old, before, same, -⟩ | ⟨pass, rfl, rfl⟩
    · rw [same]
      exact provenance.accounts user old before
    · exact .inr ⟨request, member, own⟩
  grants user account name privileges known granted := by
    rcases execute_users executed known with ⟨old, before, -, grants⟩ | ⟨pass, rfl, rfl⟩
    · rcases grants name privileges granted with had | ⟨rfl, all⟩
      · exact provenance.grants user old name privileges before had
      · exact .inr ⟨all, request, member, own⟩
    · cases granted

theorem Provenance.react {start server : Server Contents} {requests : List Provisioning}
    (provenance : Provenance start requests server) {request : Provisioning} (member : request ∈ requests)
    {query : Query} (own : AddsOwn request query) (faults : Faults) :
    Provenance start requests (react server faults query).2 := by
  cases query with
  | connect =>
    rw [Database.react, Faults.getConn]
    split <;> exact provenance
  | run statement =>
    rw [Database.react, Faults.queryDrop]
    split
    · exact provenance
    · split
      · exact provenance.execute member own ‹_›
      · exact provenance

/-- Every request keeps to what it asks for, and everything on the server can be traced. -/
structure Traced (start : Server Contents) (pool : DatabasePool Contents) : Prop where
  conducts : ∀ thread ∈ pool.threads, thread.rest.All (AddsOwn thread.origin)
  provenance : Provenance start pool.origins pool.world

omit [EmptyCollection Contents] in
theorem traced_spawn {start : Server Contents} {pool : DatabasePool Contents} (traced : Traced start pool)
    (request : Provisioning) : Traced start (pool.spawn Provisioning.session request) where
  conducts thread member := by
    rcases List.mem_append.mp member with old | new
    · exact traced.conducts thread old
    · rw [List.mem_singleton.mp new]
      exact session_adds_own request
  provenance := by
    rw [Pool.origins_spawn]
    exact traced.provenance.mono (List.subset_append_left _ _)

theorem traced_resume {start : Server Contents} {pool : DatabasePool Contents} (traced : Traced start pool)
    {index : Nat} (faults : Faults) {thread : Thread Provisioning Query (fun _ => Except String Unit) Unit}
    {query : Query} {next : Except String Unit → Session Unit} (found : pool.threads[index]? = some thread)
    (waiting : thread.rest = .call query next) : Traced start (pool.resume react index faults thread query next) := by
  have kept := traced.conducts thread (List.mem_of_getElem? found)
  rw [waiting] at kept
  constructor
  · intro other member
    rcases List.mem_or_eq_of_mem_set member with old | rfl
    · exact traced.conducts other old
    · exact kept.2 _
  · rw [Pool.origins_resume faults found]
    exact traced.provenance.react (List.mem_map_of_mem (List.mem_of_getElem? found)) kept.1 faults

/-- However requests interleave and whatever fails, a database, an account with its password or a
grant that was not there at the start was asked for by a creation whose names are valid. -/
theorem everything_was_requested {start : Server Contents} {events : List (Pool.Event Provisioning Faults)}
    {pool : DatabasePool Contents}
    (run : Run (Pool.Steps react Provisioning.session fun _ => True) (.start start) events pool) :
    Provenance start pool.origins pool.world := by
  have traced : Traced start pool := by
    refine Pool.run_invariant (fun pool request _ traced => traced_spawn traced request)
      (fun pool index faults thread query next found waiting traced => traced_resume traced faults found waiting) run ?_
    exact ⟨List.forall_mem_nil _, .refl start _⟩
  exact traced.provenance

end Runs

theorem rival_account_traced :
    ∃ pool : DatabasePool (List String),
      Run (Pool.Steps react Provisioning.session fun _ => True) (.start leftoverServer) rivalEvents pool ∧
      ∃ account, pool.world.users "bob" = some account ∧ account.password = "secret" ∧
        account.grants "shop" = some .all ∧ ∃ request ∈ pool.origins, ∃ name, request.Creates name "bob" "secret" := by
  have run : ∃ pool : DatabasePool (List String), rivalEvents.foldlM (Pool.step react Provisioning.session)
      (Pool.start leftoverServer) = some pool ∧ ∃ account, pool.world.users "bob" = some account ∧
        account.password = "secret" ∧ account.grants "shop" = some .all :=
    ⟨_, rfl, _, rfl, rfl, by decide⟩
  obtain ⟨pool, folded, account, known, password, granted⟩ := run
  have run : Run (Pool.Steps react Provisioning.session fun _ => True) (.start leftoverServer) rivalEvents pool :=
    Pool.run_of_foldlM folded fun _ _ => trivial
  refine ⟨pool, run, account, known, password, granted, ?_⟩
  rcases (everything_was_requested run).accounts "bob" account known with ⟨old, before, -⟩ | asked
  · cases before
  · rwa [password] at asked

/-! ## Acked requests, one after the other -/

section Acked
variable {Contents : Type} [EmptyCollection Contents] {faults : Faults} {before after : Server Contents}

/-- What an acked creation leaves: an existing database keeps its contents, and an existing
account its password and its other grants. -/
def Server.provisioned (server : Server Contents) (name user password : String) : Server Contents :=
  let account := (server.users user).getD ⟨password, fun _ => none⟩
  { databases := Function.update server.databases name (some ((server.databases name).getD ∅))
    users := Function.update server.users user
      (some { account with grants := Function.update account.grants name (some .all) }) }

def Server.withoutDatabase (server : Server Contents) (name : String) : Server Contents :=
  { server with databases := Function.update server.databases name none }

theorem createDatabase_ok_eq (ran : createDatabase faults name user password before = (.ok (), after)) :
    after = before.provisioned name user password := by
  obtain ⟨created, owned, made, joined, granted⟩ := createDatabase_executes ran
  have databases : created.databases = Function.update before.databases name (some ((before.databases name).getD ∅)) ∧
      created.users = before.users := by
    rw [Statement.execute] at made
    split at made <;> cases made <;> rename_i present
    · refine ⟨?_, rfl⟩
      rw [present, Option.getD_some, ← present, Function.update_eq_self]
    · rw [present]
      exact ⟨rfl, rfl⟩
  have users : owned.databases = created.databases ∧
      owned.users =
        Function.update created.users user (some ((created.users user).getD ⟨password, fun _ => none⟩)) := by
    rw [Statement.execute] at joined
    split at joined <;> cases joined <;> rename_i present
    · refine ⟨rfl, ?_⟩
      rw [present, Option.getD_some, ← present, Function.update_eq_self]
    · rw [present, literalValue_escapeSqlString]
      exact ⟨rfl, rfl⟩
  rw [Statement.execute, users.2, Function.update_self] at granted
  cases granted
  rw [Server.provisioned, users.1, databases.1, databases.2, Function.update_idem]

/-- What an acked deletion leaves: the result of `DROP USER` is discarded. -/
theorem deleteDatabase_ok_eq (ran : deleteDatabase faults name user before = (.ok (), after)) :
    after = if faults.statement (.dropUser user) = none then before.without name user
      else before.withoutDatabase name := by
  obtain ⟨middle, executed, rfl⟩ := deleteDatabase_executes ran
  cases executed
  split
  case isTrue dropped =>
    rw [Faults.queryDrop_ok dropped rfl]
    rfl
  case isFalse refused =>
    obtain ⟨message, failed⟩ := Option.ne_none_iff_exists'.mp refused
    rw [Faults.queryDrop_error failed]
    rfl

theorem provisioned_idem (server : Server Contents) (name user password later : String) :
    (server.provisioned name user password).provisioned name user later = server.provisioned name user password := by
  simp only [Server.provisioned, Function.update_self, Option.getD_some, Function.update_idem]

theorem provisioned_without (server : Server Contents) (name user password : String) :
    (server.provisioned name user password).without name user = server.without name user := by
  simp only [Server.provisioned, Server.without, Function.update_idem]

/-- The account after a creation that follows a deletion: a new one, unless the old one was there and
could not be dropped. -/
def recreated (name later : String) (dropped : Prop) [Decidable dropped] : Option User → User
  | none => ⟨later, Function.update (fun _ => none) name (some .all)⟩
  | some old =>
      if dropped then ⟨later, Function.update (fun _ => none) name (some .all)⟩
      else { old with grants := Function.update old.grants name (some .all) }

/-- The request's session, with nothing between its statements, ends well and leaves this server. -/
def Provisioning.Acked (request : Provisioning) (faults : Faults) (before after : Server Contents) : Prop :=
  ∃ course, request.session.execute react (.start before fun _ => faults) = (.ok (), course) ∧ course.world = after

/-- It then has the effect of the whole operation. -/
theorem Provisioning.Acked.performed {request : Provisioning} {effect : Effect (Server Contents) Unit}
    (acked : request.Acked faults before after) (performs : Performs react faults request.session effect) :
    effect before = (.ok (), after) := by
  obtain ⟨course, ran, rfl⟩ := acked
  obtain ⟨result, world, -⟩ := performs (.start before fun _ => faults) fun _ => rfl
  rw [ran] at result world
  exact Prod.ext result.symm world.symm

theorem created_eq (acked : (Provisioning.create name user password).Acked faults before after) :
    after = before.provisioned name user password :=
  createDatabase_ok_eq (acked.performed (createDatabase_performs name user password))

theorem deleted_eq (acked : (Provisioning.delete name user).Acked faults before after) :
    after = if faults.statement (.dropUser user) = none then before.without name user
      else before.withoutDatabase name :=
  deleteDatabase_ok_eq (acked.performed (deleteDatabase_performs name user))

/-- Acked requests for one database and its account, under any failures. A repeated creation changes
nothing. A deletion undoes a creation up to what was there before, and a creation after a deletion
starts from nothing, but for an account whose `DROP USER` was refused: it stays as it was. -/
theorem acked_requests_compose {first second : Faults} {middle : Server Contents} (password later : String) :
    ((Provisioning.create name user password).Acked first before middle →
      ((Provisioning.create name user later).Acked second middle after → after = middle) ∧
      ((Provisioning.delete name user).Acked second middle after →
        after = if second.statement (.dropUser user) = none then before.without name user
          else middle.withoutDatabase name)) ∧
    ((Provisioning.delete name user).Acked first before middle →
      ((Provisioning.delete name user).Acked second middle after →
        after = if second.statement (.dropUser user) = none then before.without name user else middle) ∧
      ((Provisioning.create name user later).Acked second middle after →
        after.databases name = some ∅ ∧
        after.users user =
          some (recreated name later (first.statement (.dropUser user) = none) (before.users user)))) := by
  constructor
  · intro made
    have now := created_eq made
    constructor
    · intro again
      rw [created_eq again, now, provisioned_idem]
    · intro removed
      rw [deleted_eq removed, now, provisioned_without]
  · intro removed
    have now := deleted_eq removed
    constructor
    · intro again
      rw [deleted_eq again, now]
      split <;> split <;> simp only [Server.without, Server.withoutDatabase, Function.update_idem]
    · intro made
      rw [created_eq made, now]
      split
      case isTrue dropped =>
        rcases before.users user with _ | old <;>
          simp [Server.provisioned, Server.without, recreated, dropped]
      case isFalse refused =>
        rcases known : before.users user with _ | old <;>
          simp [Server.provisioned, Server.withoutDatabase, recreated, refused, known]

/-- The account `alice` of an earlier provisioning is replaced, or kept with its old password if it
could not be dropped. -/
theorem recreated_account_starts_anew :
    (∃ removed created, (Provisioning.delete "shop" "alice").Acked noFaults leftoverServer removed ∧
      (Provisioning.create "shop" "alice" "new").Acked noFaults removed created ∧ created.databases "shop" = some ∅ ∧
      created.users "alice" = some ⟨"new", Function.update (fun _ => none) "shop" (some .all)⟩) ∧
    ∃ removed created, (Provisioning.delete "shop" "alice").Acked dropUserFault leftoverServer removed ∧
      (Provisioning.create "shop" "alice" "new").Acked noFaults removed created ∧ created.databases "shop" = some ∅ ∧
      created.users "alice" = some ⟨"old", Function.update (fun _ => none) "shop" (some .all)⟩ := by
  have dropped : ∃ removed created, (Provisioning.delete "shop" "alice").Acked noFaults leftoverServer removed ∧
      (Provisioning.create "shop" "alice" "new").Acked noFaults removed created :=
    ⟨_, _, ⟨_, rfl, rfl⟩, ⟨_, rfl, rfl⟩⟩
  have refused : ∃ removed created, (Provisioning.delete "shop" "alice").Acked dropUserFault leftoverServer removed ∧
      (Provisioning.create "shop" "alice" "new").Acked noFaults removed created :=
    ⟨_, _, ⟨_, rfl, rfl⟩, ⟨_, rfl, rfl⟩⟩
  constructor
  · obtain ⟨removed, created, deletion, creation⟩ := dropped
    exact ⟨removed, created, deletion, creation, ((acked_requests_compose "" "new").2 deletion).2 creation⟩
  · obtain ⟨removed, created, deletion, creation⟩ := refused
    exact ⟨removed, created, deletion, creation, ((acked_requests_compose "" "new").2 deletion).2 creation⟩

end Acked

end SkyDaemon.Database
