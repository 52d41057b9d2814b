import SkyDaemon.Database.Lexer

/-! What an ack of a provisioning command tells the panel. `CREATE USER IF NOT EXISTS`
leaves the password of an account that is already there, and the result of `DROP USER`
is discarded. -/
namespace SkyDaemon.Database

/-! ## Successful calls -/

variable {Contents : Type} [EmptyCollection Contents]

omit [EmptyCollection Contents] in
/-- The checks before the first statement leave the server alone. -/
theorem connected_run_ok {faults : Faults} {before after : Server Contents}
    {next : Unit → Effect (Server Contents) Unit}
    (ran : ((Effect.lift (validateIdent name 64)).context "invalid database name" >>= fun _ =>
      (Effect.lift (validateIdent user 32)).context "invalid database user" >>= fun _ =>
      faults.getConn.context "connect to MariaDB" >>= next) before = (.ok (), after)) :
    next () before = (.ok (), after) := by
  simp only [Effect.bind_run_ok_iff, Effect.context_run_ok_iff, Effect.lift_run, Prod.mk.injEq] at ran
  obtain ⟨_, _, ⟨-, rfl⟩, _, _, ⟨-, rfl⟩, _, mid, connected, ran⟩ := ran
  simp only [Faults.getConn] at connected
  split at connected
  · cases connected
  · cases connected
    exact ran

theorem flushPrivileges_run (faults : Faults) (server : Server Contents) :
    (faults.queryDrop .flushPrivileges server).2 = server := by
  cases failed : faults.statement .flushPrivileges with
  | some message => rw [Faults.queryDrop_error failed]
  | none => rw [Faults.queryDrop_ok failed rfl]

/-- Every statement of a successful creation took effect. -/
theorem createDatabase_executes {faults : Faults} {before after : Server Contents}
    (ran : createDatabase faults name user password before = (.ok (), after)) :
    ∃ created owned, (Statement.createDatabase name).execute before = .ok created ∧
      (Statement.createUser user (escapeSqlString password)).execute created = .ok owned ∧
      (Statement.grantAll name user).execute owned = .ok after := by
  have statements := connected_run_ok ran
  simp only [Effect.bind_run_ok_iff, Effect.context_run_ok_iff, Faults.queryDrop_ok_iff] at statements
  obtain ⟨_, created, ⟨-, first⟩, result, owned, attempted, rest⟩ := statements
  cases attempted
  cases provisioned : provisionUser faults name user (escapeSqlString password) created with
  | mk result granted =>
    rw [provisioned] at rest
    cases result with
    | error e =>
      -- The compensated error is returned whatever the compensation does.
      obtain ⟨_, _, -, failed⟩ := Effect.bind_run_ok_iff.mp rest
      cases failed
    | ok =>
      cases rest
      rw [flushPrivileges_run]
      simp only [provisionUser, Effect.bind_run_ok_iff, Effect.context_run_ok_iff,
        Faults.queryDrop_ok_iff] at provisioned
      obtain ⟨_, owned, ⟨-, second⟩, -, third⟩ := provisioned
      exact ⟨created, owned, first, second, third⟩

/-- A successful deletion dropped the database; the account's statement may have failed. -/
theorem deleteDatabase_executes {faults : Faults} {before after : Server Contents}
    (ran : deleteDatabase faults name user before = (.ok (), after)) :
    ∃ dropped, (Statement.dropDatabase name).execute before = .ok dropped ∧
      after = (faults.queryDrop (.dropUser user) dropped).2 := by
  have statements := connected_run_ok ran
  simp only [Effect.bind_run_ok_iff, Effect.context_run_ok_iff, Faults.queryDrop_ok_iff] at statements
  obtain ⟨_, dropped, ⟨-, first⟩, _, mid, attempted, _, _, flushed, finished⟩ := statements
  cases attempted
  cases flushed
  cases finished
  exact ⟨dropped, first, flushPrivileges_run faults _⟩

/-! ## The server after an ack -/

theorem createDatabase_execute_ok {server next : Server Contents}
    (executed : (Statement.createDatabase name).execute server = .ok next) :
    (next.databases name).isSome = true ∧ next.users = server.users := by
  cases present : server.databases name with
  | some contents =>
    simp only [Statement.execute, present, Except.ok.injEq] at executed
    subst next
    simp [present]
  | none =>
    simp only [Statement.execute, present, Except.ok.injEq] at executed
    subst next
    simp

/-- An account that is already there keeps its password. -/
theorem createUser_execute_ok {server next : Server Contents} {user pass : String}
    (executed : (Statement.createUser user pass).execute server = .ok next) :
    next.databases = server.databases ∧ ∃ account, next.users user = some account ∧
      account.password = ((server.users user).map User.password).getD (literalValue pass) := by
  cases present : server.users user with
  | some account =>
    simp only [Statement.execute, present, Except.ok.injEq] at executed
    subst next
    exact ⟨rfl, account, present, rfl⟩
  | none =>
    simp only [Statement.execute, present, Except.ok.injEq] at executed
    subst next
    exact ⟨rfl, _, Function.update_self .., rfl⟩

theorem grantAll_execute_ok {server next : Server Contents}
    (executed : (Statement.grantAll name user).execute server = .ok next) :
    next.databases = server.databases ∧ ∃ account owner, server.users user = some account ∧
      next.users user = some owner ∧ owner.password = account.password ∧
      owner.grants name = some .all := by
  cases present : server.users user with
  | none =>
    simp only [Statement.execute, present] at executed
    cases executed
  | some account =>
    simp only [Statement.execute, present, Except.ok.injEq] at executed
    subst next
    exact ⟨rfl, account, _, rfl, Function.update_self .., rfl, Function.update_self ..⟩

/-- The account after `DROP USER IF EXISTS`, whose failure nobody sees. -/
theorem dropUser_run_users (faults : Faults) (server : Server Contents) (user : String) :
    (faults.queryDrop (.dropUser user) server).2.databases = server.databases ∧
    ((faults.queryDrop (.dropUser user) server).2.users user = none ↔
      faults.statement (.dropUser user) = none ∨ server.users user = none) := by
  cases failed : faults.statement (.dropUser user) with
  | some message => simp [Faults.queryDrop_error failed]
  | none =>
    rw [Faults.queryDrop_ok failed rfl]
    simp

/-- An acked creation leaves the database and an account with all privileges on it, whose
password is the requested one exactly when no account with another password was there. An
acked deletion leaves no database, and no account exactly when its statement succeeded or
there was none. -/
theorem database_acks_iff (faults : Faults) (before : Server Contents) (name user password : String) :
    (∀ after, createDatabase faults name user password before = (.ok (), after) →
      (after.databases name).isSome = true ∧
      ∃ account, after.users user = some account ∧ account.grants name = some .all ∧
        (account.password = password ↔
          ∀ old, before.users user = some old → old.password = password)) ∧
    (∀ after, deleteDatabase faults name user before = (.ok (), after) →
      after.databases name = none ∧
      (after.users user = none ↔
        faults.statement (.dropUser user) = none ∨ before.users user = none)) := by
  constructor
  · intro after ran
    obtain ⟨created, owned, first, second, third⟩ := createDatabase_executes ran
    obtain ⟨there, sameUsers⟩ := createDatabase_execute_ok first
    obtain ⟨sameDatabases, account, present, password_eq⟩ := createUser_execute_ok second
    obtain ⟨stillDatabases, account', owner, present', granted, kept, all⟩ := grantAll_execute_ok third
    obtain rfl : account = account' := Option.some.inj (present.symm.trans present')
    refine ⟨by rw [stillDatabases, sameDatabases]; exact there, owner, granted, all, ?_⟩
    rw [kept, password_eq, sameUsers, literalValue_escapeSqlString]
    cases before.users user with
    | none => simp
    | some old => simp
  · intro after ran
    obtain ⟨dropped, first, rfl⟩ := deleteDatabase_executes ran
    cases first
    obtain ⟨sameDatabases, gone⟩ := dropUser_run_users faults
      { before with databases := Function.update before.databases name none } user
    exact ⟨by rw [sameDatabases]; exact Function.update_self .., gone⟩

/-- A node where an account of an earlier provisioning is left over. -/
def leftoverServer : Server (List String) where
  databases := fun _ => none
  users := fun user => if user = "alice" then some ⟨"old", fun _ => none⟩ else none

def noFaults : Faults where
  connect := none
  statement := fun _ => none

/-- The drop of the account is refused. -/
def dropUserFault : Faults where
  connect := none
  statement := fun
    | .dropUser _ => some "access denied"
    | _ => none

theorem acked_new_account_usable :
    ∃ created dropped, createDatabase noFaults "shop" "bob" "it's" leftoverServer = (.ok (), created) ∧
      (∃ account, created.users "bob" = some account ∧ account.password = "it's") ∧
      deleteDatabase noFaults "shop" "bob" created = (.ok (), dropped) ∧
      dropped.users "bob" = none := by
  refine ⟨_, _, rfl, ?_, rfl, ?_⟩
  · obtain ⟨-, account, present, -, password⟩ :=
      (database_acks_iff noFaults leftoverServer "shop" "bob" "it's").1 _ rfl
    exact ⟨account, present, password.mpr fun old known => nomatch known⟩
  · exact ((database_acks_iff noFaults _ "shop" "bob" "").2 _ rfl).2.mpr (.inl rfl)

/-- The panel is told that its new password works, and that the account is gone. -/
theorem acked_leftover_account_stale :
    (∃ after, createDatabase noFaults "shop" "alice" "new" leftoverServer = (.ok (), after) ∧
      (after.users "alice").map User.password = some "old") ∧
    ∃ after, deleteDatabase dropUserFault "shop" "alice" leftoverServer = (.ok (), after) ∧
      (after.users "alice").isSome = true :=
  ⟨⟨_, rfl, rfl⟩, _, rfl, rfl⟩

end SkyDaemon.Database
