import SkyDaemon.Database.Admin

/-! The error path of `create_database`. The compensating drops undo exactly what
the call did only if neither object was there before: `IF NOT EXISTS` hides a
database or an account that already existed, and the drops destroy it. -/
namespace SkyDaemon.Database

variable {Contents : Type} [EmptyCollection Contents]

/-- The server without the named database and account. -/
def Server.without (server : Server Contents) (name user : String) : Server Contents where
  databases := Function.update server.databases name none
  users := Function.update server.users user none

/-- The failure patterns in which the compensating drops run. -/
def Faults.Compensates (faults : Faults) (name user password : String) : Prop :=
  faults.connect = none ∧ faults.statement (.createDatabase name) = none ∧
    (faults.statement (.createUser user (escapeSqlString password)) ≠ none ∨
      faults.statement (.grantAll name user) ≠ none)

/-- The compensating drops themselves succeed. -/
def Faults.DropsSucceed (faults : Faults) (name user : String) : Prop :=
  faults.statement (.dropDatabase name) = none ∧ faults.statement (.dropUser user) = none

/-- Equality everywhere but at one database and one account, which the drops remove. -/
def Server.AgreeOutside (before after : Server Contents) (name user : String) : Prop :=
  (∀ other, other ≠ name → after.databases other = before.databases other) ∧
    (∀ other, other ≠ user → after.users other = before.users other)

omit [EmptyCollection Contents] in
theorem Server.AgreeOutside.refl (server : Server Contents) (name user : String) :
    server.AgreeOutside server name user :=
  ⟨fun _ _ => rfl, fun _ _ => rfl⟩

omit [EmptyCollection Contents] in
theorem Server.AgreeOutside.trans {first second third : Server Contents}
    (left : first.AgreeOutside second name user) (right : second.AgreeOutside third name user) :
    first.AgreeOutside third name user :=
  ⟨fun other away => (right.1 other away).trans (left.1 other away),
    fun other away => (right.2 other away).trans (left.2 other away)⟩

omit [EmptyCollection Contents] in
theorem Server.AgreeOutside.without_eq {before after : Server Contents}
    (agree : before.AgreeOutside after name user) :
    after.without name user = before.without name user := by
  have databases : Function.update after.databases name none =
      Function.update before.databases name none := by
    funext other
    by_cases same : other = name
    · subst other
      simp only [Function.update_self]
    · simpa only [Function.update_of_ne same] using agree.1 other same
  have users : Function.update after.users user none =
      Function.update before.users user none := by
    funext other
    by_cases same : other = user
    · subst other
      simp only [Function.update_self]
    · simpa only [Function.update_of_ne same] using agree.2 other same
  simp only [Server.without, databases, users]

omit [EmptyCollection Contents] in
theorem Server.without_eq_self_iff (server : Server Contents) (name user : String) :
    server.without name user = server ↔
      server.databases name = none ∧ server.users user = none := by
  constructor
  · intro same
    have database := congrFun (congrArg Server.databases same) name
    have account := congrFun (congrArg Server.users same) user
    simp only [Server.without, Function.update_self] at database account
    exact ⟨database.symm, account.symm⟩
  · rintro ⟨database, account⟩
    have databases : Function.update server.databases name none = server.databases := by
      rw [← database, Function.update_eq_self]
    have users : Function.update server.users user none = server.users := by
      rw [← account, Function.update_eq_self]
    simp only [Server.without, databases, users]

theorem createDatabase_execute (server : Server Contents) (name user : String) :
    ∃ next, (Statement.createDatabase name).execute server = .ok next ∧
      server.AgreeOutside next name user := by
  cases present : server.databases name with
  | some contents =>
    exact ⟨server, by simp only [Statement.execute, present], .refl _ _ _⟩
  | none =>
    refine ⟨{ server with databases := Function.update server.databases name (some ∅) },
      by simp only [Statement.execute, present], ?_, fun _ _ => rfl⟩
    intro other away
    exact Function.update_of_ne away _ _

theorem createUser_execute (server : Server Contents) (name user pass : String) :
    ∃ next account, (Statement.createUser user pass).execute server = .ok next ∧
      next.users user = some account ∧ server.AgreeOutside next name user := by
  cases present : server.users user with
  | some account =>
    exact ⟨server, account, by simp only [Statement.execute, present], present, .refl _ _ _⟩
  | none =>
    let account : User := ⟨literalValue pass, fun _ => none⟩
    refine ⟨{ server with users := Function.update server.users user (some account) }, account,
      by simp only [Statement.execute, present, account], Function.update_self .., fun _ _ => rfl, ?_⟩
    intro other away
    exact Function.update_of_ne away _ _

/-- The user part succeeds exactly when neither of its statements is made to
fail; in every case it touches no other database or account. -/
theorem provisionUser_run (faults : Faults) (server : Server Contents)
    (name user pass : String) :
    ∃ result next, provisionUser faults name user pass server = (result, next) ∧
      server.AgreeOutside next name user ∧
      (result.isOk = true ↔ faults.statement (.createUser user pass) = none ∧
        faults.statement (.grantAll name user) = none) := by
  cases created : faults.statement (.createUser user pass) with
  | some message =>
    refine ⟨_, _, Effect.bind_run_error
      (Effect.context_run_error (faults.queryDrop_error created)), .refl _ _ _, ?_⟩
    simp [Except.isOk, Except.toBool]
  | none =>
    obtain ⟨next, account, executed, present, agree⟩ := createUser_execute server name user pass
    have first : (faults.queryDrop (.createUser user pass)).context "create user" server =
        (.ok (), next) := Effect.context_run_ok (Faults.queryDrop_ok created executed)
    cases granted : faults.statement (.grantAll name user) with
    | some message =>
      refine ⟨_, _, (Effect.bind_run_ok first).trans
        (Effect.context_run_error (faults.queryDrop_error granted)), agree, ?_⟩
      simp [Except.isOk, Except.toBool]
    | none =>
      let owner : User := { account with grants := Function.update account.grants name (some .all) }
      have second : (Statement.grantAll name user).execute next =
          .ok { next with users := Function.update next.users user (some owner) } := by
        simp only [Statement.execute, present, owner]
      refine ⟨_, _, (Effect.bind_run_ok first).trans (Effect.context_run_ok
        (Faults.queryDrop_ok granted second)),
        agree.trans ⟨fun _ _ => rfl, ?_⟩, by simp [Except.isOk, Except.toBool]⟩
      intro other away
      exact Function.update_of_ne away _ _

theorem compensate_run (faults : Faults) (server : Server Contents)
    (drops : faults.DropsSucceed name user) :
    compensate faults name user server = (.ok (), server.without name user) := by
  have first : (faults.queryDrop (.dropDatabase name)).attempt server =
      (.ok (.ok ()), { server with databases := Function.update server.databases name none }) := by
    simp only [Effect.attempt_run, Faults.queryDrop_ok drops.1 rfl]
  refine (Effect.bind_run_ok first).trans ?_
  refine (Effect.bind_run_ok (a := .ok ()) (t := server.without name user) ?_).trans rfl
  simp only [Effect.attempt_run, Faults.queryDrop_ok drops.2 rfl]
  rfl

/-- Valid names are passed on. -/
theorem validated_run {S : Type} {next : Unit → Effect S Unit} {server : S}
    (validName : validateIdent name 64 = .ok ()) (validUser : validateIdent user 32 = .ok ()) :
    ((Effect.lift (validateIdent name 64)).context "invalid database name" >>= fun _ =>
      (Effect.lift (validateIdent user 32)).context "invalid database user" >>= next) server =
        next () server := by
  have passes {e : Except String Unit} {label : String} (valid : e = .ok ()) :
      (Effect.lift e).context label server = (.ok (), server) :=
    Effect.context_run_ok (by rw [Effect.lift_run, valid])
  exact (Effect.bind_run_ok (passes validName)).trans (Effect.bind_run_ok (passes validUser))

/-- Past the connection and the first statement, the call is the user part
followed by the compensation on error. -/
theorem createDatabase_outcome (faults : Faults) (before : Server Contents) (password : String)
    (validName : validateIdent name 64 = .ok ()) (validUser : validateIdent user 32 = .ok ())
    (drops : faults.DropsSucceed name user) :
    (faults.Compensates name user password ∧
      ∃ e, createDatabase faults name user password before = (.error e, before.without name user)) ∨
    (¬ faults.Compensates name user password ∧
      ∃ result after, createDatabase faults name user password before = (result, after) ∧
        (result.isOk = false → after = before)) := by
  unfold createDatabase
  rw [validated_run validName validUser]
  cases connected : faults.connect with
  | some message =>
    refine .inr ⟨fun run => by simp [Faults.Compensates, connected] at run, _, _,
      Effect.bind_run_error (Effect.context_run_error (e := message) ?_), fun _ => rfl⟩
    simp only [Faults.getConn, connected]
  | none =>
    have conn : (faults.getConn.context "connect to MariaDB") before = (.ok (), before) :=
      Effect.context_run_ok (by simp only [Faults.getConn, connected])
    rw [Effect.bind_run_ok conn]
    cases first : faults.statement (.createDatabase name) with
    | some message =>
      exact .inr ⟨fun run => by simp [Faults.Compensates, first] at run, _, _,
        Effect.bind_run_error (Effect.context_run_error (faults.queryDrop_error first)),
        fun _ => rfl⟩
    | none =>
      obtain ⟨created, executed, agreeCreated⟩ := createDatabase_execute before name user
      rw [Effect.bind_run_ok (Effect.context_run_ok (Faults.queryDrop_ok first executed))]
      obtain ⟨result, next, provisioned, agreeNext, succeeded⟩ :=
        provisionUser_run faults created name user (escapeSqlString password)
      have attempted : (provisionUser faults name user (escapeSqlString password)).attempt created =
          (.ok result, next) := by
        rw [Effect.attempt_run, provisioned]
      rw [Effect.bind_run_ok attempted]
      cases result with
      | ok _ =>
        have clear := succeeded.mp rfl
        refine .inr ⟨?_, .ok (), _, Effect.bind_run_ok rfl, fun failed => by contradiction⟩
        rintro ⟨_, _, failed | failed⟩
        · exact failed clear.1
        · exact failed clear.2
      | error e =>
        have rolled : next.without name user = before.without name user :=
          (agreeCreated.trans agreeNext).without_eq
        refine .inl ⟨⟨connected, first, ?_⟩, e, ?_⟩
        · by_contra clear
          simp only [not_or, not_not] at clear
          have : (Except.error e : Except String Unit).isOk = true := succeeded.mpr clear
          contradiction
        · rw [← rolled]
          exact Effect.bind_run_ok (compensate_run faults next drops)

/-- An error leaves the server as it was exactly when the compensation does not
run, or neither the database nor the account existed before the call. -/
theorem createDatabase_error_restores_iff (faults : Faults) (before : Server Contents)
    (name user password : String)
    (validName : validateIdent name 64 = .ok ()) (validUser : validateIdent user 32 = .ok ())
    (drops : faults.DropsSucceed name user) :
    (∀ e after, createDatabase faults name user password before = (.error e, after) →
      after = before) ↔
    (faults.Compensates name user password →
      before.databases name = none ∧ before.users user = none) := by
  rcases createDatabase_outcome faults before password validName validUser drops with
    ⟨compensates, e, ran⟩ | ⟨spared, result, after, ran, kept⟩
  · simp only [ran, Prod.mk.injEq, Except.error.injEq, compensates, forall_const]
    rw [← Server.without_eq_self_iff]
    constructor
    · intro restored
      exact restored e _ ⟨rfl, rfl⟩
    · rintro same _ _ ⟨_, rfl⟩
      exact same
  · simp only [ran, Prod.mk.injEq]
    constructor
    · intro _ compensates
      exact absurd compensates spared
    · rintro _ e after' ⟨rfl, rfl⟩
      exact kept rfl

/-- A node with one customer database and no account of the new user's name. -/
def customerServer : Server (List String) where
  databases := fun name => if name = "shop" then some ["orders"] else none
  users := fun _ => none

/-- The account cannot be created; every other statement succeeds. -/
def accountFault : Faults where
  connect := none
  statement := fun
    | .createUser _ _ => some "access denied"
    | _ => none

theorem createDatabase_error_restores_unused_name :
    ∃ after, createDatabase accountFault "fresh" "alice" "secret" customerServer =
      (.error "create user", after) ∧ after = customerServer := by
  have restores := (createDatabase_error_restores_iff accountFault customerServer "fresh" "alice" "secret"
    rfl rfl ⟨rfl, rfl⟩).mpr fun _ => ⟨rfl, rfl⟩
  exact ⟨_, rfl, restores _ _ rfl⟩

/-- The retried command's database is destroyed with its contents. -/
theorem createDatabase_error_destroys_existing :
    validateIdent "shop" 64 = .ok () ∧ validateIdent "alice" 32 = .ok () ∧
    accountFault.DropsSucceed "shop" "alice" ∧
    customerServer.databases "shop" = some ["orders"] ∧
    ∃ after, createDatabase accountFault "shop" "alice" "secret" customerServer =
      (.error "create user", after) ∧ after.databases "shop" = none ∧ after ≠ customerServer := by
  refine ⟨rfl, rfl, ⟨rfl, rfl⟩, rfl, _, rfl, rfl, ?_⟩
  intro same
  have lost := congrFun (congrArg Server.databases same) "shop"
  contradiction

end SkyDaemon.Database
