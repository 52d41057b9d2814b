import SkyDaemon.Database.Server

/-! `DbAdmin` of `db.rs`: identifier validation, literal escaping and the two
provisioning operations over the admin connection. -/
namespace SkyDaemon.Database

/-- `len` counts UTF-8 bytes; the character test is ASCII only. -/
def validateIdent (s : String) (max : Nat) : Except String Unit :=
  if s.isEmpty || s.utf8ByteSize > max then
    .error s!"identifier length must be 1..={max}"
  else if !s.toList.all (fun c => c.isAlphanum || c == '_') then
    .error "identifier may only contain [A-Za-z0-9_]"
  else .ok ()

def replaceChar (target : Char) (replacement text : List Char) : List Char :=
  text.flatMap fun c => if c = target then replacement else [c]

def escapeSqlString (s : String) : String :=
  String.ofList (replaceChar '\'' ['\\', '\''] (replaceChar '\\' ['\\', '\\'] s.toList))

section Operations
variable {Contents : Type} [EmptyCollection Contents] (faults : Faults)

/-- The user and the grant, the part whose failure is compensated. -/
def provisionUser (name user pass : String) : Effect (Server Contents) Unit := do
  (faults.queryDrop (.createUser user pass)).context "create user"
  (faults.queryDrop (.grantAll name user)).context "grant privileges"

def compensate (name user : String) : Effect (Server Contents) Unit := do
  let _ ← (faults.queryDrop (.dropDatabase name)).attempt
  let _ ← (faults.queryDrop (.dropUser user)).attempt

def createDatabase (name user password : String) : Effect (Server Contents) Unit := do
  (Effect.lift (validateIdent name 64)).context "invalid database name"
  (Effect.lift (validateIdent user 32)).context "invalid database user"
  let pass := escapeSqlString password
  faults.getConn.context "connect to MariaDB"
  (faults.queryDrop (.createDatabase name)).context "create database"
  let rest ← (provisionUser faults name user pass).attempt
  match rest with
  | .error e =>
    compensate faults name user
    Effect.fail e
  | .ok () =>
    let _ ← (faults.queryDrop .flushPrivileges).attempt

def deleteDatabase (name user : String) : Effect (Server Contents) Unit := do
  (Effect.lift (validateIdent name 64)).context "invalid database name"
  (Effect.lift (validateIdent user 32)).context "invalid database user"
  faults.getConn.context "connect to MariaDB"
  (faults.queryDrop (.dropDatabase name)).context "drop database"
  let _ ← (faults.queryDrop (.dropUser user)).attempt
  let _ ← (faults.queryDrop .flushPrivileges).attempt

end Operations
end SkyDaemon.Database
