import SkyDaemon.Foundation.Effect
import Mathlib.Logic.Function.Basic

/-! The MariaDB server that the node's admin connection talks to: databases with
their contents, accounts with password and grants, and the documented effect of
each statement the daemon issues. Every statement is auto-committing: it fails
and changes nothing, or takes its whole effect. -/
namespace SkyDaemon.Database

inductive Privileges where
  | only (names : List String)
  | all
  deriving DecidableEq, Repr

/-- An account `'user'@'%'`. Grants are keyed by the database pattern they name. -/
structure User where
  password : String
  grants : String → Option Privileges

structure Server (Contents : Type) where
  databases : String → Option Contents
  users : String → Option User

/-- The statements of `db.rs`. `pass` is the text between the quotes. -/
inductive Statement where
  | createDatabase (name : String)
  | createUser (user pass : String)
  | grantAll (name user : String)
  | dropDatabase (name : String)
  | dropUser (user : String)
  | flushPrivileges
  deriving DecidableEq, Repr

def Statement.sql : Statement → String
  | .createDatabase name => "CREATE DATABASE IF NOT EXISTS \x60" ++ name ++ "\x60"
  | .createUser user pass =>
      "CREATE USER IF NOT EXISTS '" ++ user ++ "'@'%' IDENTIFIED BY '" ++ pass ++ "'"
  | .grantAll name user =>
      "GRANT ALL PRIVILEGES ON \x60" ++ name ++ "\x60.* TO '" ++ user ++ "'@'%'"
  | .dropDatabase name => "DROP DATABASE IF EXISTS \x60" ++ name ++ "\x60"
  | .dropUser user => "DROP USER IF EXISTS '" ++ user ++ "'@'%'"
  | .flushPrivileges => "FLUSH PRIVILEGES"

/-- What a backslash followed by `c` denotes inside a quoted literal. The two
pattern escapes keep their backslash outside pattern-matching contexts. -/
def escapeValue (c : Char) : List Char :=
  match c with
  | '0' => [Char.ofNat 0]
  | 'b' => [Char.ofNat 8]
  | 'n' => [Char.ofNat 10]
  | 'r' => [Char.ofNat 13]
  | 't' => [Char.ofNat 9]
  | 'Z' => [Char.ofNat 26]
  | '%' => ['\\', '%']
  | '_' => ['\\', '_']
  | other => [other]

/-- The value of the literal whose text, without its own quotes, is given. -/
def literalChars : List Char → List Char
  | '\\' :: c :: rest => escapeValue c ++ literalChars rest
  | '\'' :: '\'' :: rest => '\'' :: literalChars rest
  | c :: rest => c :: literalChars rest
  | [] => []

def literalValue (text : String) : String := String.ofList (literalChars text.toList)

variable {Contents : Type} [EmptyCollection Contents]

/-- The documented effect of one statement. `GRANT` refuses an unknown account;
the conditional statements leave an existing, or a missing, object alone. -/
def Statement.execute (server : Server Contents) : Statement → Except String (Server Contents)
  | .createDatabase name => match server.databases name with
      | some _ => .ok server
      | none => .ok { server with
          databases := Function.update server.databases name (some ∅) }
  | .createUser user pass => match server.users user with
      | some _ => .ok server
      | none => .ok { server with
          users := Function.update server.users user (some ⟨literalValue pass, fun _ => none⟩) }
  | .grantAll name user => match server.users user with
      | none => .error "Can't find any matching row in the user table"
      | some account => .ok { server with
          users := Function.update server.users user
            (some { account with grants := Function.update account.grants name (some .all) }) }
  | .dropDatabase name => .ok { server with databases := Function.update server.databases name none }
  | .dropUser user => .ok { server with users := Function.update server.users user none }
  | .flushPrivileges => .ok server

/-- One pattern of failures: whether the pool yields a connection, and which
statements fail with which message. A call issues each statement at most once. -/
structure Faults where
  connect : Option String
  statement : Statement → Option String

/-- `query_drop`: an injected failure or the server's own error changes nothing. -/
def Faults.queryDrop (faults : Faults) (statement : Statement) : Effect (Server Contents) Unit :=
  fun server => match faults.statement statement with
    | some message => (.error message, server)
    | none => match statement.execute server with
        | .ok next => (.ok (), next)
        | .error message => (.error message, server)

def Faults.getConn (faults : Faults) : Effect (Server Contents) Unit :=
  fun server => match faults.connect with
    | some message => (.error message, server)
    | none => (.ok (), server)

theorem Faults.queryDrop_error {faults : Faults} {statement : Statement}
    {server : Server Contents}
    (fails : faults.statement statement = some message) :
    faults.queryDrop statement server = (.error message, server) := by
  simp only [queryDrop, fails]

theorem Faults.queryDrop_ok {faults : Faults} {statement : Statement}
    {server next : Server Contents}
    (clear : faults.statement statement = none) (executed : statement.execute server = .ok next) :
    faults.queryDrop statement server = (.ok (), next) := by
  simp only [queryDrop, clear, executed]

theorem Faults.queryDrop_ok_iff {faults : Faults} {statement : Statement} {server next : Server Contents}
    {done : Unit} : faults.queryDrop statement server = (.ok done, next) ↔
      faults.statement statement = none ∧ statement.execute server = .ok next := by
  constructor
  · intro ran
    simp only [queryDrop] at ran
    split at ran
    · cases ran
    · split at ran
      · cases ran
        exact ⟨‹_›, ‹_›⟩
      · cases ran
  · rintro ⟨clear, executed⟩
    exact queryDrop_ok clear executed

end SkyDaemon.Database
