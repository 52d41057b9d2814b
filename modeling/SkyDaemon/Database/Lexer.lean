import Mathlib.Data.List.Basic
import SkyDaemon.Database.Admin

/-! How MariaDB takes a statement apart under its default mode: words, quoted identifiers, text
literals with backslash escapes and doubled quotes, and single symbols. The statements of the
daemon come out as their keywords with the names, the account and the password in place. -/
namespace SkyDaemon.Database

inductive Token where
  | word (text : String)
  /-- An identifier between backticks. -/
  | identifier (name : String)
  /-- A literal; account names are written as literals, too. -/
  | text (value : String)
  | symbol (c : Char)
  deriving DecidableEq, Repr

/-! ## The lexer -/

def backtick : Char := '\x60'

def isSpace (c : Char) : Bool := c.toNat = 32 || (9 ≤ c.toNat && c.toNat ≤ 13)

/-- Characters of an unquoted word. -/
def isWordChar (c : Char) : Bool := c.isAlphanum || c == '_' || c == '$' || 128 ≤ c.toNat

/-- Reads up to the closing quote: the value and what follows. A doubled quote stands for one
quote, and a backslash escapes where it is not an identifier. -/
def readQuoted (escapes : Bool) (quote : Char) : List Char → Option (List Char × List Char)
  | [] => none
  | [c] => if c = quote then some ([], []) else none
  | c :: next :: rest =>
      if escapes ∧ c = '\\' then (readQuoted escapes quote rest).map (.map (escapeValue next ++ ·) id)
      else if c = quote then
        if next = quote then (readQuoted escapes quote rest).map (.map (quote :: ·) id)
        else some ([], next :: rest)
      else (readQuoted escapes quote (next :: rest)).map (.map (c :: ·) id)

/-- The rest behind a bracketed comment. -/
def skipComment : List Char → Option (List Char)
  | '*' :: '/' :: rest => some rest
  | _ :: rest => skipComment rest
  | [] => none

/-- `--` opens a comment only before white space or at the end. -/
def dashComment (rest : List Char) : Bool :=
  match rest with
  | ['-'] => true
  | '-' :: c :: _ => isSpace c
  | _ => false

/-- One token in each round; a quote or a comment that is not closed is an error. -/
def lexLoop : Nat → List Char → Option (List Token)
  | _, [] => some []
  | 0, _ => none
  | fuel + 1, c :: rest =>
      if isSpace c then lexLoop fuel rest
      else if c = '\'' ∨ c = '"' then do
        let (value, tail) ← readQuoted true c rest
        (lexLoop fuel tail).map (.text (String.ofList value) :: ·)
      else if c = backtick then do
        let (name, tail) ← readQuoted false c rest
        (lexLoop fuel tail).map (.identifier (String.ofList name) :: ·)
      else if isWordChar c then
        (lexLoop fuel (rest.dropWhile isWordChar)).map (.word (String.ofList (c :: rest.takeWhile isWordChar)) :: ·)
      else if c = '#' ∨ (c = '-' ∧ dashComment rest) then lexLoop fuel (rest.dropWhile (· ≠ '\n'))
      else if c = '/' ∧ rest.head? = some '*' then (skipComment rest.tail).bind (lexLoop fuel)
      else (lexLoop fuel rest).map (.symbol c :: ·)

def lex (sql : String) : Option (List Token) := lexLoop sql.toList.length sql.toList

/-! ## Quoted text -/

theorem readQuoted_close (escapes : Bool) {quote : Char} (plain : quote ≠ '\\') {rest : List Char}
    (ends : rest.head? ≠ some quote) : readQuoted escapes quote (quote :: rest) = some ([], rest) := by
  cases rest with
  | nil => simp [readQuoted]
  | cons next rest =>
    have other : next ≠ quote := by simpa using ends
    simp [readQuoted, plain, other]

theorem readQuoted_plain {escapes : Bool} {quote c : Char} (unescaped : escapes = true → c ≠ '\\') (other : c ≠ quote)
    {rest : List Char} (more : rest ≠ []) :
    readQuoted escapes quote (c :: rest) = (readQuoted escapes quote rest).map (.map (c :: ·) id) := by
  obtain ⟨next, rest, rfl⟩ := List.exists_cons_of_ne_nil more
  rw [readQuoted, if_neg fun escaped => unescaped escaped.1 escaped.2, if_neg other]

/-- Text without the quote, and without a backslash where that escapes, is its own value. -/
theorem readQuoted_body {escapes : Bool} {quote : Char} (plain : quote ≠ '\\') {body rest : List Char}
    (unescaped : ∀ c ∈ body, escapes = true → c ≠ '\\') (free : ∀ c ∈ body, c ≠ quote)
    (ends : rest.head? ≠ some quote) : readQuoted escapes quote (body ++ quote :: rest) = some (body, rest) := by
  induction body with
  | nil => exact readQuoted_close escapes plain ends
  | cons c body ih =>
    have following := ih (fun c member => unescaped c (List.mem_cons_of_mem _ member))
      (fun c member => free c (List.mem_cons_of_mem _ member))
    rw [List.cons_append, readQuoted_plain (unescaped c List.mem_cons_self) (free c List.mem_cons_self) (by simp),
      following]
    rfl

/-- A literal that is read to its closing quote has the value that the server takes it for. -/
theorem literalChars_of_readQuoted {body value : List Char}
    (reads : readQuoted true '\'' (body ++ ['\'']) = some (value, [])) : literalChars body = value := by
  fun_induction literalChars body generalizing value with
  | case1 c rest ih =>
    rw [List.cons_append, List.cons_append, readQuoted, if_pos ⟨rfl, rfl⟩] at reads
    obtain ⟨⟨inner, tail⟩, read, same⟩ := Option.map_eq_some_iff.mp reads
    cases same
    rw [ih read]
  | case2 rest ih =>
    rw [List.cons_append, List.cons_append, readQuoted, if_neg (by decide), if_pos rfl, if_pos rfl] at reads
    obtain ⟨⟨inner, tail⟩, read, same⟩ := Option.map_eq_some_iff.mp reads
    cases same
    rw [ih read]
  | case3 c rest notEscape notDoubled ih =>
    cases rest with
    | nil =>
      -- the character in front of the closing quote can be neither a backslash nor a quote
      by_cases quote : c = '\''
      · subst quote
        simp [readQuoted] at reads
      · by_cases backslash : c = '\\'
        · subst backslash
          simp [readQuoted] at reads
        · simpa [readQuoted, quote, backslash, literalChars] using reads
    | cons next rest =>
      have plain : c ≠ '\\' := fun backslash => notEscape next rest backslash rfl
      rw [List.cons_append, List.cons_append, readQuoted, if_neg fun escaped => plain escaped.2] at reads
      split at reads
      · rename_i quote
        split at reads
        · rename_i doubled
          exact (notDoubled rest quote (by rw [doubled])).elim
        · cases reads
      · obtain ⟨⟨inner, tail⟩, read, same⟩ := Option.map_eq_some_iff.mp reads
        cases same
        rw [ih read]
  | case4 =>
    cases reads
    rfl

/-- What the two replacements make of one character. -/
def escapeChar (c : Char) : List Char := if c = '\\' then ['\\', '\\'] else if c = '\'' then ['\\', '\''] else [c]

theorem escapeSqlString_toList (s : String) : (escapeSqlString s).toList = s.toList.flatMap escapeChar := by
  rw [escapeSqlString, String.toList_ofList, replaceChar, replaceChar, List.flatMap_assoc]
  apply List.flatMap_congr
  intro c _
  by_cases backslash : c = '\\'
  · simp [escapeChar, backslash]
  · by_cases quote : c = '\'' <;> simp [escapeChar, backslash, quote]

/-- An escaped text ends at the quote behind it and nowhere before. -/
theorem readQuoted_escaped (text : List Char) {rest : List Char} (ends : rest.head? ≠ some '\'') :
    readQuoted true '\'' (text.flatMap escapeChar ++ '\'' :: rest) = some (text, rest) := by
  induction text with
  | nil => exact readQuoted_close true (by decide) ends
  | cons c text ih =>
    rw [List.flatMap_cons, List.append_assoc]
    by_cases backslash : c = '\\'
    · subst backslash
      simp [escapeChar, readQuoted, ih, escapeValue]
    · by_cases quote : c = '\''
      · subst quote
        simp [escapeChar, readQuoted, ih, escapeValue]
      · have alone : escapeChar c = [c] := by simp [escapeChar, backslash, quote]
        rw [alone, List.singleton_append, readQuoted_plain (fun _ => backslash) quote (by simp), ih]
        rfl

/-- The words of the statements. -/
def sqlKeywords : List String :=
  ["CREATE", "DATABASE", "IF", "NOT", "EXISTS", "USER", "IDENTIFIED", "BY", "GRANT", "ALL", "PRIVILEGES", "ON", "TO",
    "DROP", "FLUSH"]

theorem sqlKeywords_upper {name : String} (known : name ∈ sqlKeywords) :
    name ≠ "" ∧ ∀ c ∈ name.toList, c.isUpper = true := by
  have all : sqlKeywords.all (fun name => name != "" && name.toList.all Char.isUpper) = true := by decide +kernel
  simpa using List.all_eq_true.mp all name known

/-! ## Composition -/

/-- The input comes apart into the tokens, with any fuel that covers it. -/
def Lexes (input : List Char) (tokens : List Token) : Prop :=
  ∀ fuel, input.length ≤ fuel → lexLoop fuel input = some tokens

theorem Lexes.lex (lexes : Lexes sql.toList tokens) : lex sql = some tokens := lexes _ (Nat.le_refl _)

namespace Lexes

theorem nil : Lexes [] [] := by
  intro fuel _
  cases fuel <;> rfl

/-- A first round that leaves some of what follows it. -/
theorem of_step {c : Char} {rest tail : List Char} (shorter : tail.length ≤ rest.length) (lexes : Lexes tail tokens)
    (step : ∀ fuel, lexLoop fuel tail = some tokens → lexLoop (fuel + 1) (c :: rest) = some result) :
    Lexes (c :: rest) result := by
  intro fuel enough
  rw [List.length_cons] at enough
  obtain ⟨fuel, rfl⟩ : ∃ n, fuel = n + 1 := ⟨fuel - 1, by omega⟩
  exact step fuel (lexes fuel (by omega))

theorem space (lexes : Lexes rest tokens) : Lexes (' ' :: rest) tokens := by
  apply of_step (Nat.le_refl _) lexes
  intro fuel following
  rw [lexLoop, if_pos (by decide), following]

theorem symbol {c : Char} (single : c = '.' ∨ c = '*' ∨ c = '@') (lexes : Lexes rest tokens) :
    Lexes (c :: rest) (.symbol c :: tokens) := by
  apply of_step (Nat.le_refl _) lexes
  intro fuel following
  rcases single with rfl | rfl | rfl <;> simp [lexLoop, following, isSpace, backtick, isWordChar]

/-- A word goes on to the first character that cannot be part of it. -/
theorem word {c : Char} {word rest : List Char}
    (opens : isSpace c = false ∧ c ≠ '\'' ∧ c ≠ '"' ∧ c ≠ backtick ∧ isWordChar c = true)
    (spelled : ∀ d ∈ word, isWordChar d = true) (ends : ∀ d, rest.head? = some d → isWordChar d = false)
    (lexes : Lexes rest tokens) : Lexes (c :: (word ++ rest)) (.word (String.ofList (c :: word)) :: tokens) := by
  have stops : rest.takeWhile isWordChar = [] ∧ rest.dropWhile isWordChar = rest := by
    cases rest with
    | nil => exact ⟨rfl, rfl⟩
    | cons d rest =>
      have other := ends d rfl
      simp [other]
  obtain ⟨notSpace, notQuote, notDouble, notBacktick, first⟩ := opens
  apply of_step (by simp) lexes
  intro fuel following
  rw [lexLoop, if_neg (by simp [notSpace]), if_neg (by simp [notQuote, notDouble]), if_neg notBacktick, if_pos first,
    List.dropWhile_append_of_pos spelled, List.takeWhile_append_of_pos spelled, stops.1, stops.2, following,
    List.append_nil]
  rfl

theorem opens_of_upper {c : Char} (upper : c.isUpper = true) :
    isSpace c = false ∧ c ≠ '\'' ∧ c ≠ '"' ∧ c ≠ backtick ∧ isWordChar c = true := by
  have range : 65 ≤ c.toNat ∧ c.toNat ≤ 90 := by
    have between := of_decide_eq_true upper
    exact ⟨UInt32.le_iff_toNat_le.mp between.1, UInt32.le_iff_toNat_le.mp between.2⟩
  have other {d : Char} (outside : d.toNat < 65 ∨ 90 < d.toNat) : c ≠ d := by
    rintro rfl
    omega
  refine ⟨?_, other (by decide), other (by decide), other (by decide), ?_⟩
  · simp only [isSpace, Bool.or_eq_false_iff, Bool.and_eq_false_iff, decide_eq_false_iff_not]
    omega
  · have letter : c.isAlphanum = true := by
      change (c.isUpper || c.isLower || c.isDigit) = true
      rw [upper]
      rfl
    simp [isWordChar, letter]

theorem keyword {name : String} (known : name ∈ sqlKeywords) (ends : ∀ d, rest.head? = some d → isWordChar d = false)
    (lexes : Lexes rest tokens) : Lexes (name.toList ++ rest) (.word name :: tokens) := by
  obtain ⟨stated, capitals⟩ := sqlKeywords_upper known
  obtain ⟨c, letters, spelled⟩ : ∃ c letters, name.toList = c :: letters :=
    List.exists_cons_of_ne_nil fun empty => stated (String.toList_inj.mp empty)
  have whole : name = String.ofList (c :: letters) := by rw [← spelled, String.ofList_toList]
  rw [spelled] at capitals ⊢
  rw [whole]
  exact Lexes.word (opens_of_upper (capitals c List.mem_cons_self))
    (fun d member => (opens_of_upper (capitals d (List.mem_cons_of_mem _ member))).2.2.2.2) ends lexes

/-- Keywords, each with a space behind it. -/
theorem keywords (names : List String) (known : names ⊆ sqlKeywords) (lexes : Lexes rest tokens) :
    Lexes (names.flatMap (fun name => name.toList ++ [' ']) ++ rest) (names.map .word ++ tokens) := by
  induction names with
  | nil => exact lexes
  | cons name names ih =>
    have following := ih (List.subset_of_cons_subset known)
    have first := keyword (known List.mem_cons_self) (by rintro d ⟨⟩; rfl) following.space
    simpa using first

theorem text {body value rest : List Char} (reads : readQuoted true '\'' (body ++ '\'' :: rest) = some (value, rest))
    (lexes : Lexes rest tokens) :
    Lexes ('\'' :: (body ++ '\'' :: rest)) (.text (String.ofList value) :: tokens) := by
  apply of_step (by simp; omega) lexes
  intro fuel following
  rw [lexLoop, if_neg (by decide), if_pos (.inl rfl), reads]
  simp [following]

theorem identifier {name rest : List Char} (free : ∀ c ∈ name, c ≠ backtick) (ends : rest.head? ≠ some backtick)
    (lexes : Lexes rest tokens) :
    Lexes (backtick :: (name ++ backtick :: rest)) (.identifier (String.ofList name) :: tokens) := by
  apply of_step (by simp; omega) lexes
  intro fuel following
  rw [lexLoop, if_neg (by decide), if_neg (by decide), if_pos rfl,
    readQuoted_body (by decide) (by simp) free ends]
  simp [following]

/-- An account of any host. -/
theorem account {user rest : List Char} (plain : ∀ c ∈ user, c ≠ '\\' ∧ c ≠ '\'') (ends : rest.head? ≠ some '\'')
    (lexes : Lexes rest tokens) :
    Lexes ('\'' :: (user ++ '\'' :: '@' :: '\'' :: '%' :: '\'' :: rest))
      (.text (String.ofList user) :: .symbol '@' :: .text "%" :: tokens) := by
  have host : Lexes ('\'' :: (['%'] ++ '\'' :: rest)) (.text (String.ofList ['%']) :: tokens) :=
    text (readQuoted_body (by decide) (by simp) (by simp) ends) lexes
  apply text _ (symbol (.inr (.inr rfl)) host)
  exact readQuoted_body (by decide) (fun c member _ => (plain c member).1) (fun c member => (plain c member).2)
    (by simp)

end Lexes

/-! ## The statements -/

theorem validateIdent_plain {limit : Nat} (valid : validateIdent s limit = .ok ()) :
    ∀ c ∈ s.toList, c ≠ '\\' ∧ c ≠ '\'' ∧ c ≠ backtick := by
  unfold validateIdent at valid
  split at valid
  · cases valid
  · split at valid
    · cases valid
    · rename_i allowed
      simp only [Bool.not_eq_true', Bool.not_eq_false, List.all_eq_true] at allowed
      intro c member
      have letter := allowed c member
      refine ⟨?_, ?_, ?_⟩ <;> rintro rfl <;> contradiction

/-- The tokens that each statement stands for. -/
def Statement.tokens (password : String) : Statement → List Token
  | .createDatabase name =>
      [.word "CREATE", .word "DATABASE", .word "IF", .word "NOT", .word "EXISTS", .identifier name]
  | .createUser user _ =>
      [.word "CREATE", .word "USER", .word "IF", .word "NOT", .word "EXISTS", .text user, .symbol '@', .text "%",
        .word "IDENTIFIED", .word "BY", .text password]
  | .grantAll name user =>
      [.word "GRANT", .word "ALL", .word "PRIVILEGES", .word "ON", .identifier name, .symbol '.', .symbol '*',
        .word "TO", .text user, .symbol '@', .text "%"]
  | .dropDatabase name => [.word "DROP", .word "DATABASE", .word "IF", .word "EXISTS", .identifier name]
  | .dropUser user => [.word "DROP", .word "USER", .word "IF", .word "EXISTS", .text user, .symbol '@', .text "%"]
  | .flushPrivileges => [.word "FLUSH", .word "PRIVILEGES"]

section Statements
variable {name user : String}

theorem createDatabase_lexes (plain : ∀ c ∈ name.toList, c ≠ backtick) (password : String) :
    lex (Statement.createDatabase name).sql = some ((Statement.createDatabase name).tokens password) := by
  have lexed := Lexes.keywords ["CREATE", "DATABASE", "IF", "NOT", "EXISTS"] (by simp [sqlKeywords])
    (Lexes.identifier plain (by simp) Lexes.nil)
  have written : Lexes ("CREATE DATABASE IF NOT EXISTS \x60" ++ name ++ "\x60").toList
      ((Statement.createDatabase name).tokens password) := by
    simpa [Statement.tokens, backtick] using lexed
  exact written.lex

theorem dropDatabase_lexes (plain : ∀ c ∈ name.toList, c ≠ backtick) (password : String) :
    lex (Statement.dropDatabase name).sql = some ((Statement.dropDatabase name).tokens password) := by
  have lexed := Lexes.keywords ["DROP", "DATABASE", "IF", "EXISTS"] (by simp [sqlKeywords])
    (Lexes.identifier plain (by simp) Lexes.nil)
  have written : Lexes ("DROP DATABASE IF EXISTS \x60" ++ name ++ "\x60").toList
      ((Statement.dropDatabase name).tokens password) := by
    simpa [Statement.tokens, backtick] using lexed
  exact written.lex

theorem dropUser_lexes (plain : ∀ c ∈ user.toList, c ≠ '\\' ∧ c ≠ '\'') (password : String) :
    lex (Statement.dropUser user).sql = some ((Statement.dropUser user).tokens password) := by
  have lexed := Lexes.keywords ["DROP", "USER", "IF", "EXISTS"] (by simp [sqlKeywords])
    (Lexes.account plain (by simp) Lexes.nil)
  have written : Lexes ("DROP USER IF EXISTS '" ++ user ++ "'@'%'").toList
      ((Statement.dropUser user).tokens password) := by
    simpa [Statement.tokens] using lexed
  exact written.lex

theorem grantAll_lexes (plainName : ∀ c ∈ name.toList, c ≠ backtick)
    (plainUser : ∀ c ∈ user.toList, c ≠ '\\' ∧ c ≠ '\'') (password : String) :
    lex (Statement.grantAll name user).sql = some ((Statement.grantAll name user).tokens password) := by
  have grantee := Lexes.keywords ["TO"] (by simp [sqlKeywords]) (Lexes.account plainUser (by simp) Lexes.nil)
  have target := Lexes.identifier plainName (by simp [backtick])
    (Lexes.symbol (.inl rfl) (Lexes.symbol (.inr (.inl rfl)) grantee.space))
  have lexed := Lexes.keywords ["GRANT", "ALL", "PRIVILEGES", "ON"] (by simp [sqlKeywords]) target
  have written : Lexes ("GRANT ALL PRIVILEGES ON \x60" ++ name ++ "\x60.* TO '" ++ user ++ "'@'%'").toList
      ((Statement.grantAll name user).tokens password) := by
    simpa [Statement.tokens, backtick] using lexed
  exact written.lex

/-- The literal ends at the statement's own closing quote. -/
theorem password_read (password : String) :
    readQuoted true '\'' ((escapeSqlString password).toList ++ ['\'']) = some (password.toList, []) := by
  rw [escapeSqlString_toList]
  exact readQuoted_escaped password.toList (by simp)

/-- The server reads back the text that was escaped. -/
theorem literalValue_escapeSqlString (password : String) : literalValue (escapeSqlString password) = password := by
  rw [literalValue, literalChars_of_readQuoted (password_read password), String.ofList_toList]

theorem createUser_lexes (plain : ∀ c ∈ user.toList, c ≠ '\\' ∧ c ≠ '\'') (password : String) :
    lex (Statement.createUser user (escapeSqlString password)).sql =
      some ((Statement.createUser user (escapeSqlString password)).tokens password) := by
  have secret := Lexes.keywords ["IDENTIFIED", "BY"] (by simp [sqlKeywords])
    (Lexes.text (password_read password) Lexes.nil)
  have lexed := Lexes.keywords ["CREATE", "USER", "IF", "NOT", "EXISTS"] (by simp [sqlKeywords])
    (Lexes.account plain (by simp) secret.space)
  have written : Lexes ("CREATE USER IF NOT EXISTS '" ++ user ++ "'@'%' IDENTIFIED BY '" ++
      escapeSqlString password ++ "'").toList
      ((Statement.createUser user (escapeSqlString password)).tokens password) := by
    simpa [Statement.tokens] using lexed
  exact written.lex

theorem flushPrivileges_lexes (password : String) :
    lex Statement.flushPrivileges.sql = some (Statement.flushPrivileges.tokens password) := by
  have last := Lexes.keyword (show "PRIVILEGES" ∈ sqlKeywords by simp [sqlKeywords]) (by simp) Lexes.nil
  have lexed := Lexes.keywords ["FLUSH"] (by simp [sqlKeywords]) last
  have written : Lexes "FLUSH PRIVILEGES".toList (Statement.flushPrivileges.tokens password) := by
    simpa [Statement.tokens] using lexed
  exact written.lex

end Statements

/-! ## What the operations issue -/

/-- The statements of `create_database`, its compensation among them. -/
def createStatements (name user password : String) : List Statement :=
  [.createDatabase name, .createUser user (escapeSqlString password), .grantAll name user, .dropDatabase name,
    .dropUser user, .flushPrivileges]

def deleteStatements (name user : String) : List Statement := [.dropDatabase name, .dropUser user, .flushPrivileges]

/-- Both connections answer the listed statements alike; they may differ on every other one. -/
def Faults.Agree (queries : List Statement) (first second : Faults) : Prop :=
  first.connect = second.connect ∧ ∀ query ∈ queries, first.statement query = second.statement query

section Operations
variable {Contents : Type} [EmptyCollection Contents]

theorem Faults.Agree.queryDrop (agree : Agree queries first second) :
    ∀ query ∈ queries, (first.queryDrop query : Effect (Server Contents) Unit) = second.queryDrop query := by
  intro query member
  funext server
  simp only [Faults.queryDrop, agree.2 query member]

omit [EmptyCollection Contents] in
theorem Faults.Agree.getConn (agree : Agree queries first second) :
    (first.getConn : Effect (Server Contents) Unit) = second.getConn := by
  funext server
  simp only [Faults.getConn, agree.1]

theorem createDatabase_congr {first second : Faults} {name user password : String}
    (agree : first.Agree (createStatements name user password) second) :
    (createDatabase first name user password : Effect (Server Contents) Unit) =
      createDatabase second name user password := by
  have same : ∀ query ∈ createStatements name user password,
      (first.queryDrop query : Effect (Server Contents) Unit) = second.queryDrop query := agree.queryDrop
  simp only [createStatements, List.forall_mem_cons] at same
  obtain ⟨create, account, grant, drop, remove, flush, -⟩ := same
  simp only [createDatabase, provisionUser, compensate, agree.getConn, create, account, grant, drop, remove, flush]

theorem deleteDatabase_congr {first second : Faults} {name user : String}
    (agree : first.Agree (deleteStatements name user) second) :
    (deleteDatabase first name user : Effect (Server Contents) Unit) = deleteDatabase second name user := by
  have same : ∀ query ∈ deleteStatements name user,
      (first.queryDrop query : Effect (Server Contents) Unit) = second.queryDrop query := agree.queryDrop
  simp only [deleteStatements, List.forall_mem_cons] at same
  obtain ⟨drop, remove, flush, -⟩ := same
  simp only [deleteDatabase, agree.getConn, drop, remove, flush]

end Operations

theorem statements_lex {name user : String} (validName : validateIdent name 64 = .ok ())
    (validUser : validateIdent user 32 = .ok ()) (password : String) :
    ∀ query ∈ createStatements name user password ++ deleteStatements name user,
      lex query.sql = some (query.tokens password) := by
  have plainName : ∀ c ∈ name.toList, c ≠ backtick := fun c member => (validateIdent_plain validName c member).2.2
  have plainUser : ∀ c ∈ user.toList, c ≠ '\\' ∧ c ≠ '\'' := fun c member =>
    ⟨(validateIdent_plain validUser c member).1, (validateIdent_plain validUser c member).2.1⟩
  have drops : ∀ query ∈ deleteStatements name user, lex query.sql = some (query.tokens password) := by
    simp only [deleteStatements, List.forall_mem_cons]
    exact ⟨dropDatabase_lexes plainName password, dropUser_lexes plainUser password, flushPrivileges_lexes password,
      by simp⟩
  have creates : createStatements name user password =
      [.createDatabase name, .createUser user (escapeSqlString password), .grantAll name user] ++
        deleteStatements name user := rfl
  rw [creates, List.append_assoc]
  simp only [List.forall_mem_append, List.forall_mem_cons]
  exact ⟨⟨createDatabase_lexes plainName password, createUser_lexes plainUser password,
    grantAll_lexes plainName plainUser password, by simp⟩, drops, drops⟩

/-- No password and no accepted name breaks out of a statement: each one comes apart into its own
keywords, names and account, the password is one literal that ends with the statement, and the two
operations depend on no other statement. -/
theorem statements_hold_their_tokens (Contents : Type) [EmptyCollection Contents] {name user : String}
    (validName : validateIdent name 64 = .ok ()) (validUser : validateIdent user 32 = .ok ()) (password : String) :
    (∀ query ∈ createStatements name user password ++ deleteStatements name user,
      lex query.sql = some (query.tokens password)) ∧
    (∃ opening, (Statement.createUser user (escapeSqlString password)).sql.toList =
        opening ++ '\'' :: ((escapeSqlString password).toList ++ ['\'']) ∧
      readQuoted true '\'' ((escapeSqlString password).toList ++ ['\'']) = some (password.toList, [])) ∧
    (∀ first second : Faults, first.Agree (createStatements name user password) second →
      (createDatabase first name user password : Effect (Server Contents) Unit) =
        createDatabase second name user password) ∧
    ∀ first second : Faults, first.Agree (deleteStatements name user) second →
      (deleteDatabase first name user : Effect (Server Contents) Unit) = deleteDatabase second name user := by
  refine ⟨statements_lex validName validUser password, ?_, fun _ _ => createDatabase_congr,
    fun _ _ => deleteDatabase_congr⟩
  have written : ("CREATE USER IF NOT EXISTS '" ++ user ++ "'@'%' IDENTIFIED BY '" ++ escapeSqlString password ++
      "'").toList = ("CREATE USER IF NOT EXISTS '" ++ user ++ "'@'%' IDENTIFIED BY ").toList ++
        '\'' :: ((escapeSqlString password).toList ++ ['\'']) := by
    simp
  exact ⟨_, written, password_read password⟩

/-- A password that tries to close its literal. -/
theorem quoting_password_stays_literal :
    validateIdent "shop" 64 = .ok () ∧ validateIdent "alice" 32 = .ok () ∧
      lex (Statement.createUser "alice" (escapeSqlString "\\' OR ''='\\")).sql =
        some [.word "CREATE", .word "USER", .word "IF", .word "NOT", .word "EXISTS", .text "alice", .symbol '@',
          .text "%", .word "IDENTIFIED", .word "BY", .text "\\' OR ''='\\"] := by
  have validName : validateIdent "shop" 64 = .ok () := by decide +kernel
  have validUser : validateIdent "alice" 32 = .ok () := by decide +kernel
  exact ⟨validName, validUser, (statements_hold_their_tokens (List Nat) validName validUser _).1 _
    (by simp [createStatements])⟩

end SkyDaemon.Database
