import SkyDaemon.Foundation.Beside
import SkyDaemon.Foundation.Debt
import SkyDaemon.Runtime.Firewall

/-! Opening the published ports in ufw. Tasks that create containers run side by side and
share one flag, by which the first of them to fail at a port says so aloud. -/
namespace SkyDaemon.Runtime
open Program Transition

inductive FirewallMode where
  | off
  | auto
  | sudo
  deriving DecidableEq, Repr, Inhabited

/-- The levels of `tracing` in use. -/
inductive Level where
  | info
  | warn
  | debug
  deriving DecidableEq, Repr

inductive HostCall where
  | pathExists (path : String)
  /-- A process started with these arguments and waited for. -/
  | output (command : String) (args : List String)
  /-- `WARNED.swap(true)`. -/
  | swapWarned
  | log (level : Level) (text : String)
  deriving DecidableEq, Repr

/-- A process that outlives its time has no answer; one that cannot be started has a message,
and any other whether it exited with 0. -/
def HostCall.Response : HostCall → Type
  | .pathExists _ => Bool
  | .output _ _ => Option (Except String Bool)
  | .swapWarned => Bool
  | .log _ _ => Unit

abbrev HostTask := Program HostCall HostCall.Response
abbrev HostExchange := Exchange HostCall HostCall.Response

def pathExists (path : String) : HostTask Bool := .call (.pathExists path) .done
def output (command : String) (args : List String) : HostTask (Option (Except String Bool)) :=
  .call (.output command args) .done
def swapWarned : HostTask Bool := .call .swapWarned .done
def log (level : Level) (text : String) : HostTask Unit := .call (.log level text) .done

def ufwPaths : List String := ["/usr/sbin/ufw", "/sbin/ufw", "/usr/bin/ufw", "/bin/ufw"]

/-- The first of the paths that exists. -/
def firstExisting : List String → HostTask (Option String)
  | [] => pure none
  | path :: paths => do
      if ← pathExists path then pure (some path) else firstExisting paths

def ufwBin : HostTask (Option String) := firstExisting ufwPaths

def runUnderTimeout (command : String) (args : List String) : HostTask (Except String Bool) := do
  match ← output command args with
  | some outcome => pure outcome
  | none => pure (.error "timed out")

def portHint (ports : List Nat) : String := " ".intercalate (ports.map toString)

def debugText (ports : List Nat) (detail : String) : String :=
  "firewall: couldn't open port(s) " ++ portHint ports ++ " (" ++ detail ++ ")"

def warnText (ports : List Nat) (detail : String) : String :=
  "firewall: couldn't open port(s) " ++ portHint ports ++ " automatically (" ++ detail ++
    "). Open manually with: sudo ufw allow <port>"

def warnOnce (ports : List Nat) (detail : String) : HostTask Unit := do
  if ← swapWarned then log .debug (debugText ports detail) else log .warn (warnText ports detail)

/-- What is executed for a port. -/
def allowCommand (mode : FirewallMode) (bin : String) (port : Nat) : String × List String :=
  match mode with
  | .sudo => ("sudo", ["-n", bin, "allow", toString port])
  | _ => (bin, ["allow", toString port])

def openedLine (port : Nat) : String :=
  "firewall: opened port " ++ toString port ++ " in ufw (allow " ++ toString port ++ ")"

/-- What is told of a port. -/
def report (port : Nat) : Except String Bool → HostTask Unit
  | .ok true => log .info (openedLine port)
  | .ok false => warnOnce [port] "ufw returned a non-zero status"
  | .error message => warnOnce [port] message

def openPort (mode : FirewallMode) (bin : String) (port : Nat) : HostTask Unit := do
  let outcome ← runUnderTimeout (allowCommand mode bin port).1 (allowCommand mode bin port).2
  report port outcome

def openEach (mode : FirewallMode) (bin : String) : List Nat → HostTask Unit
  | [] => pure ()
  | port :: ports => do
      openPort mode bin port
      openEach mode bin ports

/-- On Linux; elsewhere nothing is done. -/
def openPorts (mode : FirewallMode) (ports : List Nat) : HostTask Unit :=
  if mode = .off ∨ ports = [] then pure ()
  else do
    match ← ufwBin with
    | some bin => openEach mode bin ports
    | none => warnOnce ports "ufw is not installed"

/-! ## What a task does -/

/-- The processes of a run with how each one ended. -/
def processes (made : List HostExchange) : List ((String × List String) × Option (Except String Bool)) :=
  made.filterMap fun
    | ⟨.output command args, answer⟩ => some ((command, args), answer)
    | _ => none

def lines (made : List HostExchange) : List (Level × String) :=
  made.filterMap fun
    | ⟨.log level text, _⟩ => some (level, text)
    | _ => none

def isSwap : HostCall → Bool
  | .swapWarned => true
  | _ => false

def swaps (made : List HostExchange) : Nat := made.countP fun exchange => isSwap exchange.1

/-- The line is not about an opened port. -/
def isFailure (line : Level × String) : Bool := line.1 != .info

section Append
variable (first rest : List HostExchange)

theorem processes_append : processes (first ++ rest) = processes first ++ processes rest := List.filterMap_append

theorem lines_append : lines (first ++ rest) = lines first ++ lines rest := List.filterMap_append

theorem swaps_append : swaps (first ++ rest) = swaps first + swaps rest := List.countP_append

end Append

/-- The process ran to its end and exited with 0. -/
def exitedZero : Option (Except String Bool) → Bool
  | some (.ok success) => success
  | _ => false

/-- A line that says that the ports could not be opened, and why. -/
def Concedes (ports : List Nat) (detail : String) (line : Level × String) : Prop :=
  line = (.debug, debugText ports detail) ∨ line = (.warn, warnText ports detail)

/-- The line for a port whose process ended like this. -/
def Tells (port : Nat) (line : Level × String) : Option (Except String Bool) → Prop
  | some (.ok true) => line = (.info, openedLine port)
  | some (.ok false) => Concedes [port] "ufw returned a non-zero status" line
  | some (.error message) => Concedes [port] message line
  | none => Concedes [port] "timed out" line

/-- What has to be done for the ports on a host with these files. Unless the firewall is left alone,
the first ufw of the fixed paths is run once for each port in their order and each time a line tells
how it went; without ufw, one line tells of all ports. -/
def Dealt (mode : FirewallMode) (installed : String → Bool) (ports : List Nat) (made : List HostExchange) : Prop :=
  if mode = .off ∨ ports = [] then made = []
  else match ufwPaths.find? installed with
    | none => processes made = [] ∧ ∃ line, lines made = [line] ∧ Concedes ports "ufw is not installed" line
    | some bin => ∃ outcomes : List (Nat × Option (Except String Bool)), outcomes.map Prod.fst = ports ∧
        processes made = outcomes.map (fun outcome => (allowCommand mode bin outcome.1, outcome.2)) ∧
        List.Forall₂ (fun outcome line => Tells outcome.1 line outcome.2) outcomes (lines made)

/-- A path that is looked up is found exactly if it is the host's. -/
def AsInstalled (installed : String → Bool) : (call : HostCall) → call.Response → Prop
  | .pathExists path, found => found = installed path
  | .output _ _, _ | .swapWarned, _ | .log _ _, _ => True

def SeesFiles (installed : String → Bool) (made : List HostExchange) : Prop :=
  ∀ exchange ∈ made, AsInstalled installed exchange.1 exchange.2

variable {mode : FirewallMode} {bin : String} {port : Nat} {ports : List Nat} {made : List HostExchange}
  {installed : String → Bool}

theorem Concedes.isFailure {detail : String} {line : Level × String} (concedes : Concedes ports detail line) :
    isFailure line = true := by
  rcases concedes with rfl | rfl <;> rfl

/-- A line is one of a failure exactly if the process did not exit with 0. -/
theorem Tells.isFailure {line : Level × String} {answer : Option (Except String Bool)}
    (tells : Tells port line answer) : isFailure line = !exitedZero answer := by
  rcases answer with _ | message | success
  · exact Concedes.isFailure tells
  · exact Concedes.isFailure tells
  · cases success with
    | false => exact Concedes.isFailure tells
    | true =>
      cases tells
      rfl

theorem firstExisting_ran {paths : List String} {result : Except String (Option String)}
    (ran : (firstExisting paths).Ran made result) (sees : SeesFiles installed made) :
    result = .ok (paths.find? installed) ∧ processes made = [] ∧ lines made = [] ∧ swaps made = 0 := by
  induction paths generalizing made with
  | nil =>
    cases ran
    exact ⟨rfl, rfl, rfl, rfl⟩
  | cons path paths ih =>
    obtain ⟨answer, rest, rfl, following⟩ := ran.of_call_bind
    have looked : answer = installed path := sees _ List.mem_cons_self
    cases answer with
    | true =>
      cases following
      rw [List.find?_cons_of_pos looked.symm]
      exact ⟨rfl, rfl, rfl, rfl⟩
    | false =>
      obtain ⟨outcome, others⟩ := ih following (List.forall_mem_cons.mp sees).2
      rw [List.find?_cons_of_neg (by rw [← looked]; decide)]
      exact ⟨outcome, others⟩

theorem warnOnce_ran {detail : String} {result : Except String Unit} (ran : (warnOnce ports detail).Ran made result) :
    result = .ok () ∧ processes made = [] ∧ swaps made = 1 ∧
      ∃ line, lines made = [line] ∧ Concedes ports detail line := by
  obtain ⟨answer, rest, rfl, following⟩ := ran.of_call_bind
  cases answer with
  | true =>
    cases following with
    | call ended =>
      cases ended
      exact ⟨rfl, rfl, rfl, _, rfl, .inl rfl⟩
  | false =>
    cases following with
    | call ended =>
      cases ended
      exact ⟨rfl, rfl, rfl, _, rfl, .inr rfl⟩

theorem runUnderTimeout_ran {command : String} {args : List String} {result : Except String (Except String Bool)}
    (ran : (runUnderTimeout command args).Ran made result) :
    ∃ answer, made = [⟨.output command args, answer⟩] ∧ result = .ok (answer.getD (.error "timed out")) := by
  obtain ⟨answer, rest, rfl, following⟩ := ran.of_call_bind
  cases answer with
  | none =>
    cases following
    exact ⟨none, rfl, rfl⟩
  | some outcome =>
    cases following
    exact ⟨some outcome, rfl, rfl⟩

/-- One line that says how it went; the flag is swapped if it is one of a failure. -/
theorem report_ran {answer : Option (Except String Bool)} {result : Except String Unit}
    (ran : (report port (answer.getD (.error "timed out"))).Ran made result) :
    result = .ok () ∧ processes made = [] ∧
      ∃ line, lines made = [line] ∧ Tells port line answer ∧ swaps made = (isFailure line).toNat := by
  have conceded {detail : String} (ran : (warnOnce [port] detail).Ran made result) :
      result = .ok () ∧ processes made = [] ∧
        ∃ line, lines made = [line] ∧ Concedes [port] detail line ∧ swaps made = (isFailure line).toNat := by
    obtain ⟨ended, nothing, one, line, told, concedes⟩ := warnOnce_ran ran
    exact ⟨ended, nothing, line, told, concedes, by rw [one, concedes.isFailure]; rfl⟩
  rcases answer with _ | message | success
  · exact conceded ran
  · exact conceded ran
  · cases success with
    | false => exact conceded ran
    | true =>
      cases ran with
      | call ended =>
        cases ended
        exact ⟨rfl, rfl, _, rfl, rfl, rfl⟩

/-- One process, and one line that says how it went. -/
theorem openPort_ran {result : Except String Unit} (ran : (openPort mode bin port).Ran made result) :
    result = .ok () ∧ ∃ answer line, processes made = [(allowCommand mode bin port, answer)] ∧ lines made = [line] ∧
      Tells port line answer ∧ swaps made = (isFailure line).toNat := by
  rcases ran.of_bind with ⟨message, failed, -⟩ | ⟨outcome, first, rest, rfl, executed, told⟩
  · obtain ⟨_, -, impossible⟩ := runUnderTimeout_ran failed
    cases impossible
  · obtain ⟨answer, rfl, same⟩ := runUnderTimeout_ran executed
    cases same
    obtain ⟨ended, nothing, line, spoken, tells, flag⟩ := report_ran told
    refine ⟨ended, answer, line, ?_, ?_, tells, ?_⟩
    · rw [processes_append, nothing]
      rfl
    · rw [lines_append, spoken]
      rfl
    · rw [swaps_append, flag]
      exact Nat.zero_add _

/-- Every port in its turn, whatever became of those before it. -/
theorem openEach_ran {result : Except String Unit} (ran : (openEach mode bin ports).Ran made result) :
    result = .ok () ∧ ∃ outcomes : List (Nat × Option (Except String Bool)), outcomes.map Prod.fst = ports ∧
      processes made = outcomes.map (fun outcome => (allowCommand mode bin outcome.1, outcome.2)) ∧
      List.Forall₂ (fun outcome line => Tells outcome.1 line outcome.2) outcomes (lines made) ∧
      swaps made = (lines made).countP isFailure := by
  induction ports generalizing made with
  | nil =>
    cases ran
    exact ⟨rfl, [], rfl, rfl, .nil, rfl⟩
  | cons port ports ih =>
    rcases ran.of_bind with ⟨message, failed, -⟩ | ⟨⟨⟩, first, rest, rfl, one, others⟩
    · cases (openPort_ran failed).1
    · obtain ⟨-, answer, line, process, spoken, tells, flag⟩ := openPort_ran one
      obtain ⟨ended, outcomes, own, processes', told, flags⟩ := ih others
      refine ⟨ended, (port, answer) :: outcomes, congrArg (port :: ·) own, ?_, ?_, ?_⟩
      · rw [processes_append, process, processes']
        rfl
      · rw [lines_append, spoken]
        exact .cons tells told
      · rw [swaps_append, flag, flags, lines_append, spoken, List.countP_append, List.countP_singleton]
        cases isFailure line <;> rfl

/-- A task that opens ports never fails, deals with its ports, and swaps the flag once for each line
of a failure. -/
theorem openPorts_ran {result : Except String Unit} (ran : (openPorts mode ports).Ran made result)
    (sees : SeesFiles installed made) :
    result = .ok () ∧ Dealt mode installed ports made ∧ swaps made = (lines made).countP isFailure := by
  rw [openPorts] at ran
  unfold Dealt
  split at ran
  case isTrue idle =>
    cases ran
    rw [if_pos idle]
    exact ⟨rfl, rfl, rfl⟩
  case isFalse busy =>
    rw [if_neg busy]
    rcases ran.of_bind with ⟨message, failed, -⟩ | ⟨found, first, rest, rfl, looked, following⟩
    · cases (firstExisting_ran failed sees).1
    · obtain ⟨same, noProcess, noLine, noSwap⟩ :=
        firstExisting_ran looked (List.forall_mem_append.mp sees).1
      cases same
      rw [processes_append, noProcess, lines_append, noLine, swaps_append, noSwap, List.nil_append, List.nil_append,
        Nat.zero_add]
      cases located : ufwPaths.find? installed with
      | none =>
        rw [located] at following
        obtain ⟨ended, nothing, one, line, spoken, concedes⟩ := warnOnce_ran following
        refine ⟨ended, ⟨nothing, line, spoken, concedes⟩, ?_⟩
        rw [one, spoken, List.countP_singleton, concedes.isFailure]
        rfl
      | some bin =>
        rw [located] at following
        obtain ⟨ended, outcomes, own, run, told, flags⟩ := openEach_ran following
        exact ⟨ended, ⟨outcomes, own, run, told⟩, flags⟩

/-! ## Creating a container and opening its ports -/

abbrev CreateCall := Request ⊕ HostCall
abbrev CreateCall.Response : CreateCall → Type := Sum.elim (fun _ => Except String (List UInt8)) HostCall.Response

/-- `DockerRuntime::create` with its last step. -/
def createAndOpen (docker : DockerRuntime) (mode : FirewallMode) (spec : Protocol.ContainerSpec) :
    Program CreateCall CreateCall.Response String := do
  let id ← (create docker spec).left
  (openPorts mode (portsFromBindings spec.portBindings)).right
  pure id

/-- Whatever Docker and the host answer, the result is Docker's own, the host is asked nothing unless
the container was created, and then the published ports are dealt with as the mode and the host's
files have it. -/
theorem create_survives_firewall (docker : DockerRuntime) (mode : FirewallMode) (spec : Protocol.ContainerSpec)
    (installed : String → Bool)
    (oracle : List (Exchange CreateCall CreateCall.Response) → (call : CreateCall) → CreateCall.Response call)
    (files : ∀ history path, oracle history (.inr (.pathExists path)) = installed path) :
    ∃ asked told, ((createAndOpen docker mode spec).transcript oracle []).1 =
        asked.map leftExchange ++ told.map rightExchange ∧
      (create docker spec).Ran asked ((createAndOpen docker mode spec).transcript oracle []).2 ∧
      match ((createAndOpen docker mode spec).transcript oracle []).2 with
      | .ok _ => Dealt mode installed (portsFromBindings spec.portBindings) told
      | .error _ => told = [] := by
  obtain ⟨made, whole, ran⟩ := transcript_ran oracle (createAndOpen docker mode spec) []
  have answers : ∀ exchange ∈ made, ∃ before, exchange.2 = oracle before exchange.1 := by
    have all := transcript_answers oracle (createAndOpen docker mode spec) (List.forall_mem_nil _)
    rwa [whole, List.nil_append] at all
  have sees {told : List HostExchange} (inside : told.map rightExchange ⊆ made) : SeesFiles installed told := by
    rintro ⟨call, answer⟩ member
    obtain ⟨before, same⟩ := answers _ (inside (List.mem_map_of_mem member))
    cases call with
    | pathExists path => exact same.trans (files before path)
    | output | swapWarned | log => trivial
  rw [whole, List.nil_append]
  generalize ((createAndOpen docker mode spec).transcript oracle []).2 = result at ran
  rcases ran.of_bind with ⟨message, failed, rfl⟩ | ⟨id, first, rest, rfl, created, following⟩
  · obtain ⟨asked, rfl, own⟩ := failed.of_left
    exact ⟨asked, [], (List.append_nil _).symm, own, rfl⟩
  · obtain ⟨asked, rfl, own⟩ := created.of_left
    rcases following.of_bind with ⟨message, failed, -⟩ | ⟨⟨⟩, opening, last, rfl, opened, ended⟩
    · obtain ⟨told, rfl, impossible⟩ := failed.of_right
      cases (openPorts_ran impossible (sees (List.subset_append_right _ _))).1
    · obtain ⟨told, rfl, attempt⟩ := opened.of_right
      cases ended
      rw [List.append_nil] at sees ⊢
      exact ⟨asked, told, rfl, own, (openPorts_ran attempt (sees (List.subset_append_right _ _))).2.1⟩

/-! A host with ufw in its second place, where the second of two ports is refused. -/

def pairSpec : Protocol.ContainerSpec :=
  ⟨"sky-game", "game", [], [], "", [], [⟨"25565/tcp", "25565"⟩, ⟨"25565/udp", "25565"⟩, ⟨"8123/tcp", "8123"⟩], 0, 0, ∅⟩

def pairBody : String :=
  "\x7b\"Image\":\"game\",\"Tty\":false,\"OpenStdin\":true,\"HostConfig\":\x7b\"PortBindings\":\x7b" ++
    "\"25565/tcp\":[\x7b\"HostPort\":\"25565\"\x7d],\"25565/udp\":[\x7b\"HostPort\":\"25565\"\x7d]," ++
    "\"8123/tcp\":[\x7b\"HostPort\":\"8123\"\x7d]\x7d,\"Memory\":0,\"NanoCpus\":0," ++
    "\"SecurityOpt\":[\"no-new-privileges\"],\"Dns\":[\"1.1.1.1\"]\x7d\x7d"

def createdText : String := "\x7b\"Id\":\"9c3f\",\"Warnings\":[]\x7d"

def pairDocker : DockerRuntime where
  http := ⟨fun buf =>
    if answerHead "201 Created" <+: buf then .ok (some ⟨(answerHead "201 Created").length, some 201, []⟩) else .ok none⟩
  message _ := none
  portBindings _ := none
  containers _ := none
  dns := ["1.1.1.1"]
  encode _ := .ok (Text.bytes pairBody)
  pullLine _ := none
  created body := if body = Text.bytes createdText then some "9c3f" else none
  running _ := none
  managed _ := none
  sample _ := none

def pairInstalled (path : String) : Bool := path == "/sbin/ufw" || path == "/bin/ufw"

def pairOracle (_ : List (Exchange CreateCall CreateCall.Response)) : (call : CreateCall) → CreateCall.Response call
  | .inl _ => answerText "201 Created" createdText
  | .inr (.pathExists path) => pairInstalled path
  | .inr (.output _ args) => some (.ok (args.contains "25565"))
  | .inr .swapWarned => false
  | .inr (.log _ _) => ()

theorem second_port_refused :
    ((createAndOpen pairDocker .sudo pairSpec).transcript pairOracle []).2 = .ok "9c3f" ∧
    ∃ told : List HostExchange,
      told.map rightExchange <:+ ((createAndOpen pairDocker .sudo pairSpec).transcript pairOracle []).1 ∧
      Dealt .sudo pairInstalled [25565, 8123] told := by
  have result : ((createAndOpen pairDocker .sudo pairSpec).transcript pairOracle []).2 = .ok "9c3f" := by
    decide +kernel
  obtain ⟨asked, told, whole, -, dealt⟩ :=
    create_survives_firewall pairDocker .sudo pairSpec pairInstalled pairOracle fun _ _ => rfl
  rw [result] at dealt
  exact ⟨result, told, whole ▸ List.suffix_append _ _, dealt⟩

/-! ## Ports that stay closed -/

/-- Some process of the task was run with this command and exited with 0. -/
def carriedOut (made : List HostExchange) (command : String × List String) : Bool :=
  (processes made).any fun process => process.1 == command && exitedZero process.2

/-- How often a task on a host with these files has to give up: for each port for which no ufw exited
with 0, or once for all ports if there is no ufw. -/
def unopened (installed : String → Bool) (mode : FirewallMode) (ports : List Nat) (made : List HostExchange) : Nat :=
  if mode = .off ∨ ports = [] then 0
  else match ufwPaths.find? installed with
    | none => 1
    | some bin => ports.countP fun port => !carriedOut made (allowCommand mode bin port)

theorem allowCommand_injective {other : Nat} (same : allowCommand mode bin port = allowCommand mode bin other) :
    port = other := by
  have texts : toString port = toString other := by
    cases mode <;> simpa [allowCommand] using same
  exact Nat.repr_injective texts

theorem tells_failures {outcomes : List (Nat × Option (Except String Bool))} {told : List (Level × String)}
    (tells : List.Forall₂ (fun outcome line => Tells outcome.1 line outcome.2) outcomes told) :
    told.countP isFailure = outcomes.countP fun outcome => !exitedZero outcome.2 := by
  induction tells with
  | nil => rfl
  | cons first rest ih => rw [List.countP_cons, List.countP_cons, ih, first.isFailure]

/-- A process is the one for its port. -/
theorem carriedOut_outcome {outcomes : List (Nat × Option (Except String Bool))}
    (run : processes made = outcomes.map fun outcome => (allowCommand mode bin outcome.1, outcome.2))
    (distinct : (outcomes.map Prod.fst).Nodup) {outcome : Nat × Option (Except String Bool)}
    (member : outcome ∈ outcomes) :
    carriedOut made (allowCommand mode bin outcome.1) = exitedZero outcome.2 := by
  rw [carriedOut, run, List.any_map, Bool.eq_iff_iff, List.any_eq_true]
  simp only [Function.comp_apply, Bool.and_eq_true, beq_iff_eq]
  constructor
  · rintro ⟨other, inside, same, good⟩
    rwa [← List.inj_on_of_nodup_map distinct inside member (allowCommand_injective same)]
  · exact fun good => ⟨outcome, member, rfl, good⟩

theorem Dealt.failures (dealt : Dealt mode installed ports made) (distinct : ports.Nodup) :
    (lines made).countP isFailure = unopened installed mode ports made := by
  unfold Dealt at dealt
  unfold unopened
  split at dealt
  case isTrue idle =>
    rw [if_pos idle, dealt]
    rfl
  case isFalse busy =>
    rw [if_neg busy]
    cases located : ufwPaths.find? installed with
    | none =>
      rw [located] at dealt
      obtain ⟨-, line, spoken, concedes⟩ := dealt
      rw [spoken, List.countP_singleton, concedes.isFailure]
      rfl
    | some bin =>
      rw [located] at dealt
      obtain ⟨outcomes, rfl, run, told⟩ := dealt
      dsimp only
      rw [tells_failures told, List.countP_map]
      refine List.countP_congr fun outcome member => ?_
      rw [Function.comp_apply, carriedOut_outcome run distinct member]

/-! ## Tasks side by side -/

/-- The flag of the process and what it has logged. -/
structure Host where
  warned : Bool
  logs : List (Level × String)
  deriving DecidableEq, Repr

/-- How a process ends is left open. -/
def Host.react (installed : String → Bool) : Reaction Host (Option (Except String Bool)) HostCall HostCall.Response
  | host, _, .pathExists path => (installed path, host)
  | host, choice, .output _ _ => (choice, host)
  | host, _, .swapWarned => (host.warned, { host with warned := true })
  | host, _, .log level text => ((), { host with logs := host.logs ++ [(level, text)] })

/-- The lines of a level. -/
def atLevel (level : Level) (logs : List (Level × String)) : Nat := logs.countP fun line => line.1 == level

theorem atLevel_append (level : Level) (first rest : List (Level × String)) :
    atLevel level (first ++ rest) = atLevel level first + atLevel level rest := List.countP_append

theorem failures_split (logs : List (Level × String)) :
    logs.countP isFailure = atLevel .warn logs + atLevel .debug logs := by
  induction logs with
  | nil => rfl
  | cons line rest ih =>
    obtain ⟨level, text⟩ := line
    rw [atLevel, atLevel, List.countP_cons, List.countP_cons, List.countP_cons, ih, atLevel, atLevel]
    cases level <;> simp [isFailure] <;> omega

/-- The mode and the bindings of a created container. -/
abbrev Openings := Pool Host (FirewallMode × List Protocol.PortBinding) HostCall HostCall.Response Unit

/-- The task for what it was given. -/
def opening (given : FirewallMode × List Protocol.PortBinding) : HostTask Unit :=
  openPorts given.1 (portsFromBindings given.2)

/-- A warning is due after the swap that set the flag. -/
def isWarning : HostCall → Bool
  | .log .warn _ => true
  | _ => false

def setsFlag : (call : HostCall) → call.Response → Bool
  | .swapWarned, answer => !answer
  | _, _ => false

theorem firstExisting_pays (paths : List String) : (firstExisting paths).Pays isWarning setsFlag false := by
  induction paths with
  | nil => rfl
  | cons path paths ih =>
    refine Pays.bind ⟨rfl, fun _ => rfl⟩ fun found => ?_
    cases found
    · exact ih
    · rfl

theorem warnOnce_pays (ports : List Nat) (detail : String) : (warnOnce ports detail).Pays isWarning setsFlag false := by
  refine ⟨rfl, fun answer => ?_⟩
  cases answer <;> exact ⟨rfl, fun _ => rfl⟩

theorem openPort_pays (mode : FirewallMode) (bin : String) (port : Nat) :
    (openPort mode bin port).Pays isWarning setsFlag false := by
  refine Pays.bind ?_ fun outcome => ?_
  · refine Pays.bind ⟨rfl, fun _ => rfl⟩ fun answer => ?_
    cases answer <;> rfl
  · rcases outcome with message | _ | _
    · exact warnOnce_pays _ _
    · exact warnOnce_pays _ _
    · exact ⟨rfl, fun _ => rfl⟩

theorem openEach_pays (mode : FirewallMode) (bin : String) (ports : List Nat) :
    (openEach mode bin ports).Pays isWarning setsFlag false := by
  induction ports with
  | nil => rfl
  | cons port ports ih => exact Pays.bind (openPort_pays mode bin port) fun _ => ih

theorem openPorts_pays (mode : FirewallMode) (ports : List Nat) :
    (openPorts mode ports).Pays isWarning setsFlag false := by
  rw [openPorts]
  split
  · rfl
  · refine Pays.bind (firstExisting_pays _) fun found => ?_
    cases found
    · exact warnOnce_pays _ _
    · exact openEach_pays _ _ _

/-- What a call does to the flag and the lines. -/
theorem Host.react_counts (installed : String → Bool) (host : Host) (choice : Option (Except String Bool))
    (call : HostCall) :
    (host.react installed choice call).2.warned = (host.warned || isSwap call) ∧
    (∀ level, atLevel level (host.react installed choice call).2.logs =
      atLevel level host.logs + atLevel level (lines [⟨call, (host.react installed choice call).1⟩])) ∧
    atLevel .warn (lines [⟨call, (host.react installed choice call).1⟩]) = (isWarning call).toNat ∧
    setsFlag call (host.react installed choice call).1 = (isSwap call && !host.warned) := by
  cases call with
  | pathExists path => simp [Host.react, isSwap, isWarning, setsFlag, lines, atLevel]
  | output command args => simp [Host.react, isSwap, isWarning, setsFlag, lines, atLevel]
  | swapWarned => simp [Host.react, isSwap, isWarning, setsFlag, lines, atLevel]
  | log level text => cases level <;> simp [Host.react, isSwap, isWarning, setsFlag, lines, atLevel, List.countP_append]

/-- The flag is set by the first swap, whose warning has been logged or is about to be, and every line
of the process is one of a task. -/
structure Told (pool : Openings) : Prop where
  warns : pool.Solvent isWarning setsFlag
  flag : pool.world.warned = decide (0 < pool.tally fun thread => swaps thread.history)
  warnings : atLevel .warn pool.world.logs + pool.debts isWarning = pool.world.warned.toNat
  logged : ∀ level, atLevel level pool.world.logs = pool.tally fun thread => atLevel level (lines thread.history)

theorem told_start : Told (Pool.start ⟨false, []⟩) where
  warns := by rintro _ ⟨⟩
  flag := rfl
  warnings := rfl
  logged _ := rfl

theorem Told.spawn {pool : Openings} (told : Told pool) (given : FirewallMode × List Protocol.PortBinding) :
    Told (pool.spawn opening given) := by
  obtain ⟨warns, due⟩ : (pool.spawn opening given).Solvent isWarning setsFlag ∧ _ :=
    told.warns.spawn (openPorts_pays given.1 (portsFromBindings given.2))
  refine ⟨warns, ?_, due ▸ told.warnings, fun level => ?_⟩
  · rw [Pool.tally_spawn]
    exact told.flag
  · rw [Pool.tally_spawn]
    exact told.logged level

theorem Told.resume {pool : Openings} (told : Told pool) {index : Nat} {choice : Option (Except String Bool)}
    {thread : Thread (FirewallMode × List Protocol.PortBinding) HostCall HostCall.Response Unit} {call : HostCall}
    {next : call.Response → HostTask Unit} (found : pool.threads[index]? = some thread)
    (waiting : thread.rest = .call call next) :
    Told (pool.resume (Host.react installed) index choice thread call next) := by
  obtain ⟨warns, due⟩ : (pool.resume (Host.react installed) index choice thread call next).Solvent isWarning setsFlag ∧
    _ := told.warns.resume found waiting
  obtain ⟨warned, spoken, warning, sets⟩ := Host.react_counts installed pool.world choice call
  have counted : (pool.resume (Host.react installed) index choice thread call next).tally
      (fun thread => swaps thread.history) = pool.tally (fun thread => swaps thread.history) + (isSwap call).toNat := by
    refine Pool.tally_resume found ?_
    rw [Thread.resume, swaps_append]
    cases swapping : isSwap call <;> simp [swaps, swapping]
  refine ⟨warns, ?_, ?_, fun level => ?_⟩
  · rw [counted]
    change (Host.react installed pool.world choice call).2.warned = _
    rw [warned, told.flag]
    cases isSwap call <;> simp
  · have before := told.warnings
    change atLevel .warn (Host.react installed pool.world choice call).2.logs + _ =
      (Host.react installed pool.world choice call).2.warned.toNat
    rw [sets] at due
    rw [spoken, warning, warned]
    have first : (isSwap call && !pool.world.warned).toNat + pool.world.warned.toNat =
        (pool.world.warned || isSwap call).toNat := by
      cases isSwap call <;> cases pool.world.warned <;> rfl
    omega
  · change atLevel level (Host.react installed pool.world choice call).2.logs = _
    rw [spoken level, told.logged level]
    refine (Pool.tally_resume found ?_).symm
    rw [Thread.resume, lines_append, atLevel_append]

/-- A start or a step of a task, with how the process ends that the step may wait for. -/
abbrev OpeningEvent := Pool.Event (FirewallMode × List Protocol.PortBinding) (Option (Except String Bool))

/-- The tasks of a process in any interleaving. -/
abbrev OpeningRun (installed : String → Bool) : List OpeningEvent → Openings → Prop :=
  Run (Pool.Steps (Host.react installed) opening fun _ => True) (Pool.start ⟨false, []⟩)

section Runs
variable {events : List OpeningEvent} {pool : Openings}

theorem told_run (run : OpeningRun installed events pool) : Told pool := by
  refine Pool.run_invariant ?_ ?_ run told_start
  · exact fun _ given _ told => told.spawn given
  · exact fun _ _ _ _ _ _ found waiting told => told.resume found waiting

/-- What all tasks had to give up. -/
def Openings.unopened (installed : String → Bool) (pool : Openings) : Nat :=
  pool.tally fun thread =>
    Runtime.unopened installed thread.origin.1 (portsFromBindings thread.origin.2) thread.history

/-- A task that has ended has told of what it gave up, with a swap for each line. -/
theorem opening_ended (run : OpeningRun installed events pool)
    {thread : Thread (FirewallMode × List Protocol.PortBinding) HostCall HostCall.Response Unit}
    (member : thread ∈ pool.threads) (ended : ∀ call next, thread.rest ≠ .call call next) :
    swaps thread.history = (lines thread.history).countP isFailure ∧
      (lines thread.history).countP isFailure =
        unopened installed thread.origin.1 (portsFromBindings thread.origin.2) thread.history := by
  have sees : SeesFiles installed thread.history := by
    refine Pool.run_answered (fun host choice call => ?_) run thread member
    cases call with
    | pathExists path => rfl
    | output | swapWarned | log => trivial
  obtain ⟨result, ran⟩ := Pool.ended_ran run member ended
  obtain ⟨-, dealt, flags⟩ := openPorts_ran ran sees
  exact ⟨flags, dealt.failures (portsFromBindings_first _).nodup⟩

end Runs

/-- Two tasks that fail at their ports: ufw refuses the first one, and the process of the second one
does not end in time. The second to start is the first to swap. -/
def crossedOpenings : List OpeningEvent :=
  [.receive (.auto, [⟨"25565/tcp", "25565"⟩]), .receive (.sudo, [⟨"25565/tcp", "25570"⟩]), .advance 0 none,
    .advance 1 none, .advance 0 (some (.ok false)), .advance 1 none, .advance 1 none, .advance 0 none, .advance 0 none,
    .advance 1 none]

def ufwInstalled (path : String) : Bool := path == "/usr/sbin/ufw"

end SkyDaemon.Runtime
