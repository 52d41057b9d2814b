import SkyDaemon.Agent.Messages
import SkyDaemon.Foundation.Answers
import SkyDaemon.Protocol.Binding
import SkyDaemon.Runtime.PortConflict
import SkyDaemon.Runtime.Stats

/-! What the panel gets back. Whatever a command or a heartbeat meets on the way, its payload is one
that `send_signed` can carry and that the other end decodes to the same payload. -/
namespace SkyDaemon.Agent
open Protocol Program SkyDaemon.Runtime

/-! ## Answers in the range of their types -/

/-- Lengths and times are 64 bits wide. -/
structure Metadata.Sized (metadata : Metadata) : Prop where
  len : metadata.len < 2 ^ 64
  modified : metadata.modified.getD 0 < 2 ^ 64

def DirEntry.Sized (entry : DirEntry) : Prop := ∀ metadata, entry.metadata = .ok metadata → metadata.Sized

/-- A runtime whose samples are converted as the source does it. -/
def Samples (docker : DockerRuntime) : Prop :=
  ∀ body stats, docker.sample body = some stats → ∃ raw, parseDockerStats raw = stats

/-- Sizes fit their types, and a sample is one that the Docker runtime returns. -/
def Answers (docker : DockerRuntime) : (call : Call) → call.Response → Prop
  | .fs (.metadata _), answer => ∀ metadata, answer = .ok metadata → metadata.Sized
  | .fs (.readDir _), answer =>
      ∀ results, answer = .ok results → ∀ result ∈ results, ∀ entry, result = .ok entry → entry.Sized
  | .fs (.read _), answer => ∀ content, answer = .ok content → content.length < 2 ^ 64
  | .runtime (.stats id), answer =>
      ∀ stats, answer = .ok stats → ∃ made, (Runtime.stats docker id).Ran made (.ok stats)
  | _, _ => True

variable {docker : DockerRuntime} {dispatcher : Dispatcher} {codec : Base64}

/-! ## Results of commands -/

theorem mapM_ok_mem {α β : Type} {f : α → Except String β} {items : List α} {values : List β}
    (mapped : items.mapM f = .ok values) : ∀ value ∈ values, ∃ item ∈ items, f item = .ok value := by
  induction items generalizing values with
  | nil =>
    cases mapped
    exact List.forall_mem_nil _
  | cons item rest ih =>
    rw [List.mapM_cons] at mapped
    cases first : f item with
    | error message =>
      rw [first] at mapped
      cases mapped
    | ok value =>
      rw [first] at mapped
      cases later : rest.mapM f with
      | error message =>
        rw [later] at mapped
        cases mapped
      | ok others =>
        rw [later] at mapped
        cases mapped
        rw [List.forall_mem_cons]
        refine ⟨⟨item, List.mem_cons_self, first⟩, fun other member => ?_⟩
        obtain ⟨source, inside, eq⟩ := ih later other member
        exact ⟨source, List.mem_cons_of_mem _ inside, eq⟩

theorem fileEntry_ok {result : Except IoError DirEntry} {entry : FileEntry} (ok : fileEntry result = .ok entry) :
    ∃ name metadata, result = .ok ⟨name, .ok metadata⟩ ∧ entry.sizeBytes = metadata.len := by
  rcases result with _ | ⟨name, _ | metadata⟩
  · cases ok
  · cases ok
  · cases ok
    exact ⟨name, metadata, rfl, rfl⟩

theorem backupEntry_ok {result : Except IoError DirEntry} {entry : BackupEntry}
    (ok : Dispatcher.backupEntry result = .ok (some entry)) :
    ∃ name metadata, result = .ok ⟨name, .ok metadata⟩ ∧ entry.sizeBytes = metadata.len ∧
      entry.createdAt = metadata.modified.getD 0 := by
  rcases result with _ | ⟨name, _ | metadata⟩
  · cases ok
  · cases ok
  · have entries := Except.ok.inj ok
    split at entries
    · cases entries
      exact ⟨name, metadata, rfl, rfl, rfl⟩
    · cases entries

theorem listFiles_sized (dir : UnixPath.OsPath) :
    (listFiles dir).Yields (Answers docker) fun entries => ResultSized (.listFiles entries) := by
  refine (yields_perform (Call.fs (.readDir dir))).bind fun answer sized => ?_
  refine (yields_context sized).bind fun results sized => yields_ofExcept fun entries listed entry member => ?_
  obtain ⟨result, inside, ok⟩ := mapM_ok_mem listed entry member
  obtain ⟨name, metadata, rfl, size⟩ := fileEntry_ok ok
  rw [size]
  exact (sized _ inside _ rfl metadata rfl).len

theorem readFile_sized (path : UnixPath.OsPath) :
    (readFile codec path).Yields (Answers docker) fun result =>
      resultAction result = .readFile ∧ ResultSized result := by
  refine yields_bind_of_all _ fun answer => yields_bind_of_all _ fun metadata => ?_
  split
  · exact yields_fail _
  · refine (yields_perform (Call.fs (.read path))).bind fun answer sized => ?_
    exact (yields_context sized).bind fun content sized => yields_pure ⟨rfl, sized⟩

theorem createBackup_sized (serverId : String) :
    (dispatcher.createBackup serverId).Yields (Answers docker) fun made => made.2 < 2 ^ 64 := by
  refine yields_bind_of_all _ fun _ => yields_bind_of_all _ fun _ => yields_bind_of_all _ fun secs => ?_
  refine Yields.bind (Yields.withContext ?_ _) fun size sized => yields_pure sized
  refine yields_bind_of_all _ fun isDir => ?_
  split
  · exact yields_fail _
  · iterate 6 refine yields_bind_of_all _ fun _ => ?_
    refine (yields_perform (Call.fs (.metadata _))).bind fun answer sized => ?_
    cases answer with
    | error error => trivial
    | ok metadata => exact (sized metadata rfl).len

theorem listBackups_sized (serverId : String) :
    (dispatcher.listBackups serverId).Yields (Answers docker) fun backups => ResultSized (.listBackups backups) := by
  refine (yields_perform (Call.fs (.readDir _))).bind fun answer sized => ?_
  cases answer with
  | error error =>
    dsimp only
    split
    · exact yields_pure (List.forall_mem_nil _)
    · exact yields_fail _
  | ok results =>
    refine Yields.bind (yields_ofExcept fun found listed => listed) fun found listed => ?_
    refine yields_pure fun entry member => ?_
    obtain ⟨_, inFound, rfl⟩ := List.mem_filterMap.mp (List.mem_mergeSort.mp member)
    obtain ⟨result, inside, ok⟩ := mapM_ok_mem listed _ inFound
    obtain ⟨name, metadata, rfl, size, time⟩ := backupEntry_ok ok
    have fits := sized results rfl _ inside _ rfl metadata rfl
    rw [size, time]
    exact ⟨fits.len, fits.modified⟩

theorem createDatabase_sized (cmd : CommandPayload) (port : ∀ at', dispatcher.db = some at' → at'.2 < 2 ^ 16) :
    (dispatcher.createDatabase cmd).Yields (Answers docker) fun result =>
      resultAction result = .createDatabase ∧ ResultSized result := by
  refine Yields.bind (yields_required port) fun at' small => ?_
  iterate 5 refine yields_bind_of_all _ fun _ => ?_
  exact yields_pure ⟨rfl, small⟩

/-- A result that the panel can decode as the answer to the action. -/
def Fitting (action : Action) (result : Option ActionResult) : Prop :=
  ∀ value ∈ result, resultAction value = action ∧ ResultSized value

theorem Fitting.none (action : Action) : Fitting action none := by simp [Fitting]

theorem Fitting.some {action : Action} {value : ActionResult} (same : resultAction value = action)
    (sized : ResultSized value) : Fitting action (some value) := by
  rintro _ ⟨⟩
  exact ⟨same, sized⟩

/-- Commands that report no result. -/
theorem yields_none {action : Action} (x : Task Unit) :
    (x >>= fun _ => (pure none : Task (Option ActionResult))).Yields (Answers docker) (Fitting action) :=
  yields_bind_of_all x fun _ => yields_pure (.none action)

/-- The result of a command is one of its action, with numbers in range. -/
theorem handleInner_fitting (cmd : CommandPayload) (port : ∀ at', dispatcher.db = some at' → at'.2 < 2 ^ 16) :
    (dispatcher.handleInner codec cmd).Yields (Answers docker) (Fitting cmd.action) := by
  unfold Dispatcher.handleInner
  generalize cmd.action = action
  cases action with
  | create => exact yields_none _
  | pullImage => exact yields_none _
  | start => exact yields_none _
  | stop => exact yields_none _
  | kill => exact yields_none _
  | remove => exact yields_none _
  | consoleInput => exact yields_none _
  | listFiles =>
    exact yields_bind_of_all _ fun dir => (listFiles_sized dir).bind fun entries sized => yields_pure (.some rfl sized)
  | readFile =>
    refine yields_bind_of_all _ fun path => (readFile_sized path).bind fun result sized => ?_
    exact yields_pure (.some sized.1 sized.2)
  | writeFile => exact yields_bind_of_all _ fun path => yields_bind_of_all _ fun content => yields_none _
  | renameFile =>
    exact yields_bind_of_all _ fun source => yields_bind_of_all _ fun target =>
      yields_bind_of_all _ fun answer => yields_none _
  | deleteFile => exact yields_bind_of_all _ fun path => yields_none _
  | mkdir => exact yields_bind_of_all _ fun path => yields_bind_of_all _ fun answer => yields_none _
  | backup =>
    exact (createBackup_sized cmd.serverId).bind fun made sized =>
      yields_bind_of_all _ fun _ => yields_pure (.some rfl sized)
  | listBackups =>
    exact (listBackups_sized cmd.serverId).bind fun backups sized => yields_pure (.some rfl sized)
  | restoreBackup => exact yields_bind_of_all _ fun name => yields_none _
  | deleteBackup => exact yields_bind_of_all _ fun name => yields_none _
  | createDatabase =>
    exact (createDatabase_sized cmd port).bind fun result sized => yields_pure (.some sized.1 sized.2)
  | deleteDatabase => exact yields_none _

/-- Every run of a command comes to an ack for it. -/
theorem handle_fitting (cmd : CommandPayload) (port : ∀ at', dispatcher.db = some at' → at'.2 < 2 ^ 16)
    {made : List (Exchange Call Call.Response)} {result : Except String AckPayload}
    (ran : (dispatcher.handle codec cmd).Ran made result)
    (answered : ∀ exchange ∈ made, Answers docker exchange.1 exchange.2) :
    ∃ ack, result = .ok ack ∧ ack.commandId = cmd.commandId ∧ Fitting cmd.action ack.result := by
  obtain ⟨outcome, first, rest, rfl, inner, following⟩ := ran.of_attempt_bind
  cases outcome with
  | error message =>
    cases following
    exact ⟨_, rfl, rfl, .none _⟩
  | ok value =>
    cases following
    have early : ∀ exchange ∈ first, Answers docker exchange.1 exchange.2 := fun exchange member =>
      answered exchange (List.mem_append_left _ member)
    exact ⟨_, rfl, rfl, (handleInner_fitting cmd port).ran inner early⟩

/-! ## Heartbeats -/

/-- The report of a container that was inspected: no sample while it does not run or none can be had. -/
inductive Surveyed (made : List (Exchange Call Call.Response)) (containerId : String) : ContainerHeartbeat → Prop
  | stopped {serverId : String} (inspected : ⟨Call.runtime (.inspect containerId), .ok false⟩ ∈ made) :
      Surveyed made containerId ⟨serverId, false, Dispatcher.noStats⟩
  | unsampled {serverId message : String} (inspected : ⟨Call.runtime (.inspect containerId), .ok true⟩ ∈ made)
      (failed : ⟨Call.runtime (.stats containerId), .error message⟩ ∈ made) :
      Surveyed made containerId ⟨serverId, true, Dispatcher.noStats⟩
  | sampled {serverId : String} {stats : Stats} (inspected : ⟨Call.runtime (.inspect containerId), .ok true⟩ ∈ made)
      (sample : ⟨Call.runtime (.stats containerId), .ok stats⟩ ∈ made) :
      Surveyed made containerId ⟨serverId, true, stats⟩

theorem Surveyed.mono {made more : List (Exchange Call Call.Response)} {containerId : String}
    {entry : ContainerHeartbeat} (reports : Surveyed made containerId entry) (inside : made ⊆ more) :
    Surveyed more containerId entry := by
  cases reports with
  | stopped inspected => exact .stopped (inside inspected)
  | unsampled inspected failed => exact .unsampled (inside inspected) (inside failed)
  | sampled inspected sample => exact .sampled (inside inspected) (inside sample)

/-- Docker did not know the container or could not be asked. -/
def Uninspected (made : List (Exchange Call Call.Response)) (containerId : String) : Prop :=
  ∃ message, ⟨Call.runtime (.inspect containerId), .error message⟩ ∈ made

theorem containerHeartbeat_ran {serverId containerId : String} {made : List (Exchange Call Call.Response)}
    {result : Except String (Option ContainerHeartbeat)}
    (ran : (Dispatcher.containerHeartbeat serverId containerId).Ran made result) :
    (result = .ok none ∧ Uninspected made containerId) ∨
      ∃ entry, result = .ok (some entry) ∧ entry.serverId = serverId ∧ Surveyed made containerId entry := by
  cases ran with
  | @call _ _ inspected rest _ following =>
    rcases inspected with message | running
    · cases following
      exact .inl ⟨rfl, message, List.mem_cons_self⟩
    · cases running with
      | false =>
        cases following
        exact .inr ⟨_, rfl, rfl, .stopped List.mem_cons_self⟩
      | true =>
        cases following with
        | @call _ _ sample rest _ ended =>
          rcases sample with message | stats
          · cases ended
            exact .inr ⟨_, rfl, rfl, .unsampled List.mem_cons_self (List.mem_cons_of_mem _ List.mem_cons_self)⟩
          · cases ended
            exact .inr ⟨_, rfl, rfl, .sampled List.mem_cons_self (List.mem_cons_of_mem _ List.mem_cons_self)⟩

/-- A heartbeat over the pairs of the map: in their order, each server that could be inspected. -/
structure Surveys (made : List (Exchange Call Call.Response)) (tracked : List (String × String))
    (containers : List ContainerHeartbeat) : Prop where
  order : (containers.map (·.serverId)).Sublist (tracked.map Prod.fst)
  known : ∀ entry ∈ containers, ∃ containerId, (entry.serverId, containerId) ∈ tracked ∧ Surveyed made containerId entry
  complete : ∀ pair ∈ tracked, Uninspected made pair.2 ∨
    ∃ entry ∈ containers, entry.serverId = pair.1 ∧ Surveyed made pair.2 entry

theorem Surveys.nil (made : List (Exchange Call Call.Response)) : Surveys made [] [] :=
  ⟨.slnil, List.forall_mem_nil _, List.forall_mem_nil _⟩

section Surveys
variable {made more : List (Exchange Call Call.Response)} {tracked : List (String × String)}
  {containers : List ContainerHeartbeat} {serverId containerId : String}

theorem Surveys.mono (surveys : Surveys made tracked containers) (inside : made ⊆ more) :
    Surveys more tracked containers where
  order := surveys.order
  known entry member := by
    obtain ⟨found, pair, reports⟩ := surveys.known entry member
    exact ⟨found, pair, reports.mono inside⟩
  complete pair member := by
    rcases surveys.complete pair member with ⟨message, failed⟩ | ⟨entry, listed, same, reports⟩
    · exact .inl ⟨message, inside failed⟩
    · exact .inr ⟨entry, listed, same, reports.mono inside⟩

theorem Surveys.skip (surveys : Surveys made tracked containers) (failed : Uninspected made containerId) :
    Surveys made ((serverId, containerId) :: tracked) containers where
  order := surveys.order.cons _
  known entry member := by
    obtain ⟨found, pair, reports⟩ := surveys.known entry member
    exact ⟨found, List.mem_cons_of_mem _ pair, reports⟩
  complete := List.forall_mem_cons.mpr ⟨.inl failed, surveys.complete⟩

theorem Surveys.report {entry : ContainerHeartbeat} (surveys : Surveys made tracked containers)
    (same : entry.serverId = serverId) (reports : Surveyed made containerId entry) :
    Surveys made ((serverId, containerId) :: tracked) (entry :: containers) where
  order := by
    rw [List.map_cons, List.map_cons, same]
    exact surveys.order.cons_cons _
  known := by
    rw [List.forall_mem_cons]
    refine ⟨⟨containerId, by rw [same]; exact List.mem_cons_self, reports⟩, fun other member => ?_⟩
    obtain ⟨found, pair, reports⟩ := surveys.known other member
    exact ⟨found, List.mem_cons_of_mem _ pair, reports⟩
  complete := by
    rw [List.forall_mem_cons]
    refine ⟨.inr ⟨entry, List.mem_cons_self, same, reports⟩, fun pair member => ?_⟩
    rcases surveys.complete pair member with failed | ⟨other, listed, same, reports⟩
    · exact .inl failed
    · exact .inr ⟨other, List.mem_cons_of_mem _ listed, same, reports⟩

end Surveys

theorem heartbeats_ran {tracked : List (String × String)} {made : List (Exchange Call Call.Response)}
    {result : Except String (List ContainerHeartbeat)} (ran : (Dispatcher.heartbeats tracked).Ran made result) :
    ∃ containers, result = .ok containers ∧ Surveys made tracked containers := by
  induction tracked generalizing made result with
  | nil =>
    cases ran
    exact ⟨[], rfl, .nil _⟩
  | cons pair rest ih =>
    obtain ⟨serverId, containerId⟩ := pair
    rcases ran.of_bind with ⟨message, failed, -⟩ | ⟨report, first, later, rfl, one, following⟩
    · rcases containerHeartbeat_ran failed with ⟨impossible, -⟩ | ⟨_, impossible, -⟩ <;> cases impossible
    rcases following.of_bind with ⟨message, failed, -⟩ | ⟨others, middle, last, rfl, all, ended⟩
    · obtain ⟨_, impossible, -⟩ := ih failed
      cases impossible
    obtain ⟨_, same, surveys⟩ := ih all
    cases same
    cases ended
    rw [List.append_nil]
    have surveys := surveys.mono (List.subset_append_right first middle)
    have inside := List.subset_append_left first middle
    rcases containerHeartbeat_ran one with ⟨same, message, failed⟩ | ⟨entry, same, server, reports⟩
    · cases same
      exact ⟨_, rfl, surveys.skip ⟨message, inside failed⟩⟩
    · cases same
      exact ⟨_, rfl, surveys.report server (reports.mono inside)⟩

/-- A heartbeat never fails. Whatever Docker answers, it reports exactly the servers of the map whose
container could be inspected, in the map's order, with what Docker said of each: a sample only of a
container that runs, and zeros where none could be had. -/
theorem heartbeat_surveys (made : List (Exchange Call Call.Response)) (result : Except String (List ContainerHeartbeat))
    (ran : Dispatcher.heartbeat.Ran made result) :
    ∃ tracked containers, made.head? = some ⟨Call.trackedSnapshot, tracked⟩ ∧ result = .ok containers ∧
      Surveys made tracked containers := by
  cases ran with
  | @call _ _ tracked rest _ following =>
    obtain ⟨containers, rfl, surveys⟩ := heartbeats_ran following
    exact ⟨tracked, containers, rfl, rfl, surveys.mono (List.subset_cons_self _ _)⟩

/-- One container that does not run, and one that Docker no longer knows. -/
def quietMade : List (Exchange Call Call.Response) :=
  [⟨.trackedSnapshot, [("s1", "c1"), ("s2", "c2")]⟩, ⟨.runtime (.inspect "c1"), .error "no such container"⟩,
    ⟨.runtime (.inspect "c2"), .ok false⟩]

theorem quiet_ran : Dispatcher.heartbeat.Ran quietMade (.ok [⟨"s2", false, Dispatcher.noStats⟩]) :=
  .call (.call (.call (.done _)))

theorem quiet_heartbeat_surveys :
    ∃ tracked containers, quietMade.head? = some ⟨Call.trackedSnapshot, tracked⟩ ∧
      Surveys quietMade tracked containers := by
  obtain ⟨tracked, containers, head, -, surveys⟩ := heartbeat_surveys _ _ quiet_ran
  exact ⟨tracked, containers, head, surveys⟩

/-! ## Everything that is sent arrives -/

theorem stats_ran {id : String} {made : List (Exchange Request fun _ => Except String (List UInt8))}
    {stats : Stats} (samples : Samples docker)
    (ran : (Runtime.stats docker id).Ran made (.ok stats)) : isFinite stats.cpuPercent = true := by
  rcases ran.of_bind with ⟨_, -, impossible⟩ | ⟨body, first, rest, rfl, -, following⟩
  · cases impossible
  · cases decoded : docker.sample body with
    | none =>
      rw [decoded] at following
      cases following
    | some stats =>
      rw [decoded] at following
      cases following
      obtain ⟨raw, rfl⟩ := samples body _ decoded
      exact sample_finite raw

theorem noStats_finite : isFinite Dispatcher.noStats.cpuPercent = true := by decide

theorem Surveyed.finite {made : List (Exchange Call Call.Response)} {containerId : String}
    {entry : ContainerHeartbeat} (reports : Surveyed made containerId entry) (samples : Samples docker)
    (answered : ∀ exchange ∈ made, Answers docker exchange.1 exchange.2) :
    isFinite entry.stats.cpuPercent = true := by
  cases reports with
  | stopped => exact noStats_finite
  | unsampled => exact noStats_finite
  | sampled inspected sample =>
    obtain ⟨_, ran⟩ := answered _ sample _ rfl
    exact stats_ran samples ran

/-- The messages of an agent on Docker, with the action that an ack answers. -/
inductive Produced (docker : DockerRuntime) (dispatcher : Dispatcher) (codec : Base64) : Action → WireMessage → Prop
  | hello (nodeToken : String) (action : Action) :
      Produced docker dispatcher codec action (.hello (dispatcher.hello nodeToken))
  | event (payload : EventPayload) (action : Action) : Produced docker dispatcher codec action (.event payload)
  | heartbeat {made : List (Exchange Call Call.Response)} {containers : List ContainerHeartbeat} (action : Action)
      (ran : Dispatcher.heartbeat.Ran made (.ok containers))
      (answered : ∀ exchange ∈ made, Answers docker exchange.1 exchange.2) :
      Produced docker dispatcher codec action (.heartbeat containers)
  | ack {cmd : CommandPayload} {made : List (Exchange Call Call.Response)} {payload : AckPayload}
      (ran : (dispatcher.handle codec cmd).Ran made (.ok payload))
      (answered : ∀ exchange ∈ made, Answers docker exchange.1 exchange.2) :
      Produced docker dispatcher codec cmd.action (.ack cmd.action payload)

theorem Produced.sendable {action : Action} {message : WireMessage}
    (produced : Produced docker dispatcher codec action message) (samples : Samples docker)
    (port : ∀ at', dispatcher.db = some at' → at'.2 < 2 ^ 16) : message.Sendable action := by
  cases produced with
  | hello nodeToken => trivial
  | event payload => trivial
  | heartbeat _ ran answered =>
    intro entry member
    cases ran with
    | call following =>
      obtain ⟨containers, same, surveys⟩ := heartbeats_ran following
      cases same
      obtain ⟨containerId, -, reports⟩ := surveys.known entry member
      refine reports.finite samples fun exchange inside => ?_
      exact answered exchange (List.mem_cons_of_mem _ inside)
  | ack ran answered =>
    obtain ⟨_, same, -, fitting⟩ := handle_fitting _ port ran answered
    cases same
    exact ⟨rfl, fitting⟩

namespace WireMessage
variable {crate : JsonCrate} {action : Action} {message : WireMessage}

theorem Sendable.doubles (sendable : message.Sendable action) :
    ∀ bits ∈ message.doubles, crate.encodeDouble bits = .decimal (crate.float bits) := by
  intro bits member
  cases message with
  | hello | event | ack => cases member
  | heartbeat containers =>
    obtain ⟨entry, inside, rfl⟩ := List.mem_map.mp member
    exact if_pos (sendable entry inside)

theorem Sendable.result (sendable : message.Sendable action) :
    ∀ result ∈ message.result, resultAction result = action := by
  intro result carried
  cases message with
  | hello | heartbeat | event => cases carried
  | ack answered payload => exact (sendable.2 result carried).1

end WireMessage

/-- Whatever happens to a command, to its container or to a heartbeat, what the agent sends arrives.
A percentage is always written as a number, a result is one of the command's action, the text reads as
an envelope that verifies while the clocks are at most thirty seconds apart, and its payload decodes
to the message that was sent, with the percentages that the crate reads from their texts. -/
theorem every_message_arrives (docker : DockerRuntime) (dispatcher : Dispatcher) (codec : Base64) (crate : JsonCrate)
    (prims : Primitives) (nodeToken : String) (action : Action) (message : WireMessage) (clock later : Clock)
    (random : Vector UInt8 16) (produced : Produced docker dispatcher codec action message) (samples : Samples docker)
    (port : ∀ at', dispatcher.db = some at' → at'.2 < 2 ^ 16)
    (reads : crate.ReadsBack message (message.signed crate prims nodeToken clock random))
    (near : |later.secs - clock.secs| ≤ 30) :
    (∀ bits ∈ message.doubles, crate.encodeDouble bits = .decimal (crate.float bits)) ∧
    (∀ result ∈ message.result, resultAction result = action) ∧
    ∃ envelope, crate.envelope (sendSigned crate prims nodeToken clock random message) = some envelope ∧
      envelope.verify prims later (Text.bytes nodeToken) = true ∧
      WireMessage.ofEnvelope crate action envelope = some (message.reread crate) := by
  have sendable := produced.sendable samples port
  exact ⟨sendable.doubles, sendable.result, sent_message_arrives sendable reads near⟩

/-! A heartbeat with one busy and one stopped container. The percentage of the busy one is a double that
the crate reads from its own text as the one below it. -/

def busyText : String :=
  "\x7b\"cpu_stats\":\x7b\"cpu_usage\":\x7b\"total_usage\":4200000000\x7d,\"system_cpu_usage\":91300000000," ++
    "\"online_cpus\":1\x7d,\"precpu_stats\":\x7b\"cpu_usage\":\x7b\"total_usage\":4000000000\x7d," ++
    "\"system_cpu_usage\":90000000000,\"online_cpus\":1\x7d,\"memory_stats\":\x7b\"usage\":734003200," ++
    "\"limit\":2147483648,\"stats\":\x7b\"cache\":104857600\x7d\x7d," ++
    "\"networks\":\x7b\"eth0\":\x7b\"rx_bytes\":1048576,\"tx_bytes\":524288\x7d\x7d\x7d"

def busyJson : Json := .object
  [("cpu_stats", .object [("cpu_usage", .object [("total_usage", .integer 4200000000)]),
      ("system_cpu_usage", .integer 91300000000), ("online_cpus", .integer 1)]),
    ("precpu_stats", .object [("cpu_usage", .object [("total_usage", .integer 4000000000)]),
      ("system_cpu_usage", .integer 90000000000), ("online_cpus", .integer 1)]),
    ("memory_stats", .object [("usage", .integer 734003200), ("limit", .integer 2147483648),
      ("stats", .object [("cache", .integer 104857600)])]),
    ("networks", .object [("eth0", .object [("rx_bytes", .integer 1048576), ("tx_bytes", .integer 524288)])])]

def busyParse (body : List UInt8) : Option Json := if body = Text.bytes busyText then some busyJson else none

def busyDocker : DockerRuntime where
  toDecoders := conflictApi
  dns := []
  encode _ := .error ""
  pullLine _ := none
  created _ := none
  running _ := none
  managed _ := none
  sample body := ((busyParse body).bind DockerStatsResponse.decode).map parseDockerStats

theorem busyDocker_samples : Samples busyDocker := by
  intro body stats sampled
  obtain ⟨raw, -, converted⟩ := Option.map_eq_some_iff.mp sampled
  exact ⟨raw, converted⟩

/-- 15.384615384615385 percent. -/
def busyPercent : UInt64 := 0x402ec4ec4ec4ec4f

def busyStats (percent : UInt64) : Stats := ⟨percent, 629145600, 2147483648, 1048576, 524288⟩

theorem busy_sampled : ∃ made, (Runtime.stats busyDocker "c1").Ran made (.ok (busyStats busyPercent)) := by
  obtain ⟨made, ran, -⟩ := transcript_answered (fun _ _ => answerText "200 OK" busyText) (Runtime.stats busyDocker "c1")
  have sampled : ((Runtime.stats busyDocker "c1").transcript (fun _ _ => answerText "200 OK" busyText) []).2 =
      .ok (busyStats busyPercent) := by
    decide +kernel
  rw [sampled] at ran
  exact ⟨made, ran⟩

def busyMade : List (Exchange Call Call.Response) :=
  [⟨.trackedSnapshot, [("s1", "c1"), ("s2", "c2")]⟩, ⟨.runtime (.inspect "c1"), .ok true⟩,
    ⟨.runtime (.stats "c1"), .ok (busyStats busyPercent)⟩, ⟨.runtime (.inspect "c2"), .ok false⟩]

def busyReport (percent : UInt64) : WireMessage :=
  .heartbeat [⟨"s1", true, busyStats percent⟩, ⟨"s2", false, Dispatcher.noStats⟩]

theorem busy_produced : Produced busyDocker Dispatcher.defaultDispatcher Dispatcher.unusedCodec .create
    (busyReport busyPercent) := by
  have ran : Dispatcher.heartbeat.Ran busyMade
      (.ok [⟨"s1", true, busyStats busyPercent⟩, ⟨"s2", false, Dispatcher.noStats⟩]) :=
    .call (.call (.call (.call (.done _))))
  refine .heartbeat _ ran ?_
  simp only [busyMade, List.forall_mem_cons]
  refine ⟨trivial, trivial, ?_, trivial, List.forall_mem_nil _⟩
  rintro stats ⟨⟩
  exact busy_sampled

mutual

/-- The compact text of a value whose strings need no escapes. -/
def compact : Json → String
  | .null => "null"
  | .bool value => if value then "true" else "false"
  | .integer value => value.repr
  | .decimal text => text
  | .string value => "\"" ++ value ++ "\""
  | .array items => "[" ++ ",".intercalate (compactItems items) ++ "]"
  | .object fields => "\x7b" ++ ",".intercalate (compactFields fields) ++ "\x7d"

def compactItems : List Json → List String
  | [] => []
  | first :: rest => compact first :: compactItems rest

def compactFields : Json.Fields → List String
  | [] => []
  | (name, value) :: rest => ("\"" ++ name ++ "\":" ++ compact value) :: compactFields rest

end

def compactEnvelope (envelope : Envelope) : String :=
  "\x7b\"type\":\"" ++ envelope.kind ++ "\",\"timestamp\":" ++ envelope.timestamp.toInt.repr ++ ",\"nonce\":\"" ++
    envelope.nonce ++ "\",\"payload\":" ++ envelope.payload ++ ",\"sig\":\"" ++ envelope.sig ++ "\"\x7d"

def busyFloat (bits : UInt64) : String := if bits = busyPercent then "15.384615384615385" else "0.0"

def busyDouble (text : String) : Option UInt64 :=
  if text = "15.384615384615385" then some (busyPercent - 1) else if text = "0.0" then some 0 else none

def busyPayload : Json := .object [("containers", .array
  [.object [("server_id", .string "s1"), ("running", .bool true), ("cpu_percent", .decimal "15.384615384615385"),
      ("mem_used_bytes", .integer 629145600), ("mem_limit_bytes", .integer 2147483648),
      ("net_rx_bytes", .integer 1048576), ("net_tx_bytes", .integer 524288)],
    .object [("server_id", .string "s2"), ("running", .bool false), ("cpu_percent", .decimal "0.0"),
      ("mem_used_bytes", .integer 0), ("mem_limit_bytes", .integer 0), ("net_rx_bytes", .integer 0),
      ("net_tx_bytes", .integer 0)]])]

def busyDigest : List UInt8 :=
  [0x79, 0xc6, 0xdb, 0x93, 0x51, 0x7a, 0xc6, 0x12, 0xc6, 0x94, 0x48, 0x25, 0x18, 0xd0, 0x28, 0xa7,
    0xc1, 0x28, 0x53, 0x85, 0x40, 0xfa, 0xdc, 0x06, 0x72, 0x2f, 0x1b, 0x2c, 0x4c, 0xf3, 0xbd, 0x29]

def busyMac : List UInt8 :=
  [0x4d, 0x1d, 0xca, 0xeb, 0x25, 0xf3, 0x4b, 0xc1, 0x5e, 0x1f, 0x7f, 0xa6, 0xba, 0xcb, 0xbf, 0x40,
    0x1e, 0x81, 0xcd, 0xd1, 0x0f, 0x9d, 0xd4, 0x49, 0x5f, 0xc3, 0x8e, 0xcb, 0x1d, 0x1d, 0xac, 0xcc]

def busyMessage : List UInt8 := Text.bytes
  ("heartbeat.1700000000.000102030405060708090a0b0c0d0e0f." ++
    "79c6db93517ac612c694482518d028a7c128538540fadc06722f1b2c4cf3bd29")

def busyPrimitives : Primitives where
  sha256 := recordedAt (Text.bytes (compact busyPayload)) busyDigest
  hmacSha256 := fun _ => recordedAt busyMessage busyMac

def busyEnvelope : Envelope :=
  Envelope.signed busyPrimitives (Text.bytes "node-secret") EnvelopeType.heartbeat (compact busyPayload) recordedClock
    recordedRandom

def busyCrate : JsonCrate where
  text := compact
  parse text := if text = compact busyPayload then some busyPayload else none
  envelopeText := compactEnvelope
  envelope text := if text = compactEnvelope busyEnvelope then some busyEnvelope else none
  float := busyFloat
  double := busyDouble

/-- Twelve seconds after the message was signed. -/
def busyLater : Clock := ⟨1700000012000000000, 12000000000, by decide⟩

theorem busy_encoded : (busyReport busyPercent).encode busyCrate = busyPayload := by
  rfl

theorem busy_signed : (busyReport busyPercent).signed busyCrate busyPrimitives "node-secret" recordedClock
    recordedRandom = busyEnvelope := by
  rw [WireMessage.signed, busy_encoded]
  rfl

theorem busy_reads_back : busyCrate.ReadsBack (busyReport busyPercent)
    ((busyReport busyPercent).signed busyCrate busyPrimitives "node-secret" recordedClock recordedRandom) where
  payload := by
    rw [busy_encoded]
    simp only [busyCrate, if_true]
  envelope := by
    rw [busy_signed]
    simp only [busyCrate, if_true]
  doubles := by
    have written : (busyReport busyPercent).doubles = [busyPercent, 0] := rfl
    rw [written, List.forall_mem_cons, List.forall_mem_singleton]
    exact ⟨fun _ => by decide, fun _ => by decide⟩

/-- The reader gets 15.384615384615383 percent. -/
theorem busy_heartbeat_arrives :
    Text.hexEncode busyMac = busyEnvelope.sig ∧
    ∃ envelope, busyCrate.envelope (sendSigned busyCrate busyPrimitives "node-secret" recordedClock recordedRandom
        (busyReport busyPercent)) = some envelope ∧
      envelope.verify busyPrimitives busyLater (Text.bytes "node-secret") = true ∧
      WireMessage.ofEnvelope busyCrate .create envelope = some (busyReport 0x402ec4ec4ec4ec4e) := by
  obtain ⟨-, -, arrives⟩ := every_message_arrives busyDocker Dispatcher.defaultDispatcher Dispatcher.unusedCodec
    busyCrate busyPrimitives "node-secret" .create (busyReport busyPercent) recordedClock busyLater recordedRandom
    busy_produced busyDocker_samples (by rintro _ ⟨⟩) busy_reads_back (by decide)
  exact ⟨by decide +kernel, arrives⟩

end SkyDaemon.Agent
