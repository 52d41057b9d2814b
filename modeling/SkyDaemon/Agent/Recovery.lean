import SkyDaemon.Agent.Alone

/-! The daemon after a restart: `reconcile` rebuilds the map from what the runtime lists,
keeping the first container of each server, and `heartbeat` reports the containers in the
map. -/
namespace SkyDaemon.Agent
open Program

/-- The runtime lists these containers. -/
def Lists (choices : Nat → Choice) (found : List ManagedContainer) : Prop :=
  ∀ n, (choices n).answer (.runtime .listManaged) = .ok found

/-- Every inspection succeeds and tells whether the container is running. -/
def Inspects (choices : Nat → Choice) (running : String → Bool) : Prop :=
  ∀ n id, (choices n).answer (.runtime (.inspect id)) = .ok (running id)

theorem Inspects.tail (inspects : Inspects choices running) : Inspects (fun n => choices (n + 1)) running :=
  fun n => inspects (n + 1)

/-- The first listed container of a server is the one that gets tracked. -/
theorem lookup_foldl_orInsert (found : List ManagedContainer) (tracked : HashMap String String)
    (serverId : String) :
    (found.foldl World.orInsert tracked).lookup serverId =
      (tracked.lookup serverId).or
        ((found.find? (·.serverId == serverId)).map ManagedContainer.containerId) := by
  induction found generalizing tracked with
  | nil => simp
  | cons first rest ih =>
    rw [List.foldl_cons, ih, World.orInsert]
    by_cases same : first.serverId = serverId
    · subst same
      cases known : tracked.lookup first.serverId with
      | some id => simp [known]
      | none => simp
    · have other : ¬serverId = first.serverId := fun h => same h.symm
      cases known : tracked.lookup first.serverId with
      | some id => simp [same]
      | none => simp [same, other]

theorem reconcile_run {course : WorldCourse} (lists : Lists course.coming found) :
    ∃ after, Dispatcher.reconcile.execute World.react course = (.ok (), after) ∧
      after.world.tracked = found.foldl World.orInsert course.world.tracked ∧
      after.coming = fun n => course.coming (n + 2) := by
  have listed : course.answer World.react (.runtime .listManaged) = .ok found := lists 0
  rw [Dispatcher.reconcile, runtime, execute_perform_bind, listed]
  exact ⟨_, rfl, rfl, rfl⟩

theorem containerHeartbeat_run {course : WorldCourse} (inspects : Inspects course.coming running)
    (serverId containerId : String) :
    ∃ entry after, (Dispatcher.containerHeartbeat serverId containerId).execute World.react course =
        (.ok (some entry), after) ∧
      (entry.serverId, entry.running) = (serverId, running containerId) ∧
      Inspects after.coming running := by
  have inspected : course.answer World.react (.runtime (.inspect containerId)) =
    .ok (running containerId) := inspects 0 containerId
  rw [Dispatcher.containerHeartbeat, runtime, execute_perform_bind, inspected]
  cases running containerId with
  | false => exact ⟨_, _, rfl, rfl, inspects.tail⟩
  | true =>
    dsimp only
    rw [runtime, execute_perform_bind]
    cases (course.after World.react (.runtime (.inspect containerId))).answer World.react
        (.runtime (.stats containerId)) with
    | ok stats => exact ⟨_, _, rfl, rfl, inspects.tail.tail⟩
    | error message => exact ⟨_, _, rfl, rfl, inspects.tail.tail⟩

/-- With every inspection succeeding, each tracked pair gives one entry. -/
theorem heartbeats_run {course : WorldCourse} (inspects : Inspects course.coming running)
    (snapshot : List (String × String)) :
    ∃ report after, (Dispatcher.heartbeats snapshot).execute World.react course = (.ok report, after) ∧
      report.map (fun entry => (entry.serverId, entry.running)) =
        snapshot.map (fun pair => (pair.1, running pair.2)) := by
  induction snapshot generalizing course with
  | nil => exact ⟨[], course, rfl, rfl⟩
  | cons pair rest ih =>
    obtain ⟨entry, mid, first, reported, still⟩ := containerHeartbeat_run inspects pair.1 pair.2
    obtain ⟨others, after, second, tail⟩ := ih still
    refine ⟨entry :: others, after, ?_, by rw [List.map_cons, List.map_cons, reported, tail]⟩
    rw [Dispatcher.heartbeats, execute_bind_ok first, execute_bind_ok second]
    rfl

/-- `reconcile` at the start of the daemon, and the first report after it. -/
def restarted : Task (List ContainerHeartbeat) := do
  Dispatcher.reconcile
  Dispatcher.heartbeat

theorem restarted_run (lists : Lists choices found) (inspects : Inspects choices running) :
    ∃ report after, restarted.execute World.react (.start (Daemon.start ∅).world choices) =
        (.ok report, after) ∧
      report.map (fun entry => (entry.serverId, entry.running)) =
        (found.foldl World.orInsert ∅).entries.map fun entry => (entry.1, running entry.2) := by
  obtain ⟨mid, first, tracked, coming⟩ := reconcile_run
    (show Lists (Course.start (Daemon.start ∅).world choices : WorldCourse).coming found from lists)
  have still : Inspects (mid.after World.react .trackedSnapshot).coming running := by
    intro n id
    simp only [Course.after, coming]
    exact inspects _ id
  obtain ⟨report, after, second, reported⟩ := heartbeats_run still
    (mid.answer World.react .trackedSnapshot)
  refine ⟨report, after, ?_, ?_⟩
  · rw [restarted, execute_bind_ok first, Dispatcher.heartbeat, execute_perform_bind, second]
  · rw [reported]
    change (mid.world.tracked.entries.map fun entry => (entry.1, entry.2)).map _ = _
    rw [tracked, List.map_map]
    rfl

/-- The tracked container of a server runs just when the first listed one does. -/
theorem mem_tracked_running_iff (found : List ManagedContainer) (running : String → Bool) :
    (serverId, true) ∈ (found.foldl World.orInsert ∅).entries.map (fun entry => (entry.1, running entry.2)) ↔
      ∃ first, found.find? (·.serverId == serverId) = some first ∧ running first.containerId = true := by
  have tracked := lookup_foldl_orInsert found ∅ serverId
  rw [AList.lookup_empty, Option.none_or] at tracked
  constructor
  · intro member
    obtain ⟨⟨_, id⟩, inside, same⟩ := List.mem_map.mp member
    obtain ⟨rfl, runs⟩ := Prod.mk.inj same
    rw [AList.mem_lookup_iff.mpr inside] at tracked
    obtain ⟨first, listed, rfl⟩ := Option.map_eq_some_iff.mp tracked.symm
    exact ⟨first, listed, runs⟩
  · rintro ⟨first, listed, runs⟩
    rw [listed] at tracked
    exact List.mem_map.mpr ⟨⟨serverId, first.containerId⟩, AList.mem_lookup_iff.mp tracked, by rw [runs]⟩

/-- The report names each server once. It has every server that has a running container
as running exactly when the first listed container of each of them is running. -/
theorem reconcile_reports_running_iff (lists : Lists choices found) (inspects : Inspects choices running) :
    ∃ report after, restarted.execute World.react (.start (Daemon.start ∅).world choices) =
        (.ok report, after) ∧
      (report.map ContainerHeartbeat.serverId).Nodup ∧
      ((∀ container ∈ found, running container.containerId = true →
          ∃ entry ∈ report, entry.serverId = container.serverId ∧ entry.running = true) ↔
        ∀ container ∈ found, running container.containerId = true →
          ∃ first, found.find? (·.serverId == container.serverId) = some first ∧
            running first.containerId = true) := by
  obtain ⟨report, after, ran, reported⟩ := restarted_run lists inspects
  refine ⟨report, after, ran, ?_, ?_⟩
  · have keys : report.map ContainerHeartbeat.serverId = (found.foldl World.orInsert ∅).keys := by
      have firsts := congrArg (List.map Prod.fst) reported
      rw [List.map_map, List.map_map] at firsts
      exact firsts
    rw [keys]
    exact AList.keys_nodup _
  · -- A server is reported as running just when its tracked, first listed container is.
    have entry_iff (serverId : String) :
        (∃ entry ∈ report, entry.serverId = serverId ∧ entry.running = true) ↔
          ∃ first, found.find? (·.serverId == serverId) = some first ∧
            running first.containerId = true := by
      rw [← mem_tracked_running_iff, ← reported, List.mem_map]
      simp only [Prod.mk.injEq]
    simp only [entry_iff]

/-- The runtime's answers: `found`, and `"c2"` is the only running container. -/
def hostListing (found : List ManagedContainer) : Nat → Choice := fun _ =>
  { willing with
    answer
      | .runtime .listManaged => .ok found
      | .runtime (.inspect id) => .ok (id == "c2")
      | other => willing.answer other }

theorem running_listed_first_reported :
    ∃ report after, restarted.execute World.react (.start (Daemon.start ∅).world
        (hostListing [⟨"s1", "c2"⟩, ⟨"s1", "c1"⟩])) = (.ok report, after) ∧
      ∃ entry ∈ report, entry.serverId = "s1" ∧ entry.running = true := by
  have lists : Lists (hostListing [⟨"s1", "c2"⟩, ⟨"s1", "c1"⟩]) [⟨"s1", "c2"⟩, ⟨"s1", "c1"⟩] := fun _ => rfl
  obtain ⟨report, after, ran, -, reports⟩ := reconcile_reports_running_iff lists fun _ _ => rfl
  refine ⟨report, after, ran, reports.mpr ?_ ⟨"s1", "c2"⟩ (by simp) rfl⟩
  intro container member runs
  refine ⟨⟨"s1", "c2"⟩, ?_, rfl⟩
  fin_cases member <;> rfl

/-- The stopped container is listed first, and the server is reported as stopped. -/
theorem stopped_listed_first_hides_running :
    ∃ after, restarted.execute World.react (.start (Daemon.start ∅).world
        (hostListing [⟨"s1", "c1"⟩, ⟨"s1", "c2"⟩])) =
      (.ok [⟨"s1", false, Dispatcher.noStats⟩], after) :=
  ⟨_, rfl⟩

end SkyDaemon.Agent
