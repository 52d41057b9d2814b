import SkyDaemon.Foundation.Interpret
import SkyDaemon.Agent.Concurrent

/-! Commands run one at a time, each to its ack before anything else happens. Such a run is
one of the daemon's runs. -/
namespace SkyDaemon.Agent
open Protocol Program Transition

/-- One call, answered as in a step of the daemon. -/
def World.react (world : World) (choice : Choice) (call : Call) : call.Response × World :=
  let answer := world.reply call (choice.answer call)
  (answer, world.effect choice call answer)

abbrev WorldCourse := Course World Choice Call Call.Response

/-- Calls that never wait. -/
def Call.Waitless : Call → Prop
  | .lockStdin _ => False
  | _ => True

/-- What a program is when it has ended. -/
def ended : Except String α → Task α
  | .ok value => .done value
  | .error message => .fail message

/-- A task that never waits can run to its end undisturbed. -/
theorem Daemon.run_of_execute (dispatcher : Dispatcher) (codec : Base64) (choices : Nat → Choice)
    {daemon : Daemon} {thread : CommandThread} {index : Nat}
    (found : daemon.threads[index]? = some thread) (waitless : thread.rest.All Call.Waitless) :
    ∃ result after labels,
      thread.rest.execute World.react ⟨daemon.world, thread.history, choices⟩ = (result, after) ∧
      Run (Daemon.Steps dispatcher codec) daemon labels
        ⟨after.world, daemon.threads.set index ⟨thread.origin, after.past, ended result⟩⟩ := by
  obtain ⟨origin, history, rest⟩ := thread
  have same : daemon.threads.set index ⟨origin, history, rest⟩ = daemon.threads := by
    obtain ⟨inside, own⟩ := List.getElem?_eq_some_iff.mp found
    rw [← own, List.set_getElem_self]
  induction rest generalizing daemon history choices with
  | done value =>
    refine ⟨.ok value, _, [], rfl, ?_⟩
    rw [ended, same]
    exact .refl _
  | fail message =>
    refine ⟨.error message, _, [], rfl, ?_⟩
    rw [ended, same]
    exact .refl _
  | call operation next ih =>
    let answer := daemon.world.reply operation ((choices 0).answer operation)
    let resumed : CommandThread := ⟨origin, history ++ [⟨operation, answer⟩], next answer⟩
    let mid : Daemon := ⟨daemon.world.effect (choices 0) operation answer, daemon.threads.set index resumed⟩
    have stepped : daemon.Steps dispatcher codec (.advance index (choices 0)) mid := by
      have free : daemon.world.blocked operation = false := by
        cases operation <;> first | rfl | exact waitless.1.elim
      simp [Daemon.Steps, Daemon.step, found, Daemon.advance, free, mid, resumed, answer, Thread.resume]
    have found' : mid.threads[index]? = some resumed :=
      List.getElem?_set_self (List.getElem?_eq_some_iff.mp found).1
    have same' : mid.threads.set index resumed = mid.threads := List.set_set ..
    obtain ⟨result, after, labels, ran, run⟩ :=
      ih answer (fun n => choices (n + 1)) _ found' (waitless.2 answer) same'
    refine ⟨result, after, .advance index (choices 0) :: labels, ran, .next stepped ?_⟩
    rw [List.set_set] at run
    exact run

end SkyDaemon.Agent
