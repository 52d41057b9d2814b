import SkyDaemon.Runtime.Operations
import SkyDaemon.Runtime.PortConflict

/-! `create_container` against any answers: what it asks for in a whole run, and how the run ends. -/
namespace SkyDaemon.Runtime
open Program

variable (docker : DockerRuntime)

/-- The pull went through: status 200 and no error in the stream. -/
def Pulled (answer : Except String (List UInt8)) : Prop :=
  ∃ body, response docker.toDecoders answer = .ok (200, body) ∧ extractPullError docker.pullLine body = none

variable {docker}

theorem pullImage_ran {made : DockerHistory} (ran : (pullImage docker image).Ran made result) :
    ∃ answer, made = [⟨⟨.post, pullPath image, none⟩, answer⟩] ∧ (result = .ok () ↔ Pulled docker answer) := by
  rcases ran.of_bind with ⟨message, failed, rfl⟩ | ⟨⟨status, body⟩, first, rest, rfl, asked, following⟩
  · obtain ⟨answer, rfl, same⟩ := request_ran failed
    exact ⟨answer, rfl, by simp [Pulled, ← same]⟩
  · obtain ⟨answer, rfl, same⟩ := request_ran asked
    dsimp only at following
    split at following
    · rename_i other
      cases following
      exact ⟨answer, rfl, by simp [Pulled, ← same, other]⟩
    · rename_i ok
      split at following
      · rename_i message found
        cases following
        exact ⟨answer, rfl, by simp [Pulled, ← same, found]⟩
      · rename_i clean
        cases following
        exact ⟨answer, rfl, by simp [Pulled, ← same, not_not.mp ok, clean]⟩

/-- The requests that were made, from the state of the two recoveries on. -/
inductive Rounds (docker : DockerRuntime) (path : String) (body : List UInt8) (image name : String) :
    Bool → Bool → DockerHistory → Except String (List UInt8) → Prop where
  | created (ok : response docker.toDecoders answer = .ok (201, resp)) :
      Rounds docker path body image name pulled cleared [⟨⟨.post, path, some body⟩, answer⟩] (.ok resp)
  | refused (other : ∀ resp, response docker.toDecoders answer ≠ .ok (201, resp)) :
      Rounds docker path body image name pulled cleared [⟨⟨.post, path, some body⟩, answer⟩] (.error message)
  | pullFailed (other : ∀ resp, response docker.toDecoders answer ≠ .ok (201, resp))
      (failed : ¬ Pulled docker fetched) :
      Rounds docker path body image name false cleared
        [⟨⟨.post, path, some body⟩, answer⟩, ⟨⟨.post, pullPath image, none⟩, fetched⟩] (.error message)
  | pulled (other : ∀ resp, response docker.toDecoders answer ≠ .ok (201, resp)) (ok : Pulled docker fetched)
      (again : Rounds docker path body image name true cleared made result) :
      Rounds docker path body image name false cleared
        (⟨⟨.post, path, some body⟩, answer⟩ :: ⟨⟨.post, pullPath image, none⟩, fetched⟩ :: made) result
  | removeFailed (other : ∀ resp, response docker.toDecoders answer ≠ .ok (201, resp)) (named : name ≠ "")
      (failed : ¬ Freed docker.toDecoders removal) :
      Rounds docker path body image name pulled false
        [⟨⟨.post, path, some body⟩, answer⟩, ⟨⟨.delete, removePath name, none⟩, removal⟩] (.error message)
  | removed (other : ∀ resp, response docker.toDecoders answer ≠ .ok (201, resp)) (named : name ≠ "")
      (ok : Freed docker.toDecoders removal)
      (again : Rounds docker path body image name pulled true made result) :
      Rounds docker path body image name pulled false
        (⟨⟨.post, path, some body⟩, answer⟩ :: ⟨⟨.delete, removePath name, none⟩, removal⟩ :: made) result

theorem createContainer_rounds {made : DockerHistory}
    (ran : (createContainer docker path body image name pulled cleared).Ran made result) :
    Rounds docker path body image name pulled cleared made result := by
  induction pulled, cleared using createContainer.induct name generalizing made with
  | case1 pulled cleared missing taken =>
    unfold createContainer at ran
    rcases ran.of_bind with ⟨message, failed, rfl⟩ | ⟨⟨status, resp⟩, first, rest, rfl, asked, following⟩
    · obtain ⟨answer, rfl, same⟩ := request_ran failed
      exact .refused (by simp [← same])
    · obtain ⟨answer, rfl, same⟩ := request_ran asked
      dsimp only at following
      split at following
      · rename_i ok
        cases following
        exact .created (ok ▸ same.symm)
      · rename_i other
        have notCreated : ∀ resp, response docker.toDecoders answer ≠ .ok (201, resp) := by
          simp [← same, other]
        split at following
        · rename_i absent
          obtain ⟨notFound, rfl⟩ := absent
          rcases following.of_bind with ⟨message, failed, rfl⟩ | ⟨⟨⟩, first, rest, rfl, went, again⟩
          · obtain ⟨fetched, rfl, iff⟩ := pullImage_ran failed
            exact .pullFailed notCreated (by simpa using iff)
          · obtain ⟨fetched, rfl, iff⟩ := pullImage_ran went
            exact .pulled notCreated (iff.mp rfl) (missing status ⟨notFound, rfl⟩ again)
        · split at following
          · rename_i conflict
            obtain ⟨exists', rfl, named⟩ := conflict
            rcases following.of_bind with ⟨message, failed, rfl⟩ | ⟨⟨⟩, first, rest, rfl, went, again⟩
            · obtain ⟨removal, rfl, iff⟩ := removeByName_ran failed
              exact .removeFailed notCreated named (by simpa using iff)
            · obtain ⟨removal, rfl, iff⟩ := removeByName_ran went
              exact .removed notCreated named (iff.mp rfl) (taken status ⟨exists', rfl, named⟩ again)
          · cases following
            exact .refused notCreated

/-- A pull or a removal that did not succeed. -/
def Unrecovered (docker : DockerRuntime) (image name : String)
    (exchange : Exchange Request fun _ => Except String (List UInt8)) : Prop :=
  (exchange.1 = ⟨.post, pullPath image, none⟩ ∧ ¬ Pulled docker exchange.2) ∨
    (exchange.1 = ⟨.delete, removePath name, none⟩ ∧ ¬ Freed docker.toDecoders exchange.2)

namespace Rounds
variable {made : DockerHistory} {pulled cleared : Bool}
  (rounds : Rounds docker path body image name pulled cleared made result)
include rounds

theorem asked : ∀ exchange ∈ made, exchange.1 = ⟨.post, path, some body⟩ ∨
    exchange.1 = ⟨.post, pullPath image, none⟩ ∨ exchange.1 = ⟨.delete, removePath name, none⟩ := by
  induction rounds <;> simp_all

/-- Each recovery pays for one more request to create. -/
theorem posts_le : made.countP (·.1 = ⟨.post, path, some body⟩) ≤ 1 + (!pulled).toNat + (!cleared).toNat := by
  induction rounds <;> simp_all <;> omega

theorem pulls_le : made.countP (·.1 = ⟨.post, pullPath image, none⟩) ≤ (!pulled).toNat := by
  induction rounds <;> simp_all

theorem removals_le : made.countP (·.1.method = .delete) ≤ (!cleared).toNat := by
  induction rounds <;> simp_all

theorem unnamed (empty : name = "") : ∀ exchange ∈ made, exchange.1.method ≠ .delete := by
  induction rounds <;> simp_all

theorem ok_iff (resp : List UInt8) : result = .ok resp ↔ ∃ exchange ∈ made,
    exchange.1 = ⟨.post, path, some body⟩ ∧ response docker.toDecoders exchange.2 = .ok (201, resp) := by
  induction rounds <;> simp_all

/-- Nothing is asked after a recovery that failed. -/
theorem ends : made.Pairwise fun earlier _ => ¬ Unrecovered docker image name earlier := by
  induction rounds <;> simp_all [Unrecovered]

end Rounds

/-- However Docker answers, `create_container` comes to an end after at most three requests to create,
one pull and one removal. It succeeds with the first 201, and after a recovery that failed it asks
for nothing more. -/
theorem create_container_recovers_once (docker : DockerRuntime) (path : String) (body : List UInt8)
    (image name : String) (oracle : DockerHistory → Request → Except String (List UInt8)) :
    ∃ made result, (createContainer docker path body image name false false).transcript oracle [] =
      (made, result) ∧
    (∀ exchange ∈ made, exchange.1 = ⟨.post, path, some body⟩ ∨ exchange.1 = ⟨.post, pullPath image, none⟩ ∨
      exchange.1 = ⟨.delete, removePath name, none⟩) ∧
    made.countP (·.1 = ⟨.post, path, some body⟩) ≤ 3 ∧
    made.countP (·.1 = ⟨.post, pullPath image, none⟩) ≤ 1 ∧
    made.countP (·.1.method = .delete) ≤ 1 ∧
    (name = "" → ∀ exchange ∈ made, exchange.1.method ≠ .delete) ∧
    (∀ resp, result = .ok resp ↔ ∃ exchange ∈ made, exchange.1 = ⟨.post, path, some body⟩ ∧
      response docker.toDecoders exchange.2 = .ok (201, resp)) ∧
    ∀ before exchange after, made = before ++ exchange :: after →
      Unrecovered docker image name exchange → ∀ later ∈ after, later.1.method ≠ .post := by
  obtain ⟨made, whole, ran⟩ := transcript_ran oracle
    (createContainer docker path body image name false false) []
  have rounds := createContainer_rounds ran
  refine ⟨made, _, Prod.ext whole rfl, rounds.asked, rounds.posts_le, rounds.pulls_le, rounds.removals_le,
    fun empty => rounds.unnamed empty, rounds.ok_iff, ?_⟩
  rintro before exchange after rfl failed later member
  have follows := (List.pairwise_append.mp rounds.ends).2.1
  exact absurd failed (List.rel_of_pairwise_cons follows member)

end SkyDaemon.Runtime
