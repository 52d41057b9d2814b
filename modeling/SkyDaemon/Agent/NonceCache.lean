import Mathlib.Data.List.Induction
import SkyDaemon.Foundation.HashMap

/-! The replay cache of `nonce_cache.rs`, call by call and over whole histories of calls.
Instants are monotonic nanoseconds. -/
namespace SkyDaemon.Agent

structure NonceCache where
  seen : HashMap String Nat
  ttl : Nat

namespace NonceCache

def new (ttl : Nat) : NonceCache := ⟨∅, ttl⟩

/-- The sweep of expired entries. `duration_since` saturates at zero. -/
def sweep (cache : NonceCache) (now : Nat) : HashMap String Nat :=
  cache.seen.retain fun _ seenAt => decide (now - seenAt < cache.ttl)

def checkAndRecord (cache : NonceCache) (now : Nat) (nonce : String) : Bool × NonceCache :=
  let seen := cache.sweep now
  if (seen.lookup nonce).isSome then (false, { cache with seen })
  else (true, { cache with seen := seen.insert nonce now })

theorem sweep_lookup (cache : NonceCache) : (cache.sweep now).lookup nonce = some seenAt ↔
    cache.seen.lookup nonce = some seenAt ∧ now - seenAt < cache.ttl := by
  rw [sweep, HashMap.lookup_retain_eq_some, decide_eq_true_eq]

@[simp] theorem checkAndRecord_ttl (cache : NonceCache) (now : Nat) (nonce : String) :
    (cache.checkAndRecord now nonce).2.ttl = cache.ttl := by
  simp only [checkAndRecord]
  split <;> rfl

/-- A nonce recorded less than the TTL ago is refused. -/
theorem checkAndRecord_replay {cache : NonceCache} (recorded : cache.seen.lookup nonce = some seenAt)
    (young : now - seenAt < cache.ttl) : (cache.checkAndRecord now nonce).1 = false := by
  have kept : (cache.sweep now).lookup nonce = some seenAt := cache.sweep_lookup.mpr ⟨recorded, young⟩
  simp [checkAndRecord, kept]

theorem checkAndRecord_unseen {cache : NonceCache} (absent : cache.seen.lookup nonce = none) :
    (cache.checkAndRecord now nonce).1 = true := by
  have swept : (cache.sweep now).lookup nonce = none := by
    rw [Option.eq_none_iff_forall_ne_some]
    intro seenAt found
    rw [(cache.sweep_lookup.mp found).1] at absent
    contradiction
  simp [checkAndRecord, swept]

/-- An accepted nonce is recorded with the instant of its acceptance. -/
theorem checkAndRecord_records {cache : NonceCache}
    (accepted : (cache.checkAndRecord now nonce).1 = true) :
    (cache.checkAndRecord now nonce).2.seen.lookup nonce = some now := by
  simp only [checkAndRecord] at accepted ⊢
  split at accepted
  · contradiction
  · rename_i absent
    rw [if_neg absent]
    exact AList.lookup_insert _

/-- A young entry survives every call: the sweep keeps it, and no call for the
same nonce can replace it. -/
theorem checkAndRecord_keeps {cache : NonceCache} (recorded : cache.seen.lookup nonce = some seenAt)
    (young : now - seenAt < cache.ttl) (other : String) :
    (cache.checkAndRecord now other).2.seen.lookup nonce = some seenAt := by
  have kept : (cache.sweep now).lookup nonce = some seenAt := cache.sweep_lookup.mpr ⟨recorded, young⟩
  simp only [checkAndRecord]
  split
  · exact kept
  · rename_i absent
    have different : nonce ≠ other := by
      rintro rfl
      simp [kept] at absent
    rw [HashMap.lookup_insert_eq, if_neg different]
    exact kept

/-- Every acceptance less than the TTL before `now` still has an entry, at least
as recent as the acceptance itself. This is what a run of calls maintains. -/
def Remembers (cache : NonceCache) (accepted : List (String × Nat)) (now : Nat) : Prop :=
  ∀ nonce acceptedAt, (nonce, acceptedAt) ∈ accepted → now - acceptedAt < cache.ttl →
    ∃ seenAt, cache.seen.lookup nonce = some seenAt ∧ acceptedAt ≤ seenAt

theorem Remembers.nil (cache : NonceCache) (now : Nat) : cache.Remembers [] now := by
  intro nonce acceptedAt member
  contradiction

theorem Remembers.later {cache : NonceCache} (remembers : cache.Remembers accepted earlier)
    (ordered : earlier ≤ now) : cache.Remembers accepted now := by
  intro nonce acceptedAt member young
  exact remembers nonce acceptedAt member (by omega)

theorem Remembers.refuses {cache : NonceCache} (remembers : cache.Remembers accepted now)
    (member : (nonce, acceptedAt) ∈ accepted) (young : now - acceptedAt < cache.ttl) :
    (cache.checkAndRecord now nonce).1 = false := by
  obtain ⟨seenAt, recorded, ordered⟩ := remembers nonce acceptedAt member young
  exact checkAndRecord_replay recorded (by omega)

theorem Remembers.check {cache : NonceCache} (remembers : cache.Remembers accepted now)
    (nonce : String) : (cache.checkAndRecord now nonce).2.Remembers accepted now := by
  intro other acceptedAt member young
  rw [checkAndRecord_ttl] at young
  obtain ⟨seenAt, recorded, ordered⟩ := remembers other acceptedAt member young
  exact ⟨seenAt, checkAndRecord_keeps recorded (by omega) nonce, ordered⟩

theorem Remembers.accept {cache : NonceCache} (remembers : cache.Remembers accepted now)
    (fresh : (cache.checkAndRecord now nonce).1 = true) :
    (cache.checkAndRecord now nonce).2.Remembers (accepted ++ [(nonce, now)]) now := by
  intro other acceptedAt member young
  rcases List.mem_append.mp member with earlier | last
  · exact remembers.check nonce other acceptedAt earlier young
  · obtain ⟨rfl, rfl⟩ := Prod.mk.inj (List.mem_singleton.mp last)
    exact ⟨_, checkAndRecord_records fresh, Nat.le_refl _⟩

/-- Every entry of the cache is an acceptance. -/
def Recorded (cache : NonceCache) (accepted : List (String × Nat)) : Prop :=
  ∀ nonce seenAt, cache.seen.lookup nonce = some seenAt → (nonce, seenAt) ∈ accepted

theorem Recorded.check {cache : NonceCache} (recorded : cache.Recorded accepted)
    (accepts : (cache.checkAndRecord now nonce).1 = true) :
    (cache.checkAndRecord now nonce).2.Recorded (accepted ++ [(nonce, now)]) := by
  intro other seenAt found
  simp only [checkAndRecord] at accepts found
  split at accepts
  · contradiction
  · rename_i absent
    rw [if_neg absent, HashMap.lookup_insert_eq] at found
    split at found
    · rename_i same
      cases found
      rw [same]
      exact List.mem_append_right _ (List.mem_singleton_self _)
    · exact List.mem_append_left _ (recorded other seenAt (cache.sweep_lookup.mp found).1)

/-- A nonce passes exactly when it was not accepted less than the TTL ago. -/
theorem checkAndRecord_iff {cache : NonceCache} (remembers : cache.Remembers accepted now)
    (recorded : cache.Recorded accepted) :
    (cache.checkAndRecord now nonce).1 = true ↔
      ∀ acceptedAt, (nonce, acceptedAt) ∈ accepted → cache.ttl ≤ now - acceptedAt := by
  constructor
  · intro passes acceptedAt member
    by_contra young
    rw [remembers.refuses member (by omega)] at passes
    contradiction
  · intro old
    have swept : (cache.sweep now).lookup nonce = none := by
      rw [Option.eq_none_iff_forall_ne_some]
      intro seenAt found
      obtain ⟨present, young⟩ := cache.sweep_lookup.mp found
      have := old seenAt (recorded nonce seenAt present)
      omega
    simp [checkAndRecord, swept]

/-! ## Whole histories -/

/-- One call of `check_and_record`. -/
structure Call where
  now : Nat
  nonce : String
  deriving DecidableEq, Repr

/-- Calls one after another: each with its answer, and the cache after them. -/
def run (cache : NonceCache) : List Call → List (Call × Bool) × NonceCache
  | [] => ([], cache)
  | call :: rest =>
      let (answer, next) := cache.checkAndRecord call.now call.nonce
      let (answered, last) := next.run rest
      ((call, answer) :: answered, last)

theorem run_append (cache : NonceCache) (calls later : List Call) :
    cache.run (calls ++ later) =
      ((cache.run calls).1 ++ ((cache.run calls).2.run later).1, ((cache.run calls).2.run later).2) := by
  induction calls generalizing cache with
  | nil => rfl
  | cons call rest ih => simp only [List.cons_append, run, ih]

@[simp] theorem run_ttl (cache : NonceCache) (calls : List Call) : (cache.run calls).2.ttl = cache.ttl := by
  induction calls generalizing cache with
  | nil => rfl
  | cons call rest ih => exact (ih _).trans (checkAndRecord_ttl cache _ _)

/-- The calls that returned `true`, as nonces with their instants. -/
def acceptances (answered : List (Call × Bool)) : List (String × Nat) :=
  answered.filterMap fun entry => if entry.2 then some (entry.1.nonce, entry.1.now) else none

theorem mem_acceptances : (nonce, acceptedAt) ∈ acceptances answered ↔
    (⟨acceptedAt, nonce⟩, true) ∈ answered := by
  constructor
  · intro member
    obtain ⟨⟨call, answer⟩, inside, found⟩ := List.mem_filterMap.mp member
    cases answer with
    | false => contradiction
    | true =>
      cases found
      exact inside
  · intro member
    exact List.mem_filterMap.mpr ⟨_, member, rfl⟩

/-- The last call for the nonce that returned `true` was at this instant. -/
def LastAccepted (answered : List (Call × Bool)) (nonce : String) (acceptedAt : Nat) : Prop :=
  ∃ before after, answered = before ++ (⟨acceptedAt, nonce⟩, true) :: after ∧
    ∀ call, (call, true) ∈ after → call.nonce ≠ nonce

theorem LastAccepted.accepted (last : LastAccepted answered nonce acceptedAt) :
    (⟨acceptedAt, nonce⟩, true) ∈ answered := by
  obtain ⟨before, after, rfl, -⟩ := last
  exact List.mem_append_right _ List.mem_cons_self

theorem LastAccepted.unique (first : LastAccepted answered nonce instant)
    (second : LastAccepted answered nonce instant') : instant = instant' := by
  obtain ⟨before, after, rfl, none⟩ := first
  obtain ⟨before', after', same, none'⟩ := second
  rcases List.append_eq_append_iff.mp same with ⟨between, -, split⟩ | ⟨between, -, split⟩
  · cases between with
    | nil => exact congrArg (·.1.now) (List.cons.inj split).1
    | cons head between =>
      -- the second call would come after the first
      obtain ⟨-, split⟩ := List.cons.inj split
      exact absurd rfl (none ⟨instant', nonce⟩ (split ▸ List.mem_append_right _ List.mem_cons_self))
  · cases between with
    | nil => exact congrArg (·.1.now) (List.cons.inj split).1.symm
    | cons head between =>
      obtain ⟨-, split⟩ := List.cons.inj split
      exact absurd rfl (none' ⟨instant, nonce⟩ (split ▸ List.mem_append_right _ List.mem_cons_self))

theorem LastAccepted.concat (last : LastAccepted answered nonce acceptedAt)
    (other : answer = true → call.nonce ≠ nonce) : LastAccepted (answered ++ [(call, answer)]) nonce acceptedAt := by
  obtain ⟨before, after, rfl, none⟩ := last
  refine ⟨before, after ++ [(call, answer)], by simp, ?_⟩
  intro later member
  rcases List.mem_append.mp member with earlier | added
  · exact none later earlier
  · cases List.mem_singleton.mp added
    exact other rfl

/-- What a history of calls leaves: every young acceptance has its entry, and every entry is
the last acceptance of its nonce. -/
structure Follows (cache : NonceCache) (answered : List (Call × Bool)) (now : Nat) : Prop where
  remembers : cache.Remembers (acceptances answered) now
  last : ∀ nonce seenAt, cache.seen.lookup nonce = some seenAt → LastAccepted answered nonce seenAt

theorem Follows.recorded {cache : NonceCache} (follows : cache.Follows answered now) :
    cache.Recorded (acceptances answered) := by
  intro nonce seenAt found
  exact mem_acceptances.mpr (follows.last nonce seenAt found).accepted

theorem Follows.later {cache : NonceCache} (follows : cache.Follows answered earlier)
    (ordered : earlier ≤ now) : cache.Follows answered now :=
  ⟨follows.remembers.later ordered, follows.last⟩

/-- What is in the cache after a call: what the sweep kept, and the nonce if it was accepted. -/
theorem checkAndRecord_lookup {cache : NonceCache}
    (found : (cache.checkAndRecord now nonce).2.seen.lookup other = some seenAt) :
    (cache.checkAndRecord now nonce).1 = true ∧ other = nonce ∧ seenAt = now ∨
      (cache.sweep now).lookup other = some seenAt ∧
        ((cache.checkAndRecord now nonce).1 = true → nonce ≠ other) := by
  simp only [checkAndRecord] at found ⊢
  by_cases present : ((cache.sweep now).lookup nonce).isSome
  · rw [if_pos present] at found ⊢
    exact .inr ⟨found, by simp⟩
  · rw [if_neg present, HashMap.lookup_insert_eq] at found
    rw [if_neg present]
    by_cases same : other = nonce
    · rw [if_pos same] at found
      cases found
      exact .inl ⟨rfl, same, rfl⟩
    · rw [if_neg same] at found
      exact .inr ⟨found, fun _ => Ne.symm same⟩

theorem Follows.step {cache : NonceCache} (follows : cache.Follows answered now) (nonce : String) :
    (cache.checkAndRecord now nonce).2.Follows
      (answered ++ [(⟨now, nonce⟩, (cache.checkAndRecord now nonce).1)]) now := by
  constructor
  · cases accepted : (cache.checkAndRecord now nonce).1 with
    | true =>
      have grown := follows.remembers.accept accepted
      simpa [acceptances] using grown
    | false =>
      have kept := follows.remembers.check nonce
      simpa [acceptances] using kept
  · intro other seenAt found
    rcases checkAndRecord_lookup found with ⟨accepted, rfl, rfl⟩ | ⟨kept, different⟩
    · rw [accepted]
      exact ⟨answered, [], rfl, by simp⟩
    · exact (follows.last other seenAt (cache.sweep_lookup.mp kept).1).concat different

/-- The run lemma, by induction from the last call. -/
theorem run_follows (ttl : Nat) {calls : List Call}
    (ordered : calls.Pairwise fun earlier later => earlier.now ≤ later.now)
    (past : ∀ call ∈ calls, call.now ≤ now) :
    ((new ttl).run calls).2.Follows ((new ttl).run calls).1 now := by
  induction calls using List.reverseRecOn generalizing now with
  | nil =>
    refine ⟨.nil _ _, ?_⟩
    intro nonce seenAt found
    cases found
  | append_singleton calls call ih =>
    obtain ⟨inOrder, -, before⟩ := List.pairwise_append.mp ordered
    have follows := ih inOrder fun earlier member => before earlier member call List.mem_cons_self
    rw [run_append]
    exact (follows.step call.nonce).later (past call (by simp))

/-- With a positive TTL every entry is young after a call. -/
theorem checkAndRecord_young {cache : NonceCache} (positive : 0 < cache.ttl)
    (found : (cache.checkAndRecord now nonce).2.seen.lookup other = some seenAt) :
    now - seenAt < cache.ttl := by
  rcases checkAndRecord_lookup found with ⟨-, -, rfl⟩ | ⟨kept, -⟩
  · omega
  · exact (cache.sweep_lookup.mp kept).2

theorem Follows.lookup_iff {cache : NonceCache} (follows : cache.Follows answered now)
    (young : ∀ nonce seenAt, cache.seen.lookup nonce = some seenAt → now - seenAt < cache.ttl) :
    cache.seen.lookup nonce = some seenAt ↔
      LastAccepted answered nonce seenAt ∧ now - seenAt < cache.ttl := by
  constructor
  · intro found
    exact ⟨follows.last nonce seenAt found, young nonce seenAt found⟩
  · rintro ⟨last, recent⟩
    obtain ⟨entry, found, -⟩ := follows.remembers nonce seenAt (mem_acceptances.mpr last.accepted) recent
    rw [found, last.unique (follows.last nonce entry found)]

/-- The cache is exact over every history of calls at nondecreasing instants: a call passes
exactly if its nonce was not accepted less than the TTL ago, and afterwards the cache holds
exactly the nonces accepted less than the TTL ago, each once with its last acceptance. -/
theorem nonceCache_exact (ttl : Nat) (calls : List Call) (call : Call)
    (ordered : (calls ++ [call]).Pairwise fun earlier later => earlier.now ≤ later.now) :
    ((((new ttl).run calls).2.checkAndRecord call.now call.nonce).1 = true ↔
      ¬ ∃ earlier, (earlier, true) ∈ ((new ttl).run calls).1 ∧ earlier.nonce = call.nonce ∧
        call.now - earlier.now < ttl) ∧
    (0 < ttl →
      ((new ttl).run (calls ++ [call])).2.seen.keys.Nodup ∧
      ∀ nonce seenAt, ⟨nonce, seenAt⟩ ∈ ((new ttl).run (calls ++ [call])).2.seen.entries ↔
        LastAccepted ((new ttl).run (calls ++ [call])).1 nonce seenAt ∧ call.now - seenAt < ttl) := by
  obtain ⟨inOrder, -, before⟩ := List.pairwise_append.mp ordered
  have follows := run_follows ttl inOrder fun earlier member => before earlier member call List.mem_cons_self
  have same : ((new ttl).run calls).2.ttl = ttl := run_ttl _ _
  constructor
  · rw [checkAndRecord_iff follows.remembers follows.recorded, same]
    constructor
    · rintro old ⟨⟨acceptedAt, nonce⟩, accepted, rfl, young⟩
      exact absurd young (Nat.not_lt.mpr (old acceptedAt (mem_acceptances.mpr accepted)))
    · intro absent acceptedAt member
      by_contra young
      exact absent ⟨⟨acceptedAt, call.nonce⟩, mem_acceptances.mp member, rfl, Nat.not_le.mp young⟩
  · intro positive
    have past : ∀ earlier ∈ calls ++ [call], earlier.now ≤ call.now := by
      intro earlier member
      rcases List.mem_append.mp member with inside | added
      · exact before earlier inside call List.mem_cons_self
      · rw [List.mem_singleton.mp added]
    have after := run_follows ttl ordered past
    have total : ((new ttl).run (calls ++ [call])).2.ttl = ttl := run_ttl _ _
    refine ⟨AList.keys_nodup _, fun nonce seenAt => ?_⟩
    rw [← AList.mem_lookup_iff, Option.mem_def, after.lookup_iff, total]
    intro other instant found
    rw [run_append] at found
    have recent := checkAndRecord_young (by rw [same]; exact positive) found
    rw [same] at recent
    rw [total]
    exact recent

-- the nonce is accepted at 0, refused at 9 and accepted again at 10
theorem nonceCache_exact_reuse :
    ([⟨0, "n"⟩, ⟨9, "n"⟩] ++ [⟨10, "n"⟩] : List Call).Pairwise (fun earlier later => earlier.now ≤ later.now) ∧
      (((new 10).run [⟨0, "n"⟩, ⟨9, "n"⟩]).2.checkAndRecord 10 "n").1 = true := by
  have ordered : ([⟨0, "n"⟩, ⟨9, "n"⟩] ++ [⟨10, "n"⟩] : List Call).Pairwise
      (fun earlier later => earlier.now ≤ later.now) := by decide
  have answers : ((new 10).run [⟨0, "n"⟩, ⟨9, "n"⟩]).1 = [(⟨0, "n"⟩, true), (⟨9, "n"⟩, false)] := by
    decide +kernel
  refine ⟨ordered, (nonceCache_exact 10 [⟨0, "n"⟩, ⟨9, "n"⟩] ⟨10, "n"⟩ ordered).1.mpr ?_⟩
  rw [answers]
  rintro ⟨earlier, member, -, young⟩
  rcases List.mem_cons.mp member with first | second
  · cases first
    contradiction
  · simp at second

end NonceCache
end SkyDaemon.Agent
