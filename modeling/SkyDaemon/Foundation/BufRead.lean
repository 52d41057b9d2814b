import SkyDaemon.Foundation.Segments

/-! A buffered reader over one that answers as it likes: with a piece of any size, an interruption
or an error. An empty piece says that the end is reached. -/
namespace SkyDaemon

inductive ReadAnswer (α : Type) where
  | piece (chunk : List α)
  | interrupted
  | failed (message : String)
  deriving DecidableEq, Repr

/-- Behind its last answer the reader stays at its end. -/
structure BufReader (α : Type) where
  /-- Read and not yet looked at. -/
  buffer : List α
  /-- What the reads to come are answered with. -/
  reads : List (ReadAnswer α)
  deriving DecidableEq, Repr

namespace BufReader
variable {α : Type} (ends : α → Bool)

/-- Goes on with a line: the buffer is searched for an end, and refilled when there is none in it.
An interrupted read is made again. -/
def readUntil (line buffer : List α) (reads : List (ReadAnswer α)) : Except String (List α × BufReader α) :=
  match buffer.span (!ends ·), reads with
  | (front, last :: rest), reads => .ok (line ++ front ++ [last], ⟨rest, reads⟩)
  | (front, []), [] => .ok (line ++ front, ⟨[], []⟩)
  | (_, []), .failed message :: _ => .error message
  | (front, []), .interrupted :: reads => readUntil (line ++ front) [] reads
  | (front, []), .piece [] :: reads => .ok (line ++ front, ⟨[], reads⟩)
  | (front, []), .piece chunk :: reads => readUntil (line ++ front) chunk reads

/-! ## Progress -/

/-- How much the answers bring, at most. -/
def amount : List (ReadAnswer α) → Nat
  | [] => 0
  | .piece chunk :: reads => chunk.length + amount reads
  | .interrupted :: reads | .failed _ :: reads => amount reads

/-- How much there is to take yet, at most. -/
def remaining (reader : BufReader α) : Nat := reader.buffer.length + amount reader.reads

variable {ends}

/-- Nothing is lost and nothing is taken twice. -/
theorem readUntil_remaining {line buffer taken : List α} {reads : List (ReadAnswer α)}
    (read : readUntil ends line buffer reads = .ok (taken, after)) :
    taken.length + after.remaining = line.length + remaining ⟨buffer, reads⟩ := by
  fun_induction readUntil ends line buffer reads with
  | case1 line buffer front last rest reads searched =>
    obtain ⟨rfl, -⟩ := span_ends searched
    cases read
    simp only [remaining, List.length_append, List.length_cons, List.length_nil]
    omega
  | case2 line buffer front searched =>
    obtain ⟨rfl, -⟩ := span_ends searched
    cases read
    simp [remaining, Nat.add_assoc]
  | case3 => cases read
  | case4 line buffer front reads searched ih =>
    obtain ⟨rfl, -⟩ := span_ends searched
    rw [ih read]
    simp [remaining, amount, Nat.add_assoc]
  | case5 line buffer front reads searched =>
    obtain ⟨rfl, -⟩ := span_ends searched
    cases read
    simp [remaining, amount, Nat.add_assoc]
  | case6 line buffer front chunk reads some searched ih =>
    obtain ⟨rfl, -⟩ := span_ends searched
    rw [ih read]
    simp [remaining, amount, Nat.add_assoc]

/-! ## What is delivered -/

/-- The answers bring the input, in pieces of any size and with any interruptions. -/
inductive Delivers : List (ReadAnswer α) → List α → Prop where
  | atEnd : Delivers [] []
  | ended {reads : List (ReadAnswer α)} (rest : Delivers reads []) : Delivers (.piece [] :: reads) []
  | interrupted {reads : List (ReadAnswer α)} (rest : Delivers reads input) : Delivers (.interrupted :: reads) input
  | piece {reads : List (ReadAnswer α)} (some : chunk ≠ []) (rest : Delivers reads input) :
      Delivers (.piece chunk :: reads) (chunk ++ input)

/-- What is buffered and to come. -/
def Holds (reader : BufReader α) (input : List α) : Prop :=
  ∃ later, Delivers reader.reads later ∧ reader.buffer ++ later = input

/-- A line is taken off the input: up to its end, or all that is left. -/
inductive Takes (ends : α → Bool) : List α → List α → List α → Prop where
  | line (free : ∀ x ∈ front, ends x = false) (closes : ends last = true) :
      Takes ends (front ++ last :: rest) (front ++ [last]) rest
  | all (free : ∀ x ∈ input, ends x = false) : Takes ends input input []

theorem Takes.more {front input taken rest : List α} (free : ∀ x ∈ front, ends x = false)
    (takes : Takes ends input taken rest) : Takes ends (front ++ input) (front ++ taken) rest := by
  cases takes with
  | @line inner last _ free' closes =>
    rw [← List.append_assoc, ← List.append_assoc]
    exact .line (List.forall_mem_append.mpr ⟨free, free'⟩) closes
  | all free' => exact .all (List.forall_mem_append.mpr ⟨free, free'⟩)

/-- However the input is delivered, the next line of it is taken. -/
theorem readUntil_takes {line buffer later : List α} {reads : List (ReadAnswer α)} (delivers : Delivers reads later) :
    ∃ taken rest after, readUntil ends line buffer reads = .ok (line ++ taken, after) ∧
      Takes ends (buffer ++ later) taken rest ∧ after.Holds rest := by
  fun_induction readUntil ends line buffer reads generalizing later with
  | case1 line buffer front last rest reads searched =>
    obtain ⟨rfl, free, closes⟩ := span_ends searched
    refine ⟨front ++ [last], rest ++ later, ⟨rest, reads⟩, by rw [List.append_assoc], ?_, later, delivers, rfl⟩
    rw [List.append_assoc, List.cons_append]
    exact .line free (closes last rest rfl)
  | case2 line buffer front searched =>
    obtain ⟨rfl, free, -⟩ := span_ends searched
    cases delivers
    rw [List.append_nil, List.append_nil]
    exact ⟨front, [], ⟨[], []⟩, rfl, .all free, [], .atEnd, rfl⟩
  | case3 => cases delivers
  | case4 line buffer front reads searched ih =>
    obtain ⟨rfl, free, -⟩ := span_ends searched
    cases delivers with
    | interrupted following =>
      obtain ⟨taken, rest, after, read, takes, holds⟩ := ih following
      rw [List.append_nil]
      exact ⟨front ++ taken, rest, after, by rw [read, List.append_assoc], takes.more free, holds⟩
  | case5 line buffer front reads searched =>
    obtain ⟨rfl, free, -⟩ := span_ends searched
    cases delivers with
    | ended following =>
      rw [List.append_nil, List.append_nil]
      exact ⟨front, [], ⟨[], reads⟩, rfl, .all free, [], following, rfl⟩
    | piece some following => contradiction
  | case6 line buffer front chunk reads some searched ih =>
    obtain ⟨rfl, free, -⟩ := span_ends searched
    cases delivers with
    | ended following => contradiction
    | piece _ following =>
      obtain ⟨taken, rest, after, read, takes, holds⟩ := ih following
      rw [List.append_nil]
      exact ⟨front ++ taken, rest, after, by rw [read, List.append_assoc], takes.more free, holds⟩

end BufReader
end SkyDaemon
