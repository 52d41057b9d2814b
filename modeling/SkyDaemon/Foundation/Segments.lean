import Mathlib.Data.List.Basic
import Mathlib.Data.List.TakeDrop
import Mathlib.Data.List.TakeWhile

/-! A sequence cut behind every element that ends a segment. What stands behind the last end is
pending and no segment yet. -/
namespace SkyDaemon

variable {α β : Type} (ends : α → Bool)

/-- The segments that the elements complete, the first of them begun by `pending`. -/
def segments (pending : List α) : List α → List (List α)
  | [] => []
  | x :: rest =>
      if ends x then (pending ++ [x]) :: segments [] rest else segments (pending ++ [x]) rest

variable {ends}

theorem segments_free {pending front : List α} (free : ∀ x ∈ front, ends x = false) (rest : List α) :
    segments ends pending (front ++ rest) = segments ends (pending ++ front) rest := by
  induction front generalizing pending with
  | nil => simp
  | cons x front ih =>
    have open' : ¬ ends x = true := by simp [free x List.mem_cons_self]
    rw [List.cons_append, segments, if_neg open', ih fun y member => free y (List.mem_cons_of_mem x member),
      List.append_assoc, List.singleton_append]

theorem segments_first {pending front : List α} {last : α} (free : ∀ x ∈ front, ends x = false)
    (closes : ends last = true) (rest : List α) :
    segments ends pending (front ++ last :: rest) = (pending ++ front ++ [last]) :: segments ends [] rest := by
  rw [segments_free free, segments, if_pos closes]

/-- What stands behind an end is cut on its own. -/
theorem segments_append {pending front rest : List α} {last : α} (closes : ends last = true) :
    segments ends pending (front ++ [last] ++ rest) =
      segments ends pending (front ++ [last]) ++ segments ends [] rest := by
  induction front generalizing pending with
  | nil => simp [segments, closes]
  | cons x front ih =>
    simp only [List.cons_append, segments]
    split
    · rw [ih, List.cons_append]
    · rw [ih]

theorem segments_none {pending list : List α} (free : ∀ x ∈ list, ends x = false) :
    segments ends pending list = [] := by
  rw [← List.append_nil list, segments_free free, segments]

/-- The elements up to the first that ends a segment, if there is one. -/
theorem first_end (ends : α → Bool) (list : List α) : (∀ x ∈ list, ends x = false) ∨
    ∃ front last rest, list = front ++ last :: rest ∧ (∀ x ∈ front, ends x = false) ∧ ends last = true := by
  induction list with
  | nil => exact .inl nofun
  | cons x list ih =>
    cases closes : ends x with
    | true => exact .inr ⟨[], x, list, rfl, nofun, closes⟩
    | false =>
      rcases ih with free | ⟨front, last, rest, rfl, free, ended⟩
      · refine .inl fun y member => ?_
        rcases List.mem_cons.mp member with rfl | later
        · exact closes
        · exact free y later
      · refine .inr ⟨x :: front, last, rest, rfl, fun y member => ?_, ended⟩
        rcases List.mem_cons.mp member with rfl | later
        · exact closes
        · exact free y later

/-- A search for the first end. -/
theorem span_ends {list front rest : List α} (searched : list.span (!ends ·) = (front, rest)) :
    list = front ++ rest ∧ (∀ x ∈ front, ends x = false) ∧ ∀ last tail, rest = last :: tail → ends last = true := by
  rw [List.span_eq_takeWhile_dropWhile] at searched
  obtain ⟨rfl, rfl⟩ := Prod.mk.inj searched
  refine ⟨List.takeWhile_append_dropWhile.symm, fun x member => ?_, fun last tail stopped => ?_⟩
  · simpa using List.mem_takeWhile_imp member
  · have stops := List.head_dropWhile_not (!ends ·) (l := list) (by rw [stopped]; simp)
    simpa only [stopped, List.head_cons, Bool.not_eq_false'] using stops

/-- A segment stands in the sequence as it is, and only its last element ends one. -/
theorem mem_segments {list segment : List α} (member : segment ∈ segments ends [] list) :
    ∃ before front last after, list = before ++ (front ++ [last]) ++ after ∧ segment = front ++ [last] ∧
      (∀ x ∈ front, ends x = false) ∧ ends last = true := by
  induction length : list.length using Nat.strongRecOn generalizing list with
  | ind n ih =>
    rcases first_end ends list with free | ⟨front, last, rest, rfl, free, closes⟩
    · rw [segments_none free] at member
      contradiction
    · rw [segments_first free closes, List.mem_cons] at member
      rcases member with rfl | later
      · exact ⟨[], front, last, rest, by simp, rfl, free, closes⟩
      · obtain ⟨before, front', last', after, rfl, same, free', closes'⟩ :=
          ih rest.length (by simp at length; omega) later rfl
        exact ⟨front ++ last :: before, front', last', after, by simp, same, free', closes'⟩

/-- An end that comes later puts two neighbours into one segment, unless the first ends one. -/
theorem neighbours_segment (pending before : List α) {a b : α} {after : List α} (open' : ends a = false)
    (closes : ∃ x ∈ b :: after, ends x = true) :
    ∃ segment ∈ segments ends pending (before ++ a :: b :: after), a ∈ segment ∧ b ∈ segment := by
  induction before generalizing pending with
  | nil =>
    rcases first_end ends (b :: after) with free | ⟨front, last, rest, split, free, ended⟩
    · obtain ⟨x, member, closed⟩ := closes
      rw [free x member] at closed
      contradiction
    · have reached : b ∈ front ++ [last] := by
        cases front with
        | nil => simp [(List.cons.inj split).1]
        | cons first others => simp [(List.cons.inj split).1]
      rw [List.nil_append, segments, if_neg (by simp [open']), split, segments_first free ended]
      refine ⟨_, List.mem_cons_self, by simp, ?_⟩
      rw [List.append_assoc]
      exact List.mem_append_right _ reached
  | cons x before ih =>
    rw [List.cons_append, segments]
    split
    · obtain ⟨segment, member, both⟩ := ih []
      exact ⟨segment, List.mem_cons_of_mem _ member, both⟩
    · exact ih (pending ++ [x])

theorem segments_map (f : β → α) (pending list : List β) :
    segments ends (pending.map f) (list.map f) = (segments (ends ∘ f) pending list).map (List.map f) := by
  induction list generalizing pending with
  | nil => rfl
  | cons x list ih =>
    have next := ih (pending ++ [x])
    rw [List.map_append] at next
    simp only [segments, List.map_cons, Function.comp_apply]
    split
    · have fresh := ih []
      simp_all
    · exact next

/-- If every segment is wholly inside or wholly outside a class, the segments of the class alone
are those inside it. -/
theorem segments_filter (inside : α → Bool) {pending list : List α}
    (uniform : ∀ segment ∈ segments ends pending list, ∀ a ∈ segment, ∀ b ∈ segment, inside a = inside b) :
    segments ends (pending.filter inside) (list.filter inside) =
      (segments ends pending list).filter (·.all inside) := by
  induction list generalizing pending with
  | nil => rfl
  | cons x list ih =>
    rw [segments] at uniform
    by_cases closes : ends x = true
    · rw [if_pos closes] at uniform
      have whole := uniform _ List.mem_cons_self
      have rest := @ih [] fun segment member => uniform segment (List.mem_cons_of_mem _ member)
      have same : ∀ a ∈ pending, inside a = inside x := fun a member => whole a (by simp [member]) x (by simp)
      cases own : inside x with
      | true =>
        have kept : pending.filter inside = pending :=
          List.filter_eq_self.mpr fun a member => by rw [same a member, own]
        have all : (pending ++ [x]).all inside = true := by
          rw [List.all_eq_true]
          intro a member
          rw [whole a member x (by simp), own]
        rw [kept, List.filter_cons_of_pos own, segments, if_pos closes, segments, if_pos closes,
          List.filter_cons, if_pos all, ← rest]
        rfl
      | false =>
        have dropped : pending.filter inside = [] :=
          List.filter_eq_nil_iff.mpr fun a member => by simp [same a member, own]
        have out : ¬ (pending ++ [x]).all inside = true := by simp [own]
        rw [dropped, List.filter_cons_of_neg (by simp [own]), segments, if_pos closes, List.filter_cons,
          if_neg out, ← rest]
        rfl
    · rw [if_neg closes] at uniform
      have rest := ih uniform
      rw [segments, if_neg closes, ← rest, List.filter_append]
      cases own : inside x with
      | true => rw [List.filter_cons_of_pos own, List.filter_cons_of_pos own, segments, if_neg closes, List.filter_nil]
      | false =>
        have out : ¬ inside x = true := by simp [own]
        rw [List.filter_cons_of_neg out, List.filter_cons_of_neg out, List.filter_nil, List.append_nil]

end SkyDaemon
