import Mathlib.Data.List.AList

/-! Finite maps with unique keys: lookup, insertion, removal and a filtering sweep.
Iteration order is the entry list's. -/
namespace SkyDaemon

abbrev HashMap (α β : Type) := AList (fun _ : α => β)

namespace HashMap
variable {α β : Type}

/-- `retain`: keep the entries whose key and value satisfy the predicate. -/
def retain (map : HashMap α β) (keep : α → β → Bool) : HashMap α β where
  entries := map.entries.filter fun entry => keep entry.1 entry.2
  nodupKeys := map.nodupKeys.sublist List.filter_sublist

variable [DecidableEq α]

theorem lookup_retain_eq_some (map : HashMap α β) (keep : α → β → Bool) :
    (map.retain keep).lookup key = some value ↔
      map.lookup key = some value ∧ keep key value = true := by
  rw [← Option.mem_def, ← Option.mem_def, AList.mem_lookup_iff, AList.mem_lookup_iff]
  exact List.mem_filter

theorem lookup_insert_eq (map : HashMap α β) (key other : α) (value : β) :
    (map.insert key value).lookup other = if other = key then some value else map.lookup other := by
  split
  · rename_i same
    subst other
    exact AList.lookup_insert map
  · exact AList.lookup_insert_ne ‹_›

theorem lookup_erase_eq (map : HashMap α β) (key other : α) :
    (map.erase key).lookup other = if other = key then none else map.lookup other := by
  split
  · rename_i same
    subst other
    exact AList.lookup_erase _ map
  · exact AList.lookup_erase_ne ‹_›

end HashMap
end SkyDaemon
