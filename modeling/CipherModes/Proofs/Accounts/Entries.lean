import Mathlib.Data.List.Perm.Basic

/-!
# Named entries

A list of entries in which each name stands at most once, and what is left of it
without one of them.
-/

set_option autoImplicit false

namespace CipherModes.Entries

variable {ν α : Type} [DecidableEq ν] {entries : List (ν × α)} {name : ν} {entry : ν × α}

theorem perm_of_find? (nodup : (entries.map Prod.fst).Nodup)
    (found : entries.find? (·.1 == name) = some entry) :
    entries.Perm (entry :: entries.filter (·.1 != name)) := by
  induction entries with
  | nil => cases found
  | cons head rest ih =>
      obtain ⟨absent, unique⟩ := List.nodup_cons.mp nodup
      by_cases named : head.1 = name
      · have others : rest.filter (·.1 != name) = rest := by
          rw [List.filter_eq_self]
          intro other member
          have different : other.1 ≠ name := by
            rintro same
            exact absent (named ▸ same ▸ List.mem_map_of_mem member)
          simpa using different
        rw [List.find?_cons_of_pos (by simpa using named)] at found
        cases found
        rw [List.filter_cons_of_neg (by simpa using named), others]
      · rw [List.find?_cons_of_neg (by simpa using named)] at found
        rw [List.filter_cons_of_pos (by simpa using named)]
        exact ((ih unique found).cons head).trans (.swap entry head _)

theorem eq_of_mem {other : ν × α} (nodup : (entries.map Prod.fst).Nodup)
    (found : entries.find? (·.1 == name) = some entry) (member : other ∈ entries)
    (named : other.1 = name) : other = entry := by
  rcases List.mem_cons.mp ((perm_of_find? nodup found).mem_iff.mp member) with same | remaining
  · exact same
  · have different := (List.mem_filter.mp remaining).2
    simp [named] at different

theorem filter_of_find?_eq_none (missing : entries.find? (·.1 == name) = none) :
    entries.filter (·.1 != name) = entries := by
  rw [List.filter_eq_self]
  intro entry member
  simpa using List.find?_eq_none.mp missing entry member

omit [DecidableEq ν] in
theorem nodup_concat (nodup : (entries.map Prod.fst).Nodup) (free : name ∉ entries.map Prod.fst)
    (value : α) : ((entries ++ [(name, value)]).map Prod.fst).Nodup := by
  rw [List.map_append]
  exact (List.perm_append_singleton _ _).nodup_iff.mpr (List.nodup_cons.mpr ⟨free, nodup⟩)

theorem names_replace (entries : List (ν × α)) (name : ν) (value : α) :
    (entries.map fun entry => if entry.1 == name then (entry.1, value) else entry).map Prod.fst =
      entries.map Prod.fst := by
  rw [List.map_map]
  apply List.map_congr_left
  intro entry _
  simp only [Function.comp]
  split <;> rfl

/-- The entry of a name has taken another value. -/
theorem perm_replace (nodup : (entries.map Prod.fst).Nodup)
    (found : entries.find? (·.1 == name) = some entry) (value : α) :
    (entries.map fun entry => if entry.1 == name then (entry.1, value) else entry).Perm
      ((name, value) :: entries.filter (·.1 != name)) := by
  have named : entry.1 = name := by simpa using List.find?_some found
  have others : ((entries.filter (·.1 != name)).map fun entry =>
      if entry.1 == name then (entry.1, value) else entry) = entries.filter (·.1 != name) := by
    refine (List.map_congr_left ?_).trans (List.map_id _)
    intro other member
    have different : other.1 ≠ name := by simpa using (List.mem_filter.mp member).2
    rw [if_neg (by simpa using different), id]
  have replaced := (perm_of_find? nodup found).map fun entry =>
    if entry.1 == name then (entry.1, value) else entry
  rwa [List.map_cons, others, if_pos (by simpa using named), named] at replaced

end CipherModes.Entries
