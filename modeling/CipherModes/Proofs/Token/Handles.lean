import CipherModes.Token.State

/-!
# Handles and their tables

A table gives back what was put under a handle last. A handle that is issued is
the number after all issued before, as long as the numbers suffice.
-/

set_option autoImplicit false

namespace CipherModes

namespace HandleTable

variable {α : Type} {handle other : Handle}

private theorem find?_filter_ne (different : other ≠ handle) (entries : List (Handle × α)) :
    (entries.filter (·.1 != handle)).find? (·.1 == other) = entries.find? (·.1 == other) := by
  induction entries with
  | nil => rfl
  | cons entry rest ih =>
      obtain ⟨head, value⟩ := entry
      by_cases dropped : head = handle
      · have passed : ¬ head = other := fun same => different (same.symm.trans dropped)
        simp [dropped, ih, beq_false_of_ne (dropped ▸ passed)]
      · simp [dropped, ih, List.find?_cons]

@[simp]
theorem get?_insert_self (table : HandleTable α) (handle : Handle) (value : α) :
    (table.insert handle value).get? handle = some value := by
  simp [insert, get?]

theorem get?_insert_ne (different : other ≠ handle) (table : HandleTable α) (value : α) :
    (table.insert handle value).get? other = table.get? other := by
  simp only [insert, get?, List.find?_cons, beq_false_of_ne different.symm,
    find?_filter_ne different]

@[simp]
theorem get?_erase_self (table : HandleTable α) (handle : Handle) :
    (table.erase handle).get? handle = none := by
  simp [erase, get?]

theorem get?_erase_ne (different : other ≠ handle) (table : HandleTable α) :
    (table.erase handle).get? other = table.get? other := by
  simp only [erase, get?, find?_filter_ne different]

theorem get?_erase_of_none {table : HandleTable α} (absent : table.get? other = none) :
    (table.erase handle).get? other = none := by
  by_cases same : other = handle
  · rw [same, get?_erase_self]
  · rw [get?_erase_ne same, absent]

private theorem find?_replace (table : HandleTable α) (handle other : Handle) (value : α) :
    (table.replace handle value).entries.find? (·.1 == other) =
      (table.entries.find? (·.1 == other)).map fun entry =>
        if entry.1 == handle then (entry.1, value) else entry := by
  have sameHandle : ((·.1 == other) : Handle × α → Bool) ∘ (fun entry =>
      if entry.1 == handle then (entry.1, value) else entry) = (·.1 == other) := by
    funext entry
    simp only [Function.comp]
    split <;> rfl
  rw [replace, List.find?_map, sameHandle]

theorem get?_replace_ne (different : other ≠ handle) (table : HandleTable α) (value : α) :
    (table.replace handle value).get? other = table.get? other := by
  rw [get?, get?, find?_replace]
  cases found : table.entries.find? (·.1 == other) with
  | none => rfl
  | some entry =>
      have named : entry.1 = other := by simpa using List.find?_some found
      have kept : ¬ entry.1 = handle := named ▸ different
      simp [kept]

theorem get?_replace_self {table : HandleTable α} {old : α}
    (present : table.get? handle = some old) (value : α) :
    (table.replace handle value).get? handle = some value := by
  rw [get?] at present
  rw [get?, find?_replace]
  cases found : table.entries.find? (·.1 == handle) with
  | none =>
      rw [found] at present
      cases present
  | some entry =>
      have named : entry.1 = handle := by simpa using List.find?_some found
      simp [named]

/-- No handle is added or removed by replacing. -/
theorem get?_replace_eq_none_iff {table : HandleTable α} {value : α} :
    (table.replace handle value).get? other = none ↔ table.get? other = none := by
  rw [get?, get?, find?_replace]
  simp

end HandleTable

namespace Handle

/-- Every handle's number is less. -/
def limit : Nat := 0x10000000000000000

theorem id_issuedAfter {count : UInt64} (remains : count.toNat + 1 < limit) :
    (issuedAfter count).id.toNat = count.toNat + 1 := by
  have next : (count + 1).toNat = count.toNat + 1 := by
    rw [UInt64.toNat_add]
    exact Nat.mod_eq_of_lt remains
  have kept : count + 1 ≠ 0 := by
    intro wraps
    rw [wraps] at next
    cases next
  rw [issuedAfter, dif_neg kept]
  exact next

end Handle

end CipherModes
