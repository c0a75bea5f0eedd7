import Mathlib.Data.List.AList

/-! # Finite maps with a size

A hash map is an association list without repeated keys; nothing depends on its order. Lookups
after an insertion or a removal are stated once, for all keys. -/
namespace Mappf

abbrev HashMap (κ ν : Type) := AList (fun _ : κ => ν)

namespace HashMap

variable {κ ν : Type}

def len (m : HashMap κ ν) : ℕ := m.keys.length

variable [DecidableEq κ]

def contains (m : HashMap κ ν) (k : κ) : Bool := (m.lookup k).isSome

variable (m : HashMap κ ν)

theorem lookup_insert_eq (k k' : κ) (v : ν) : (m.insert k v).lookup k' = if k' = k then some v else m.lookup k' := by
  split_ifs with h
  · rw [h, AList.lookup_insert]
  · rw [AList.lookup_insert_ne h]

theorem lookup_erase_eq (k k' : κ) : (m.erase k).lookup k' = if k' = k then none else m.lookup k' := by
  split_ifs with h
  · rw [h, AList.lookup_erase]
  · rw [AList.lookup_erase_ne h]

theorem lookup_eq_ite (k k' : κ) : m.lookup k' = if k' = k then m.lookup k else m.lookup k' := by
  by_cases h : k' = k
  · rw [if_pos h, h]
  · rw [if_neg h]

def retain (p : κ → ν → Bool) (m : HashMap κ ν) : HashMap κ ν where
  entries := m.entries.filter (fun entry => p entry.1 entry.2)
  nodupKeys := m.nodupKeys.sublist List.filter_sublist

theorem lookup_retain_eq (p : κ → ν → Bool) (k : κ) : (m.retain p).lookup k = (m.lookup k).filter (p k) := by
  apply Option.ext
  intro v
  rw [Option.filter_eq_some_iff, ← Option.mem_def, ← Option.mem_def, AList.mem_lookup_iff, AList.mem_lookup_iff]
  simp [retain]

end HashMap
end Mappf
