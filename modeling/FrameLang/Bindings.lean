/-!
Finite tables that hold at most one entry per key, the newest first. Nothing replaces an entry: a
caller looks a key up before it inserts it, so taking out the newest entry restores the table.
-/

set_option autoImplicit false

namespace FrameLang

structure Bindings (κ ν : Type) where
  entries : List (κ × ν) := []

namespace Bindings

variable {κ ν : Type}

def keys (bindings : Bindings κ ν) : List κ := bindings.entries.map Prod.fst

def values (bindings : Bindings κ ν) : List ν := bindings.entries.map Prod.snd

/-- Adds an entry for a key that has none. -/
def insert (bindings : Bindings κ ν) (key : κ) (value : ν) : Bindings κ ν :=
  ⟨(key, value) :: bindings.entries⟩

variable [DecidableEq κ]

def find? (bindings : Bindings κ ν) (key : κ) : Option ν :=
  (bindings.entries.find? (fun entry => entry.1 = key)).map Prod.snd

def erase (bindings : Bindings κ ν) (key : κ) : Bindings κ ν :=
  ⟨bindings.entries.filter (fun entry => entry.1 ≠ key)⟩

@[simp] theorem find?_insert_self (bindings : Bindings κ ν) (key : κ) (value : ν) :
    (bindings.insert key value).find? key = some value := by
  simp [find?, insert]

theorem find?_insert_of_ne (bindings : Bindings κ ν) {key other : κ} (different : key ≠ other)
    (value : ν) : (bindings.insert key value).find? other = bindings.find? other := by
  simp [find?, insert, different]

theorem find?_insert (bindings : Bindings κ ν) (key : κ) (value : ν) (other : κ) :
    (bindings.insert key value).find? other =
      if other = key then some value else bindings.find? other := by
  split
  next same => rw [same, find?_insert_self]
  next different => exact find?_insert_of_ne bindings (Ne.symm different) value

theorem find?_eq_none_iff {bindings : Bindings κ ν} {key : κ} :
    bindings.find? key = none ↔ key ∉ bindings.keys := by
  simp only [find?, keys, Option.map_eq_none_iff, List.find?_eq_none, decide_eq_true_eq,
    List.mem_map, not_exists, not_and]

theorem mem_entries_of_find? {bindings : Bindings κ ν} {key : κ} {value : ν}
    (found : bindings.find? key = some value) : (key, value) ∈ bindings.entries := by
  obtain ⟨entry, first, rfl⟩ := Option.map_eq_some_iff.mp found
  have same : entry.1 = key := by simpa using List.find?_some first
  exact same ▸ List.mem_of_find?_eq_some first

theorem find?_erase (bindings : Bindings κ ν) (key other : κ) :
    (bindings.erase key).find? other = if other = key then none else bindings.find? other := by
  simp only [find?, erase, List.find?_filter]
  split
  next same =>
    have none : ∀ entry ∈ bindings.entries, ¬ (entry.1 ≠ key ∧ entry.1 = other) := by
      intro entry _ ⟨kept, found⟩
      exact kept (found.trans same)
    simpa using none
  next different =>
    have alike (entry : κ × ν) : (entry.1 ≠ key ∧ entry.1 = other) ↔ entry.1 = other :=
      ⟨And.right, fun found => ⟨found ▸ different, found⟩⟩
    simp only [decide_eq_true_eq, alike]

/-- Where there is no entry, there is nothing to take out. -/
theorem erase_of_absent {bindings : Bindings κ ν} {key : κ} (absent : bindings.find? key = none) :
    bindings.erase key = bindings := by
  have kept : ∀ entry ∈ bindings.entries, entry.1 ≠ key := by
    intro entry member same
    exact find?_eq_none_iff.mp absent (List.mem_map.mpr ⟨entry, member, same⟩)
  obtain ⟨entries⟩ := bindings
  simpa [erase, List.filter_eq_self] using kept

/-- Taking out a fresh entry restores the table. -/
theorem erase_insert {bindings : Bindings κ ν} {key : κ} (fresh : bindings.find? key = none)
    (value : ν) : (bindings.insert key value).erase key = bindings := by
  have dropped : (bindings.insert key value).erase key = bindings.erase key := by
    simp [insert, erase]
  rw [dropped, erase_of_absent fresh]

end Bindings

end FrameLang
